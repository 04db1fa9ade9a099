import CodeOutline.Environment
import CodeOutline.Path

/-! Settings: what is scanned, which language model is asked, where repositories are read from and
where documents go. -/

namespace CodeOutline

namespace Config

structure Scan where
  includeExtensions : List String
  excludeFolders : List String
  /-- Files with more bytes are passed over. -/
  maxFileSize : Nat
deriving DecidableEq, Repr

structure Model where
  provider : String
  model : Option String
  baseUrl : Option String
  apiKey : Option String
  maxTokens : Nat
  apiVersion : Option String
deriving DecidableEq, Repr

structure Repository where
  apiUrl : String
  branch : String
  token : Option String
deriving DecidableEq, Repr

structure Output where
  folder : String
deriving DecidableEq, Repr

def userAgent : String := "docugen/0.1.0"

def projectFile : String := "docugen.toml"

def anthropicUrl : String := "https://api.anthropic.com/v1/messages"

def anthropicModel : String := "claude-sonnet-4-20250514"

def anthropicVersion : String := "2023-06-01"

def openAIUrl : String := "https://api.openai.com/v1"

def openAIModel : String := "gpt-4o"

def ollamaUrl : String := "http://localhost:11434/v1"

def ollamaModel : String := "llama3"

def defaultMaxTokens : Nat := 2000

namespace Scan

def standard : Scan where
  includeExtensions := ["ts", "js", "tsx", "jsx", "py", "java", "cpp", "c", "go"]
  excludeFolders := [".git", ".svn", ".hg", "node_modules", "vendor", "venv", ".venv", "__pycache__",
    "target", "build", "dist", "out", "coverage", ".next", ".cache"]
  maxFileSize := 1024 * 1024

/-- Extensions are compared without regard to the case of basic letters. -/
def includes (config : Scan) (path : String) : Bool :=
  match Path.extension? path with
  | some extension => config.includeExtensions.any (·.toLower == extension.toLower)
  | none => false

end Scan

namespace Model

def standard : Model where
  provider := "anthropic"
  model := none
  baseUrl := none
  apiKey := none
  maxTokens := defaultMaxTokens
  apiVersion := some anthropicVersion

/-- Picks a value by the provider's name as it is written; an unknown name counts as the last. -/
def byProvider {α : Type} (config : Model) (anthropic ollama other : α) : α :=
  if config.provider = "anthropic" ∨ config.provider = "claude" then anthropic
  else if config.provider = "ollama" then ollama
  else other

def modelOrDefault (config : Model) : String :=
  config.model.getD (config.byProvider anthropicModel ollamaModel openAIModel)

def baseUrlOrDefault (config : Model) : String :=
  config.baseUrl.getD (config.byProvider anthropicUrl ollamaUrl openAIUrl)

/-- The key of the configuration, else the one meant for this program, else the provider's own. -/
def apiKeyOrEnv (config : Model) (env : Environment) : Option String :=
  config.apiKey <|> env.get? "DOCUGEN_LLM_API_KEY" <|>
    config.byProvider (env.get? "ANTHROPIC_API_KEY") none (env.get? "OPENAI_API_KEY")

def isKeyless (config : Model) : Bool := config.provider == "ollama"

end Model

def Repository.standard : Repository where
  apiUrl := "https://api.github.com"
  branch := "main"
  token := none

def Output.standard : Output := ⟨"./docs"⟩

end Config

structure Config where
  scan : Config.Scan
  model : Config.Model
  repository : Config.Repository
  output : Config.Output
deriving DecidableEq, Repr

namespace Config

def standard : Config := ⟨.standard, .standard, .standard, .standard⟩

/-- What makes a configuration unusable. -/
inductive Defect where
  | noExtensions
  | noTokens
deriving DecidableEq, Repr

def Defect.message : Defect → String
  | noExtensions => "Invalid configuration: scan.include_extensions must not be empty"
  | noTokens => "Invalid configuration: llm.max_tokens must be greater than zero"

def defect? (config : Config) : Option Defect :=
  if config.scan.includeExtensions = [] then some .noExtensions
  else if config.model.maxTokens = 0 then some .noTokens
  else none

def isValid (config : Config) : Bool := (defect? config).isNone

theorem isValid_iff (config : Config) :
    config.isValid = true ↔ config.scan.includeExtensions ≠ [] ∧ 0 < config.model.maxTokens := by
  simp only [isValid, defect?]
  split
  · simp_all
  · split <;> simp_all [Nat.pos_iff_ne_zero]

end Config

end CodeOutline
