import CodeOutline.Config.Reader
import CodeOutline.Text.Utf8

/-! The configuration of a run: one file or, where there is none, the standard values, and the variables
of the environment over either. -/

namespace CodeOutline.Config

def tokenLimit : Nat := UInt32.size

def override (env : Environment) (name : String) (value : String) : String := (env.get? name).getD value

def overrideSome (env : Environment) (name : String) (value : Option String) : Option String :=
  env.get? name <|> value

/-- A number of tokens that cannot be read changes nothing. -/
def overrideTokens (env : Environment) (value : Nat) : Nat :=
  ((env.get? "DOCUGEN_LLM_MAX_TOKENS").bind fun s => Text.unsigned? tokenLimit s.toList).getD value

def applyEnvironment (env : Environment) (config : Config) : Config where
  scan := config.scan
  model := { config.model with
    provider := override env "DOCUGEN_LLM_PROVIDER" config.model.provider
    model := overrideSome env "DOCUGEN_LLM_MODEL" config.model.model
    baseUrl := overrideSome env "DOCUGEN_LLM_BASE_URL" config.model.baseUrl
    apiKey := overrideSome env "DOCUGEN_LLM_API_KEY" config.model.apiKey
    maxTokens := overrideTokens env config.model.maxTokens }
  repository := { config.repository with
    branch := override env "DOCUGEN_GITHUB_BRANCH" config.repository.branch
    token := overrideSome env "GITHUB_TOKEN" config.repository.token }
  output := ⟨override env "DOCUGEN_OUTPUT_DIR" config.output.folder⟩

def readText (d : Disk) (path : String) : Except Disk.Failure String := do
  match Text.Utf8.decodeStrict? (← d.read path) with
  | some cs => return String.ofList cs
  | none => .error .notText

def ofFile (d : Disk) (env : Environment) (path : String) : Except Failure Config :=
  match readText d path with
  | .error cause => .error (.unreadable cause)
  | .ok text => (ofToml text).map (applyEnvironment env)

/-- The folder of the user's settings. A relative one is not accepted. -/
def userFolder? (env : Environment) : Option String :=
  match (env.get? "XDG_CONFIG_HOME").filter Path.isAbsolute with
  | some folder => some folder
  | none => (env.get? "HOME").map (Path.join · ".config")

def userFile? (env : Environment) : Option String :=
  (userFolder? env).map fun folder => Path.join (Path.join folder "docugen") "config.toml"

/-- The file that is used: the project's, else the user's, else none. -/
def chosenFile? (d : Disk) (env : Environment) : Option String :=
  if d.exists? projectFile then some projectFile else (userFile? env).filter d.exists?

def load (d : Disk) (env : Environment) : Except Failure Config :=
  match chosenFile? d env with
  | some path => ofFile d env path
  | none => .ok (applyEnvironment env .standard)

end CodeOutline.Config
