import CodeOutline.Model.Anthropic
import CodeOutline.Model.Chat
import CodeOutline.Text.Lowercase

/-! Providers of language models, chosen by the configuration. -/

namespace CodeOutline.Model

inductive Provider where
  | anthropic (apiKey model baseUrl : Option String) (maxTokens : Nat)
  | openAI (baseUrl apiKey model : Option String) (maxTokens : Nat)
  | ollama (baseUrl : Option String) (model : String) (maxTokens : Nat)
deriving DecidableEq, Repr

namespace Provider

/-- The provider's name counts in any case. -/
def ofConfig (config : Config.Model) (env : Environment) : Except Failure Provider :=
  let name := Text.lower config.provider
  if name = "anthropic" ∨ name = "claude" then
    .ok (.anthropic (config.apiKeyOrEnv env) config.model config.baseUrl config.maxTokens)
  else if name = "openai" then
    .ok (.openAI config.baseUrl (config.apiKeyOrEnv env) config.model config.maxTokens)
  else if name = "ollama" then
    .ok (.ollama config.baseUrl (config.model.getD Config.ollamaModel) config.maxTokens)
  else .error (.unknownProvider name)

/-- The address of a service of this machine: the configured one, else the one of the environment. -/
def ollamaUrl (baseUrl : Option String) (env : Environment) : String :=
  (baseUrl <|> (env.get? "OLLAMA_HOST").map fun host => Text.dropTrailing '/' host ++ "/v1").getD Config.ollamaUrl

inductive Client where
  | anthropic (client : Anthropic)
  | chat (client : Chat)
deriving DecidableEq, Repr

def Client.toModel : Client → Model
  | .anthropic client => client.toModel
  | .chat client => client.toModel

def client (p : Provider) (env : Environment) : Except Failure Client :=
  match p with
  | anthropic none _ _ _ => .error .missingKey
  | anthropic (some key) model baseUrl maxTokens =>
    .ok (.anthropic { Anthropic.withKey key with
      model := model.getD Config.anthropicModel
      url := baseUrl.getD Config.anthropicUrl
      maxTokens })
  | openAI _ none _ _ => .error .missingKey
  | openAI baseUrl (some key) model maxTokens =>
    .ok (.chat (Chat.make (baseUrl.getD Config.openAIUrl) key (model.getD Config.openAIModel) maxTokens))
  | ollama baseUrl model maxTokens => .ok (.chat (Chat.make (ollamaUrl baseUrl env) "" model maxTokens))

end Provider

end CodeOutline.Model
