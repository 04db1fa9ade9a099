import CodeOutline.Config.Basic
import CodeOutline.Json.Record
import CodeOutline.Model.Basic
import CodeOutline.Text.Split

/-! Models behind a chat completions service, as OpenAI, Ollama and others offer it. -/

namespace CodeOutline.Model

structure Chat where
  baseUrl : String
  apiKey : String
  model : String
  maxTokens : Nat
deriving DecidableEq, Repr

namespace Chat

def make (baseUrl apiKey model : String) (maxTokens : Nat) : Chat :=
  ⟨Text.dropTrailing '/' baseUrl, apiKey, model, maxTokens⟩

def ofEnvironment (env : Environment) (maxTokens : Nat) : Chat :=
  make ((env.get? "DOCUGEN_LLM_BASE_URL").getD Config.openAIUrl)
    ((env.get? "DOCUGEN_LLM_API_KEY" <|> env.get? "OPENAI_API_KEY").getD "")
    ((env.get? "DOCUGEN_LLM_MODEL").getD Config.openAIModel) maxTokens

def url (c : Chat) : String := c.baseUrl ++ "/chat/completions"

/-- Services on the own machine work without a key. -/
def headers (c : Chat) : List (String × String) :=
  ("content-type", "application/json") ::
    (if c.apiKey = "" then [] else [("authorization", "Bearer " ++ c.apiKey)])

def body (c : Chat) (system : Option String) (prompt : String) : Json :=
  .record [("model", .ofText c.model),
    ("messages", .array ((system.map (message "system")).toList ++ [message "user" prompt])),
    ("max_tokens", .ofNat c.maxTokens)]

def messageText? (message : Json) : Option String := do
  match ← message.fields? ["role", "content"] with
  | [some role, some content] =>
    let _ ← role.text?
    content.text?
  | _ => none

def choiceText? (choice : Json) : Option String := do
  match ← choice.fields? ["message"] with
  | [some message] => messageText? message
  | _ => none

/-- The first of the choices; a reply without any is empty. -/
def replyText? (reply : Json) : Option String := do
  match ← reply.fields? ["choices"] with
  | [some choices] => return (← choices.list? choiceText?).headD ""
  | _ => none

def toModel (c : Chat) : Model where
  complete system prompt := do
    return readReply replyText? (← Http.request .post c.url c.headers (some (c.body system prompt)))

end Chat

end CodeOutline.Model
