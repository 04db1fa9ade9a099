import CodeOutline.Config.Basic
import CodeOutline.Json.Record
import CodeOutline.Model.Basic

/-! Models behind the Messages service of Anthropic. -/

namespace CodeOutline.Model

structure Anthropic where
  apiKey : String
  url : String
  version : String
  model : String
  maxTokens : Nat
deriving DecidableEq, Repr

namespace Anthropic

def withKey (apiKey : String) : Anthropic :=
  ⟨apiKey, Config.anthropicUrl, Config.anthropicVersion, Config.anthropicModel, Config.defaultMaxTokens⟩

def ofEnvironment (env : Environment) : Except Failure Anthropic :=
  match env.get? "ANTHROPIC_API_KEY" with
  | some key => .ok (withKey key)
  | none => .error .missingKey

def headers (c : Anthropic) : List (String × String) :=
  [("x-api-key", c.apiKey), ("anthropic-version", c.version), ("content-type", "application/json")]

def body (c : Anthropic) (system : Option String) (prompt : String) : Json :=
  .record ([("model", .ofText c.model), ("max_tokens", .ofNat c.maxTokens)]
    ++ (system.map fun s => ("system", Json.ofText s)).toList
    ++ [("messages", .array [message "user" prompt])])

/-- The text of a block, empty unless it is a block of text. -/
def blockText? (block : Json) : Option String := do
  match ← block.fields? ["type", "text"] with
  | [some kind, text] =>
    let kind ← kind.text?
    let text ← match text with
      | some text => text.text?
      | none => some ""
    return if kind = "text" then text else ""
  | _ => none

def replyText? (reply : Json) : Option String := do
  match ← reply.fields? ["content"] with
  | [some blocks] => return String.join (← blocks.list? blockText?)
  | _ => none

def toModel (c : Anthropic) : Model where
  complete system prompt := do
    return readReply replyText? (← Http.request .post c.url c.headers (some (c.body system prompt)))

end Anthropic

end CodeOutline.Model
