import CodeOutline.Proofs.CommandLine.Spelling
import CodeOutline.Proofs.Repository.Requests

/-! A service of this machine is told nothing but what it has to be told: its requests are made from the address, the
model, the number of tokens and the prompt. -/

namespace CodeOutline

namespace Http.Request

end Http.Request

namespace Model

section

variable {text? : Json → Option String} {method : Http.Method} {address : String} {headers : List (String × String)}
  {body : Option Json} {network : Http.Network} {past : List Http.Exchange}

lemma readReply_request_of_none (h : Http.Request.make? method address headers body = none) :
    (Http.request method address headers body >>= fun response => pure (readReply text? response)) network past =
      (.error .network, past) := by
  rw [Http.Online.bind_of_eq (Http.request_eq_of_none h)]
  rfl

lemma readReply_request_of_some {r : Http.Request} (h : Http.Request.make? method address headers body = some r) :
    (Http.request method address headers body >>= fun response => pure (readReply text? response)) network past =
      (readReply text? (network past r).response?, past ++ [network.exchange past r]) := by
  rw [Http.Online.bind_of_eq (Http.request_eq_of_some h)]
  rfl

end

namespace Chat

variable {c : Chat} {system : Option String} {prompt : String} {network : Http.Network} {past : List Http.Exchange}

end Chat

/-- What a service of this machine is told, besides the prompt. -/
structure Told where
  baseUrl : Option String
  host : Option String
  model : Option String
  maxTokens : Nat
deriving DecidableEq

namespace Told

def ofConfig (config : Config.Model) (env : Environment) : Told :=
  ⟨config.baseUrl, env.get? "OLLAMA_HOST", config.model, config.maxTokens⟩

/-- The configured address, else the one of the environment, else the usual one. -/
def address (told : Told) : String :=
  Text.dropTrailing '/' <| match told.baseUrl, told.host with
    | some url, _ => url
    | none, some host => Text.dropTrailing '/' host ++ "/v1"
    | none, none => Config.ollamaUrl

def messages (system : Option String) (prompt : String) : List Json :=
  match system with
  | some system => [message "system" system, message "user" prompt]
  | none => [message "user" prompt]

def body (told : Told) (system : Option String) (prompt : String) : Json :=
  .record [("model", .ofText (told.model.getD Config.ollamaModel)), ("messages", .array (messages system prompt)),
    ("max_tokens", .ofNat told.maxTokens)]

def chat (told : Told) : Chat := ⟨told.address, "", told.model.getD Config.ollamaModel, told.maxTokens⟩

end Told

namespace Provider

variable {config : Config.Model} {env : Environment}

end Provider

end Model

end CodeOutline
