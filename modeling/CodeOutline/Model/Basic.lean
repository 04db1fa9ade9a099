import CodeOutline.Http.Exchange

/-! Language models: something that answers a prompt, or fails to. -/

namespace CodeOutline

namespace Model

inductive Failure where
  | missingKey
  | status (code : Nat) (message : String)
  | unreadable
  | rateLimited
  | network
  | unknownProvider (name : String)
deriving DecidableEq, Repr

/-- The text of a failure, where it does not depend on how a library words it. -/
def Failure.message? : Failure → Option String
  | missingKey => some "Missing API key. Pass --api-key or set ANTHROPIC_API_KEY / DOCUGEN_LLM_API_KEY."
  | status code message => some ("API returned error: " ++ toString code ++ " - " ++ message)
  | unreadable => none
  | rateLimited => some "Rate limited. Try again later."
  | network => none
  | unknownProvider name => some ("Unknown provider: " ++ name)

end Model

/-- A model answers a prompt, which may come with instructions of its own. -/
structure Model where
  complete : Option String → String → Http.Online (Except Model.Failure String)

namespace Model

/-- A model that uses no network. -/
def ofFunction (reply : String → Except Failure String) : Model := ⟨fun _ prompt => pure (reply prompt)⟩

/-- The reading of a model service's response, given how the text is found in a successful one. -/
def readReply (text? : Json → Option String) : Option Http.Response → Except Failure String
  | none => .error .network
  | some response =>
    if response.status = 429 then .error .rateLimited
    else if !response.isSuccess then .error (.status response.status response.text)
    else
      match response.json?.bind text? with
      | some text => .ok text
      | none => .error .unreadable

def message (role content : String) : Json := .record [("role", .ofText role), ("content", .ofText content)]

end Model

end CodeOutline
