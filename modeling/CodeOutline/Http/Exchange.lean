import CodeOutline.Http.Url
import CodeOutline.Json.Reader
import CodeOutline.Text.Utf16

/-! Requests, responses and the network between them. The network may answer by what was asked before,
so a conversation is kept as the list of its exchanges. -/

namespace CodeOutline.Http

open Text

inductive Method where
  | get
  | post
deriving DecidableEq, Repr

structure Request where
  method : Method
  url : Url
  headers : List (String × String)
  body : Option Json

structure Response where
  status : Nat
  body : List UInt8
deriving DecidableEq

inductive Outcome where
  /-- Nothing arrived at any server. -/
  | unreachable
  /-- The request arrived, and the connection was closed without an answer. -/
  | dropped
  | answered (response : Response)
deriving DecidableEq

structure Exchange where
  request : Request
  outcome : Outcome

/-- What becomes of a request after the exchanges before it. -/
abbrev Network := List Exchange → Request → Outcome

def Network.offline : Network := fun _ _ => .unreachable

/-- A computation that may use the network and adds to the conversation. -/
abbrev Online (α : Type) := Network → List Exchange → α × List Exchange

namespace Online

def pure {α : Type} (a : α) : Online α := fun _ past => (a, past)

def bind {α β : Type} (x : Online α) (f : α → Online β) : Online β := fun network past =>
  let (a, past) := x network past
  f a network past

instance : Monad Online where
  pure := Online.pure
  bind := Online.bind

theorem bind_of_eq {α β : Type} {x : Online α} {f : α → Online β} {network : Network} {past next : List Exchange}
    {a : α} (h : x network past = (a, next)) : (x >>= f) network past = f a network next := by
  change f (x network past).1 network (x network past).2 = _
  rw [h]

def send (request : Request) : Online Outcome := fun network past =>
  let outcome := network past request
  (outcome, past ++ [⟨request, outcome⟩])

end Online

namespace Request

/-- Header values hold no control characters other than the tab. -/
def isHeaderValue (s : String) : Bool := s.toList.all fun c => c == '\t' || (0x20 ≤ c.toNat && c.toNat != 0x7F)

/-- There is no request where the address or a header cannot be written. -/
def make? (method : Method) (address : String) (headers : List (String × String)) (body : Option Json) :
    Option Request := do
  let url ← Url.parse? address
  if headers.all fun h => isHeaderValue h.2 then return ⟨method, url, headers, body⟩ else none

def target (r : Request) : String := r.url.target

end Request

namespace Response

def isSuccess (r : Response) : Bool := 200 ≤ r.status && r.status ≤ 299

/-- Two statuses forbid a body. -/
def content (r : Response) : List UInt8 := if r.status = 204 ∨ r.status = 304 then [] else r.body

/-- The content as text. A byte order mark decides how it is encoded; without one it is UTF-8. -/
def text (r : Response) : String :=
  String.ofList <| match r.content with
    | 0xEF :: 0xBB :: 0xBF :: rest => Utf8.decodeLossy rest
    | 0xFF :: 0xFE :: rest => Utf16.decodeLossy true rest
    | 0xFE :: 0xFF :: rest => Utf16.decodeLossy false rest
    | bytes => Utf8.decodeLossy bytes

def json? (r : Response) : Option Json := Json.ofBytes? r.content

end Response

/-- Sends a request, if one can be written, and gives the response, if one arrives. -/
def request (method : Method) (address : String) (headers : List (String × String)) (body : Option Json) :
    Online (Option Response) :=
  match Request.make? method address headers body with
  | none => pure none
  | some r => do
    match ← Online.send r with
    | .answered response => return some response
    | _ => return none

end CodeOutline.Http
