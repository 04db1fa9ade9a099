import CodeOutline.Text.Split

/-! References to GitHub repositories, read from addresses. -/

namespace CodeOutline.Repository

structure Reference where
  owner : String
  name : String
deriving DecidableEq, Repr

namespace Reference

def display (r : Reference) : String := r.owner ++ "/" ++ r.name

def marker : List Char := "github.com/".toList

def gitSuffix : List Char := ".git".toList

/-- Removes one suffix if it is there. -/
def dropSuffix (suffix cs : List Char) : List Char :=
  if suffix.isSuffixOf cs then cs.take (cs.length - suffix.length) else cs

/-- The owner and the repository are the first two segments after the first `github.com/`; what comes
before them or follows does not matter. -/
def ofUrl? (url : String) : Option Reference := do
  let (_, rest) ← Text.cutText? marker url.toList
  match Text.splitAt '/' rest with
  | owner :: name :: _ =>
    let name := dropSuffix gitSuffix name
    if owner = [] ∨ name = [] then none
    else return ⟨String.ofList owner, String.ofList name⟩
  | _ => none

end Reference

end CodeOutline.Repository
