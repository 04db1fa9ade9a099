import CodeOutline.Json.Basic
import CodeOutline.Text.Numeral

/-! Records read from JSON. A record is an object, in which unknown keys are passed over, or an array
of the record's fields in their order. -/

namespace CodeOutline.Json

def text? : Json → Option String
  | string s => s
  | _ => none

/-- Natural numbers are written with digits alone. -/
def nat? (limit : Nat) : Json → Option Nat
  | number numeral => (Text.numeral? 10 numeral.toList).filter (· < limit)
  | _ => none

def items? : Json → Option (List Json)
  | array items => some items
  | _ => none

def list? {α : Type} (read : Json → Option α) (j : Json) : Option (List α) := do
  (← items? j).mapM read

/-- The entries under a key; a key that denotes no text makes the record unreadable. -/
def valuesAt? (key : String) (entries : List (Option String × Json)) : Option (List Json) :=
  if entries.any (·.1.isNone) then none
  else some ((entries.filter (·.1 == some key)).map (·.2))

/-- The value of a field: none where it is missing. A field given twice makes the record unreadable. -/
def entry? (key : String) (entries : List (Option String × Json)) : Option (Option Json) := do
  match ← valuesAt? key entries with
  | [] => some none
  | [value] => some (some value)
  | _ => none

/-- The values of the fields named `keys`, in this order. -/
def fields? (keys : List String) : Json → Option (List (Option Json))
  | object entries => keys.mapM fun key => entry? key entries
  | array items =>
    if items.length ≤ keys.length then
      some (items.map some ++ List.replicate (keys.length - items.length) none)
    else none
  | _ => none

/-- A name from a fixed list is a string or an object with that single key and no value. -/
def name? : Json → Option String
  | string s => s
  | object [(key, null)] => key
  | _ => none

/-- An absent or empty field has no value; any other has to be readable. -/
def optional? {α : Type} (read : Json → Option α) : Option Json → Option (Option α)
  | none | some null => some none
  | some j => (read j).map some

end CodeOutline.Json
