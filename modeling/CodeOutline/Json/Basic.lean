/-! JSON values. Numbers keep the text that they are written with, and objects the order of their
entries. -/

namespace CodeOutline

inductive Json where
  | null
  | bool (value : Bool)
  | number (numeral : String)
  /-- A string whose escapes or bytes denote no text has no value. -/
  | string (value : Option String)
  | array (items : List Json)
  | object (entries : List (Option String × Json))

namespace Json

def ofText (s : String) : Json := string (some s)

def ofNat (n : Nat) : Json := number (toString n)

def record (entries : List (String × Json)) : Json := object (entries.map fun e => (some e.1, e.2))

end Json

end CodeOutline
