/-! Decimal numerals. -/

namespace CodeOutline.Text

def digitsValue (base : Nat) (digits : List Nat) : Nat := digits.foldl (fun n d => base * n + d) 0

def hexDigit? (c : Char) : Option Nat :=
  if c.isDigit then some (c.toNat - '0'.toNat)
  else if 'a' ≤ c ∧ c ≤ 'f' then some (c.toNat - 'a'.toNat + 10)
  else if 'A' ≤ c ∧ c ≤ 'F' then some (c.toNat - 'A'.toNat + 10)
  else none

def digit? (base : Nat) (c : Char) : Option Nat := (hexDigit? c).filter (· < base)

/-- The value of one or more digits. -/
def numeral? (base : Nat) (cs : List Char) : Option Nat :=
  if cs = [] then none else (cs.mapM (digit? base)).map (digitsValue base)

/-- A numeral below `limit`; one plus sign may stand before it. -/
def unsigned? (limit : Nat) (cs : List Char) : Option Nat :=
  let digits := match cs with
    | '+' :: rest => rest
    | _ => cs
  (numeral? 10 digits).filter (· < limit)

def hexChar (n : Nat) : Char := "0123456789abcdef".toList.getD n '0'

end CodeOutline.Text
