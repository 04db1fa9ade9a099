import CodeOutline.Toml.Basic
import CodeOutline.Text.Numeral

/-! Numbers, truth values and moments in time of TOML. -/

namespace CodeOutline.Toml

open Text

/-! ## Integers -/

/-- Digits, with single underscores between them. -/
def spacedDigits? (base : Nat) : List Char → Option (List Nat)
  | [] => none
  | [c] => (digit? base c).map ([·])
  | c :: '_' :: rest => do return (← digit? base c) :: (← spacedDigits? base rest)
  | c :: rest => do return (← digit? base c) :: (← spacedDigits? base rest)

/-- Decimal digits without a leading zero. -/
def plainDigits? (cs : List Char) : Option (List Nat) := do
  let digits ← spacedDigits? 10 cs
  match digits with
  | 0 :: _ :: _ => none
  | _ => return digits

def splitSign : List Char → Bool × List Char
  | '-' :: rest => (true, rest)
  | '+' :: rest => (false, rest)
  | cs => (false, cs)

def inRange? (i : Int) : Option Int := if Int64.minValue.toInt ≤ i ∧ i ≤ Int64.maxValue.toInt then some i else none

def integer? (cs : List Char) : Option Int := do
  match cs with
  | '0' :: 'x' :: rest => inRange? (digitsValue 16 (← spacedDigits? 16 rest))
  | '0' :: 'o' :: rest => inRange? (digitsValue 8 (← spacedDigits? 8 rest))
  | '0' :: 'b' :: rest => inRange? (digitsValue 2 (← spacedDigits? 2 rest))
  | _ =>
    let (negative, rest) := splitSign cs
    let n := digitsValue 10 (← plainDigits? rest)
    inRange? (if negative then -n else n)

/-! ## Floats -/

/-- The least value that is rounded to infinity. -/
def overflow : Nat := 0x3FFFFFFFFFFFFF <<< 970

/-- Whether the number with these digits, of which `places` stand behind the point, times ten to the
power of `exponent` is too large for a float. The first test settles the huge exponents. -/
def overflows (digits : List Nat) (places : Nat) (exponent : Int) : Bool :=
  let m := digitsValue 10 digits
  let scale := exponent - places
  if m = 0 then false
  else if scale > 400 then true
  else if scale + digits.length < 300 then false
  else if scale ≥ 0 then m * Nat.pow 10 scale.toNat ≥ overflow
  else m ≥ overflow * Nat.pow 10 (-scale).toNat

/-- The whole part, the digits behind the point if there is one, and the exponent if there is one. -/
def floatParts (cs : List Char) : List Char × Option (List Char) × Option (List Char) :=
  let isMark (c : Char) : Bool := c == 'e' || c == 'E'
  let number := cs.takeWhile (!isMark ·)
  let exponent := match cs.drop number.length with
    | _ :: exponent => some exponent
    | [] => none
  let whole := number.takeWhile (· != '.')
  let places := match number.drop whole.length with
    | _ :: places => some places
    | [] => none
  (whole, places, exponent)

/-- Whether a text is a float. Only a positive one has to be small enough. -/
def isFloat (cs : List Char) : Bool :=
  let (negative, unsigned) := splitSign cs
  if unsigned = "inf".toList ∨ unsigned = "nan".toList then true
  else
    let (whole, places, exponent) := floatParts unsigned
    if places.isNone ∧ exponent.isNone then false
    else
      let (negativeExponent, exponentDigits) := splitSign (exponent.getD ['0'])
      match plainDigits? whole, spacedDigits? 10 (places.getD ['0']), spacedDigits? 10 exponentDigits with
      | some whole, some behind, some power =>
        let behind := if places.isNone then [] else behind
        let power : Int := digitsValue 10 power
        negative || !overflows (whole ++ behind) behind.length (if negativeExponent then -power else power)
      | _, _, _ => false

/-! ## Moments -/

/-- A number of exactly two digits, at most `most`. -/
def twoDigits? (most : Nat) : List Char → Option (Nat × List Char)
  | a :: b :: rest => do
    let n := 10 * (← digit? 10 a) + (← digit? 10 b)
    if n ≤ most then return (n, rest) else none
  | _ => none

def mark? (mark : Char) : List Char → Option (List Char)
  | c :: rest => if c = mark then some rest else none
  | [] => none

def isLeapYear (year : Nat) : Bool := year % 4 == 0 && (year % 100 != 0 || year % 400 == 0)

def daysIn (year month : Nat) : Nat :=
  if month = 2 then if isLeapYear year then 29 else 28
  else if month = 4 ∨ month = 6 ∨ month = 9 ∨ month = 11 then 30
  else 31

def date? (cs : List Char) : Option (List Char) := do
  let (century, cs) ← twoDigits? 99 cs
  let (year, cs) ← twoDigits? 99 cs
  let (month, cs) ← twoDigits? 12 (← mark? '-' cs)
  let (day, cs) ← twoDigits? 31 (← mark? '-' cs)
  if 1 ≤ month ∧ 1 ≤ day ∧ day ≤ daysIn (century * 100 + year) month then return cs else none

def fraction? : List Char → Option (List Char)
  | '.' :: cs => if cs.head?.any Char.isDigit then some (cs.dropWhile Char.isDigit) else none
  | cs => some cs

/-- A minute may have a leap second. -/
def time? (cs : List Char) : Option (List Char) := do
  let (_, cs) ← twoDigits? 23 cs
  let (_, cs) ← twoDigits? 59 (← mark? ':' cs)
  let (_, cs) ← twoDigits? 60 (← mark? ':' cs)
  fraction? cs

def isOffset (cs : List Char) : Bool :=
  match cs with
  | [] => true
  | [c] => c == 'Z' || c == 'z'
  | c :: rest =>
    (c == '+' || c == '-') && (do
      let (_, rest) ← twoDigits? 23 rest
      let (_, rest) ← twoDigits? 59 (← mark? ':' rest)
      return rest) == some []

def isTime (cs : List Char) : Bool := time? cs == some []

def isTimeWithOffset (cs : List Char) : Bool := (time? cs).any isOffset

def isDate (cs : List Char) : Bool := date? cs == some []

def isMoment (cs : List Char) : Bool :=
  isTime cs ||
    match date? cs with
    | some [] => true
    | some (c :: rest) => (c == 'T' || c == 't' || c == ' ') && isTimeWithOffset rest
    | none => false

def scalarValue? (cs : List Char) : Option Value :=
  if cs = "true".toList then some (.bool true)
  else if cs = "false".toList then some (.bool false)
  else if isMoment cs then some .moment
  else if isFloat cs then some .float
  else (integer? cs).map .integer

end CodeOutline.Toml
