/-! UTF-16 in either byte order. Halves of surrogate pairs that stand alone, and a byte left over at
the end, become replacement characters. -/

namespace CodeOutline.Text.Utf16

def units (littleEndian : Bool) : List UInt8 → List (Option Nat)
  | [] => []
  | [_] => [none]
  | a :: b :: rest =>
    let unit := if littleEndian then b.toNat * 256 + a.toNat else a.toNat * 256 + b.toNat
    some unit :: units littleEndian rest

def isHigh (unit : Nat) : Bool := decide (0xD800 ≤ unit ∧ unit ≤ 0xDBFF)

def isLow (unit : Nat) : Bool := decide (0xDC00 ≤ unit ∧ unit ≤ 0xDFFF)

def replacement : Char := '\uFFFD'

def charsOf : List (Option Nat) → List Char
  | [] => []
  | none :: rest => replacement :: charsOf rest
  | [some unit] => [if isHigh unit || isLow unit then replacement else Char.ofNat unit]
  | some unit :: some following :: rest =>
    if isHigh unit && isLow following then
      Char.ofNat (0x10000 + (unit - 0xD800) * 0x400 + (following - 0xDC00)) :: charsOf rest
    else
      (if isHigh unit || isLow unit then replacement else Char.ofNat unit) :: charsOf (some following :: rest)
  | some unit :: none :: rest =>
    if isHigh unit then replacement :: charsOf rest
    else (if isLow unit then replacement else Char.ofNat unit) :: replacement :: charsOf rest

def decodeLossy (littleEndian : Bool) (bytes : List UInt8) : List Char := charsOf (units littleEndian bytes)

end CodeOutline.Text.Utf16
