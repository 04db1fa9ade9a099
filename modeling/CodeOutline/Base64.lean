/-! The standard base64 alphabet with padding. Decoding is strict: it accepts exactly the texts that
encoding produces, and tells of any other where it goes wrong. -/

namespace CodeOutline.Base64

def alphabet : List Char :=
  "ABCDEFGHIJKLMNOPQRSTUVWXYZabcdefghijklmnopqrstuvwxyz0123456789+/".toList

def symbol (value : Nat) : UInt8 := (alphabet.getD value 'A').toNat.toUInt8

def value? (b : UInt8) : Option Nat :=
  let c := b.toNat
  if 0x41 ≤ c ∧ c ≤ 0x5A then some (c - 0x41)
  else if 0x61 ≤ c ∧ c ≤ 0x7A then some (c - 0x61 + 26)
  else if 0x30 ≤ c ∧ c ≤ 0x39 then some (c - 0x30 + 52)
  else if c = 0x2B then some 62
  else if c = 0x2F then some 63
  else none

def pad : UInt8 := 0x3D

def encode : List UInt8 → List UInt8
  | [] => []
  | [a] => [symbol (a.toNat / 4), symbol (a.toNat % 4 * 16), pad, pad]
  | [a, b] =>
    [symbol (a.toNat / 4), symbol (a.toNat % 4 * 16 + b.toNat / 16), symbol (b.toNat % 16 * 4), pad]
  | a :: b :: c :: rest =>
    symbol (a.toNat / 4) :: symbol (a.toNat % 4 * 16 + b.toNat / 16) ::
      symbol (b.toNat % 16 * 4 + c.toNat / 64) :: symbol (c.toNat % 64) :: encode rest

inductive Flaw where
  | symbol (byte : UInt8) (offset : Nat)
  | length (symbols : Nat)
  | padding
  /-- The bits of the last symbol that no byte takes up are not zero. -/
  | lastSymbol (byte : UInt8) (offset : Nat)
deriving DecidableEq, Repr

def Flaw.message : Flaw → String
  | symbol byte offset => "Invalid symbol " ++ toString byte.toNat ++ ", offset " ++ toString offset ++ "."
  | length symbols => "Invalid input length: " ++ toString symbols
  | padding => "Invalid padding"
  | lastSymbol byte offset =>
    "Invalid last symbol " ++ toString byte.toNat ++ ", offset " ++ toString offset ++ "."

def valueAt (offset : Nat) (b : UInt8) : Except Flaw Nat :=
  match value? b with
  | some v => .ok v
  | none => .error (.symbol b offset)

/-- The values of the symbols of the last group. Once padding has begun, nothing else may follow. -/
def lastValues (offset index : Nat) (padFrom : Option Nat) : List UInt8 → Except Flaw (List Nat)
  | [] => .ok []
  | b :: rest =>
    if b = pad then
      if index < 2 then .error (.symbol pad (offset + index))
      else lastValues offset (index + 1) (some (padFrom.getD (offset + index))) rest
    else
      match padFrom with
      | some first => .error (.symbol pad first)
      | none => do
        let v ← valueAt (offset + index) b
        return v :: (← lastValues offset (index + 1) none rest)

/-- Decodes the last group, which has at most four bytes. -/
def decodeLast (offset : Nat) (group : List UInt8) : Except Flaw (List UInt8) := do
  match ← lastValues offset 0 none group with
  | [] => if group = [] then return [] else .error (.length offset)
  | [_] => .error (.length (offset + 1))
  | [a, b] =>
    if group.length ≠ 4 then .error .padding
    else if b % 16 ≠ 0 then .error (.lastSymbol (group.getD 1 pad) (offset + 1))
    else return [(a * 4 + b / 16).toUInt8]
  | [a, b, c] =>
    if group.length ≠ 4 then .error .padding
    else if c % 4 ≠ 0 then .error (.lastSymbol (group.getD 2 pad) (offset + 2))
    else return [(a * 4 + b / 16).toUInt8, (b % 16 * 16 + c / 4).toUInt8]
  | a :: b :: c :: d :: _ =>
    return [(a * 4 + b / 16).toUInt8, (b % 16 * 16 + c / 4).toUInt8, (c % 4 * 64 + d).toUInt8]

/-- `decoded` holds the bytes decoded so far, the last one first. -/
def decodeFrom (decoded : List UInt8) (offset : Nat) : List UInt8 → Except Flaw (List UInt8)
  | b₀ :: b₁ :: b₂ :: b₃ :: b₄ :: rest => do
    let a ← valueAt offset b₀
    let b ← valueAt (offset + 1) b₁
    let c ← valueAt (offset + 2) b₂
    let d ← valueAt (offset + 3) b₃
    decodeFrom ((c % 4 * 64 + d).toUInt8 :: (b % 16 * 16 + c / 4).toUInt8 :: (a * 4 + b / 16).toUInt8 :: decoded)
      (offset + 4) (b₄ :: rest)
  | group => do return decoded.reverse ++ (← decodeLast offset group)

/-- A single byte after the last full group is judged first. -/
def decode (bytes : List UInt8) : Except Flaw (List UInt8) :=
  match bytes.getLast? with
  | none => .ok []
  | some last =>
    if bytes.length % 4 = 1 ∧ last ≠ pad ∧ value? last = none then
      .error (.symbol last (bytes.length - 1))
    else decodeFrom [] 0 bytes

end CodeOutline.Base64
