/-! UTF-8. Decoding keeps track of the places where the bytes are no text: each longest piece that
could have begun a character, or else a single byte, stands for one undecodable place. -/

namespace CodeOutline.Text.Utf8

/-- What the bytes read so far have left open. -/
inductive State where
  | between
  /-- Inside a character: its bits so far, the number of bytes that it lacks, and the range of the
  next of them. -/
  | inside (bits lacking first last : Nat)

def State.ofLead (b : Nat) : Option State :=
  if 0xC2 ≤ b ∧ b ≤ 0xDF then some (.inside (b % 0x20) 1 0x80 0xBF)
  else if b = 0xE0 then some (.inside 0 2 0xA0 0xBF)
  else if b = 0xED then some (.inside 0xD 2 0x80 0x9F)
  else if 0xE1 ≤ b ∧ b ≤ 0xEF then some (.inside (b % 0x10) 2 0x80 0xBF)
  else if b = 0xF0 then some (.inside 0 3 0x90 0xBF)
  else if 0xF1 ≤ b ∧ b ≤ 0xF3 then some (.inside (b % 8) 3 0x80 0xBF)
  else if b = 0xF4 then some (.inside 4 3 0x80 0x8F)
  else none

/-- Reads one byte between characters. -/
def readLead (decoded : List (Option Char)) (b : Nat) : State × List (Option Char) :=
  if b < 0x80 then (.between, some (Char.ofNat b) :: decoded)
  else
    match State.ofLead b with
    | some state => (state, decoded)
    | none => (.between, none :: decoded)

def readByte (state : State) (decoded : List (Option Char)) (b : Nat) : State × List (Option Char) :=
  match state with
  | .between => readLead decoded b
  | .inside bits lacking first last =>
    if first ≤ b ∧ b ≤ last then
      let bits := bits * 0x40 + b % 0x40
      if lacking ≤ 1 then (.between, some (Char.ofNat bits) :: decoded)
      else (.inside bits (lacking - 1) 0x80 0xBF, decoded)
    else readLead (none :: decoded) b

/-- `decoded` holds what is decoded so far, the last character first. -/
def decodeFrom (state : State) (decoded : List (Option Char)) : List UInt8 → List (Option Char)
  | [] =>
    match state with
    | .between => decoded.reverse
    | .inside .. => (none :: decoded).reverse
  | b :: rest =>
    let (state, decoded) := readByte state decoded b.toNat
    decodeFrom state decoded rest

/-- The characters of the bytes, `none` for each place that holds none. -/
def decode (bytes : List UInt8) : List (Option Char) := decodeFrom .between [] bytes

def decodeStrict? (bytes : List UInt8) : Option (List Char) := (decode bytes).mapM id

/-- Puts the replacement character wherever the bytes are no text. -/
def decodeLossy (bytes : List UInt8) : List Char := (decode bytes).map (·.getD '\uFFFD')

def encode (s : String) : List UInt8 := s.toUTF8.toList

def encodeChars (cs : List Char) : List UInt8 := encode (String.ofList cs)

end CodeOutline.Text.Utf8
