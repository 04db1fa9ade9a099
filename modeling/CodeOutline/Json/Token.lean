import CodeOutline.Text.Numeral

/-! The tokens of JSON text, read one character at a time. A character may be missing where the text
could not be decoded; that is allowed inside strings only. -/

namespace CodeOutline.Json

open Text

inductive Token where
  | openBrace
  | closeBrace
  | openBracket
  | closeBracket
  | colon
  | comma
  | null
  | bool (value : Bool)
  | number (numeral : String)
  | string (value : Option String)
deriving DecidableEq, Repr

/-- A string that is being read: its characters so far, the last one first, unless it is already
known to denote no text, and the first half of a surrogate pair that waits for its second. -/
structure Partial where
  chars : Option (List Char)
  high : Option Nat

namespace Partial

def blank : Partial := ⟨some [], none⟩

def settle (p : Partial) : Partial := if p.high.isSome then ⟨none, none⟩ else p

def push (p : Partial) (c : Option Char) : Partial :=
  let p := p.settle
  ⟨do return (← c) :: (← p.chars), none⟩

/-- Adds a code unit written as an escape. Two surrogates in the right order make one character. -/
def pushUnit (p : Partial) (unit : Nat) : Partial :=
  match p.high with
  | some high =>
    if 0xDC00 ≤ unit ∧ unit ≤ 0xDFFF then
      (⟨p.chars, none⟩ : Partial).push (Char.ofNat (0x10000 + (high - 0xD800) * 0x400 + (unit - 0xDC00)))
    else ⟨none, none⟩
  | none =>
    if 0xD800 ≤ unit ∧ unit ≤ 0xDBFF then ⟨p.chars, some unit⟩
    else if 0xDC00 ≤ unit ∧ unit ≤ 0xDFFF then ⟨none, none⟩
    else p.push (Char.ofNat unit)

def value (p : Partial) : Option String := p.settle.chars.map fun cs => String.ofList cs.reverse

end Partial

inductive LexState where
  | between
  | word (letters : List Char)
  | number (chars : List Char)
  | string (content : Partial)
  | escape (content : Partial)
  | unicode (content : Partial) (digits : List Nat)

def isSpace (c : Char) : Bool := c == ' ' || c == '\t' || c == '\n' || c == '\r'

def isNumberChar (c : Char) : Bool := c.isDigit || "+-.eE".toList.contains c

def dropDigits (cs : List Char) : List Char := cs.dropWhile Char.isDigit

def startsWithDigit (cs : List Char) : Bool := cs.head?.any Char.isDigit

def isExponent : List Char → Bool
  | [] => true
  | 'e' :: '+' :: cs | 'e' :: '-' :: cs | 'E' :: '+' :: cs | 'E' :: '-' :: cs | 'e' :: cs | 'E' :: cs =>
    startsWithDigit cs && (dropDigits cs).isEmpty
  | _ => false

def isFraction : List Char → Bool
  | '.' :: cs => startsWithDigit cs && isExponent (dropDigits cs)
  | cs => isExponent cs

/-- Numbers have no leading zeros and no plus sign. -/
def isNumeral (cs : List Char) : Bool :=
  let unsigned := match cs with
    | '-' :: rest => rest
    | _ => cs
  match unsigned with
  | '0' :: rest => isFraction rest
  | _ => startsWithDigit unsigned && isFraction (dropDigits unsigned)

def Token.ofWord? (letters : List Char) : Option Token :=
  if letters = "null".toList then some null
  else if letters = "true".toList then some (bool true)
  else if letters = "false".toList then some (bool false)
  else none

def Token.ofMark? : Char → Option Token
  | '\x7b' => some openBrace
  | '\x7d' => some closeBrace
  | '[' => some openBracket
  | ']' => some closeBracket
  | ':' => some colon
  | ',' => some comma
  | _ => none

/-- Reads a character where no token is open. -/
def readBetween (tokens : List Token) (c : Char) : Option (LexState × List Token) :=
  if isSpace c then some (.between, tokens)
  else if c = '"' then some (.string .blank, tokens)
  else if c.isLower then some (.word [c], tokens)
  else if c.isDigit || c == '-' then some (.number [c], tokens)
  else (Token.ofMark? c).map fun token => (.between, token :: tokens)

def shortEscape? : Char → Option Char
  | '"' => some '"'
  | '\\' => some '\\'
  | '/' => some '/'
  | 'b' => some (Char.ofNat 8)
  | 'f' => some (Char.ofNat 12)
  | 'n' => some '\n'
  | 'r' => some '\r'
  | 't' => some '\t'
  | _ => none

/-- Closes a token that ends only where something else begins. -/
def closeToken : LexState → List Token → Option (List Token)
  | .between, tokens => some tokens
  | .word letters, tokens => (Token.ofWord? letters.reverse).map (· :: tokens)
  | .number chars, tokens =>
    if isNumeral chars.reverse then some (.number (String.ofList chars.reverse) :: tokens) else none
  | _, _ => none

def readString (content : Partial) (tokens : List Token) : Option Char → Option (LexState × List Token)
  | none => some (.string (content.push none), tokens)
  | some c =>
    if c = '"' then some (.between, .string content.value :: tokens)
    else if c = '\\' then some (.escape content, tokens)
    else if c.toNat < 0x20 then none
    else some (.string (content.push c), tokens)

def readChar (state : LexState) (tokens : List Token) (x : Option Char) : Option (LexState × List Token) :=
  match state, x with
  | .string content, x => readString content tokens x
  | _, none => none
  | .between, some c => readBetween tokens c
  | .word letters, some c =>
    if c.isLower then some (.word (c :: letters), tokens)
    else do readBetween (← closeToken state tokens) c
  | .number chars, some c =>
    if isNumberChar c then some (.number (c :: chars), tokens)
    else do readBetween (← closeToken state tokens) c
  | .escape content, some c =>
    if c = 'u' then some (.unicode content [], tokens)
    else (shortEscape? c).map fun e => (.string (content.push e), tokens)
  | .unicode content digits, some c => do
    let digits := digits ++ [← hexDigit? c]
    if digits.length < 4 then some (.unicode content digits, tokens)
    else some (.string (content.pushUnit (digitsValue 16 digits)), tokens)

/-- `tokens` holds the tokens read so far, the last one first. -/
def tokensFrom (state : LexState) (tokens : List Token) : List (Option Char) → Option (List Token)
  | [] => (closeToken state tokens).map List.reverse
  | x :: rest =>
    match readChar state tokens x with
    | some (state, tokens) => tokensFrom state tokens rest
    | none => none

def tokens? (text : List (Option Char)) : Option (List Token) := tokensFrom .between [] text

end CodeOutline.Json
