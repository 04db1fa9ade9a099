import CodeOutline.Json.Basic
import CodeOutline.Text.Numeral

/-! JSON values as indented text. -/

namespace CodeOutline.Json

open Text

/-- Only quotes, backslashes and control characters are escaped. -/
def escapeChar (c : Char) : List Char :=
  if c = '"' then ['\\', '"']
  else if c = '\\' then ['\\', '\\']
  else if c = '\n' then ['\\', 'n']
  else if c = '\r' then ['\\', 'r']
  else if c = '\t' then ['\\', 't']
  else if c.toNat = 8 then ['\\', 'b']
  else if c.toNat = 12 then ['\\', 'f']
  else if c.toNat < 0x20 then
    ['\\', 'u', '0', '0', hexChar (c.toNat / 16), hexChar (c.toNat % 16)]
  else [c]

def quoted (cs : List Char) : List Char := '"' :: cs.flatMap escapeChar ++ ['"']

def quotedText (s : Option String) : List Char := quoted (s.getD "").toList

/-- A new line with two blanks for each level of depth. -/
def newLine (depth : Nat) : List Char := '\n' :: List.replicate (2 * depth) ' '

mutual

def prettyChars (depth : Nat) : Json → List Char
  | null => "null".toList
  | bool b => if b then "true".toList else "false".toList
  | number numeral => numeral.toList
  | string s => quotedText s
  | array [] => ['[', ']']
  | array (item :: items) =>
    '[' :: newLine (depth + 1) ++ prettyChars (depth + 1) item ++ prettyItems (depth + 1) items
      ++ newLine depth ++ [']']
  | object [] => ['\x7b', '\x7d']
  | object ((key, value) :: entries) =>
    '\x7b' :: newLine (depth + 1) ++ quotedText key ++ [':', ' '] ++ prettyChars (depth + 1) value
      ++ prettyEntries (depth + 1) entries ++ newLine depth ++ ['\x7d']

def prettyItems (depth : Nat) : List Json → List Char
  | [] => []
  | item :: items => ',' :: newLine depth ++ prettyChars depth item ++ prettyItems depth items

def prettyEntries (depth : Nat) : List (Option String × Json) → List Char
  | [] => []
  | (key, value) :: entries =>
    ',' :: newLine depth ++ quotedText key ++ [':', ' '] ++ prettyChars depth value ++ prettyEntries depth entries

end

def pretty (j : Json) : String := String.ofList (prettyChars 0 j)

end CodeOutline.Json
