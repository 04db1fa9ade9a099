import CodeOutline.Json.Basic
import CodeOutline.Json.Token
import CodeOutline.Text.Utf8

/-! JSON values from tokens. The containers that are still open wait in a list, so that values may
nest as deep as the text does. -/

namespace CodeOutline.Json

/-- A container that is being read, its members so far with the last one first. -/
inductive Frame where
  | array (items : List Json)
  | object (entries : List (Option String × Json)) (key : Option String)

/-- What may come next. -/
inductive Phase where
  | value
  | firstItem
  | firstKey (entries : List (Option String × Json))
  | nextKey (entries : List (Option String × Json))
  | colon (entries : List (Option String × Json)) (key : Option String)
  | afterMember
  | finished (result : Json)

/-- Puts a value that is read completely into the innermost open container. -/
def close (value : Json) : List Frame → Phase × List Frame
  | [] => (.finished value, [])
  | .array items :: outer => (.afterMember, .array (value :: items) :: outer)
  | .object entries key :: outer => (.afterMember, .object ((key, value) :: entries) key :: outer)

def readValue (frames : List Frame) : Token → Option (Phase × List Frame)
  | .null => some (close null frames)
  | .bool b => some (close (bool b) frames)
  | .number numeral => some (close (number numeral) frames)
  | .string s => some (close (string s) frames)
  | .openBracket => some (.firstItem, .array [] :: frames)
  | .openBrace => some (.firstKey [], frames)
  | _ => none

def readMember (frames : List Frame) : Token → Option (Phase × List Frame)
  | .comma =>
    match frames with
    | .array items :: outer => some (.value, .array items :: outer)
    | .object entries _ :: outer => some (.nextKey entries, outer)
    | [] => none
  | .closeBracket =>
    match frames with
    | .array items :: outer => some (close (array items.reverse) outer)
    | _ => none
  | .closeBrace =>
    match frames with
    | .object entries _ :: outer => some (close (object entries.reverse) outer)
    | _ => none
  | _ => none

def readToken (phase : Phase) (frames : List Frame) (token : Token) : Option (Phase × List Frame) :=
  match phase, token with
  | .value, token => readValue frames token
  | .firstItem, .closeBracket => readMember frames token
  | .firstItem, token => readValue frames token
  | .firstKey entries, .closeBrace => some (close (object entries.reverse) frames)
  | .firstKey entries, .string key => some (.colon entries key, frames)
  | .nextKey entries, .string key => some (.colon entries key, frames)
  | .colon entries key, .colon => some (.value, .object entries key :: frames)
  | .afterMember, token => readMember frames token
  | _, _ => none

def valueFrom (phase : Phase) (frames : List Frame) : List Token → Option Json
  | [] =>
    match phase with
    | .finished result => some result
    | _ => none
  | token :: rest =>
    match readToken phase frames token with
    | some (phase, frames) => valueFrom phase frames rest
    | none => none

/-- Reads a text that is one value with nothing but white space around it. -/
def read? (text : List (Option Char)) : Option Json := do valueFrom .value [] (← tokens? text)

def ofString? (s : String) : Option Json := read? (s.toList.map some)

def ofBytes? (bytes : List UInt8) : Option Json := read? (Text.Utf8.decode bytes)

end CodeOutline.Json
