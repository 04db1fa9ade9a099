import CodeOutline.Toml.Scalar
import CodeOutline.Toml.Text

/-! Reading of TOML documents: first the statements, one a line, then the tables that they make up.
Values nest less than eighty deep. Every recursion takes from a budget, of which each character of
the text that is left behind needs two units at most. -/

namespace CodeOutline.Toml

def skipBlanks (cs : List Char) : List Char := cs.dropWhile isBlank

/-- The text after a comment, which starts at the number sign and holds text characters only. -/
def skipComment : List Char → List Char
  | '#' :: cs => cs.dropWhile isTextChar
  | cs => cs

/-- The text after the end of a line, before which blanks and a comment may stand. -/
def lineEnd? (cs : List Char) : Option (List Char) :=
  match skipComment (skipBlanks cs) with
  | [] => some []
  | '\n' :: rest => some rest
  | '\r' :: '\n' :: rest => some rest
  | _ => none

/-- Passes over blanks, comments and line ends. -/
def skipLines : Nat → List Char → List Char
  | 0, cs => cs
  | budget + 1, cs =>
    match skipComment (skipBlanks cs) with
    | '\n' :: rest => skipLines budget rest
    | '\r' :: '\n' :: rest => skipLines budget rest
    | rest => rest

/-! ## Keys -/

def isBareChar (c : Char) : Bool := c.isAlphanum || c == '-' || c == '_'

def simpleKey? (cs : List Char) : Option (String × List Char) :=
  let bare := cs.takeWhile isBareChar
  if bare.isEmpty then shortString? cs else some (String.ofList bare, cs.drop bare.length)

def nestingLimit : Nat := 80

/-- The parts of a key with dots between them. -/
def keyParts? : Nat → List Char → Option (List String × List Char)
  | 0, _ => none
  | budget + 1, cs => do
    let (key, cs) ← simpleKey? (skipBlanks cs)
    match skipBlanks cs with
    | '.' :: rest =>
      let (keys, rest) ← keyParts? budget rest
      return (key :: keys, rest)
    | rest => return ([key], rest)

/-- A key: the path before its last part, and that part. -/
def key? (cs : List Char) : Option ((List String × String) × List Char) := do
  let (keys, cs) ← keyParts? nestingLimit cs
  if nestingLimit ≤ keys.length then none
  else return ((keys.dropLast, keys.getLastD ""), cs)

/-! ## Values -/

def isDelimiter (c : Char) : Bool := " \t\r\n,]\x7d#".toList.contains c

def tokenAt (cs : List Char) : List Char := cs.takeWhile (!isDelimiter ·)

/-- The text of a number, truth value or moment. A date may have its time behind one blank. -/
def scalarText (cs : List Char) : List Char :=
  let token := tokenAt cs
  match cs.drop token.length with
  | ' ' :: rest =>
    let further := tokenAt rest
    if isDate token ∧ ¬ further.isEmpty then token ++ ' ' :: further else token
  | _ => token

def scalarAt? (cs : List Char) : Option (Value × List Char) :=
  let text := scalarText cs
  (scalarValue? text).map fun v => (v, cs.drop text.length)

mutual

/-- A value that may hold others to the depth `depth`. -/
def value? (depth : Nat) : Nat → List Char → Option (Value × List Char)
  | 0, _ => none
  | budget + 1, cs =>
    match cs with
    | '"' :: _ | '\'' :: _ => (string? cs).map fun (s, rest) => (.text s, rest)
    | '[' :: rest =>
      match depth with
      | 0 => none
      | depth + 1 => do
        let (items, rest) ← items? depth budget (skipLines budget rest)
        return (.array items, rest)
    | '\x7b' :: rest =>
      match depth with
      | 0 => none
      | depth + 1 => do
        let (entries, rest) ← match skipBlanks rest with
          | '\x7d' :: rest => some ([], rest)
          | rest => pairs? depth budget [] rest
        return (.table (entriesValues entries), rest)
    | _ => scalarAt? cs

/-- The items of an array up to its closing bracket. A comma may stand behind the last one. -/
def items? (depth : Nat) : Nat → List Char → Option (List Value × List Char)
  | 0, _ => none
  | _, ']' :: rest => some ([], rest)
  | budget + 1, cs => do
    let (v, rest) ← value? depth budget cs
    match skipLines budget rest with
    | ']' :: rest => return ([v], rest)
    | ',' :: rest =>
      let (items, rest) ← items? depth budget (skipLines budget rest)
      return (v :: items, rest)
    | _ => none

/-- The pairs of a table in braces up to its closing brace, all on one line. -/
def pairs? (depth : Nat) : Nat → Entries → List Char → Option (Entries × List Char)
  | 0, _, _ => none
  | budget + 1, entries, cs => do
    let ((path, key), rest) ← key? cs
    match rest with
    | '=' :: rest =>
      let (v, rest) ← value? depth budget (skipBlanks rest)
      let entries ← entries.insertPair [] path key v
      match skipBlanks rest with
      | '\x7d' :: rest => return (entries, rest)
      | ',' :: rest => pairs? depth budget entries rest
      | _ => none
    | _ => none

end

/-! ## Documents -/

inductive Statement where
  | table (path : List String) (key : String)
  | element (path : List String) (key : String)
  | pair (path : List String) (key : String) (value : Value)

/-- A statement without blanks before it, and the text after its line. -/
def statement? (budget : Nat) (cs : List Char) : Option (Statement × List Char) :=
  match cs with
  | '[' :: '[' :: rest => do
    let ((path, key), rest) ← key? rest
    match rest with
    | ']' :: ']' :: rest => return (.element path key, ← lineEnd? rest)
    | _ => none
  | '[' :: rest => do
    let ((path, key), rest) ← key? rest
    match rest with
    | ']' :: rest => return (.table path key, ← lineEnd? rest)
    | _ => none
  | _ => do
    let ((path, key), rest) ← key? cs
    match rest with
    | '=' :: rest =>
      let (v, rest) ← value? (nestingLimit - 1) budget (skipBlanks rest)
      return (.pair path key v, ← lineEnd? rest)
    | _ => none

/-- All statements; `read` holds those read so far, the last one first. -/
def statementsFrom (size : Nat) (read : List Statement) : Nat → List Char → Option (List Statement)
  | 0, _ => none
  | budget + 1, cs =>
    match skipLines size cs with
    | [] => some read.reverse
    | cs =>
      match statement? size cs with
      | some (s, rest) => statementsFrom size (s :: read) budget rest
      | none => none

/-- A document that is being read: its tables, and the header under which pairs stand. -/
structure Document where
  entries : Entries
  header : List String

def Document.add (doc : Document) : Statement → Option Document
  | .table path key => do return ⟨← doc.entries.declare path key, path ++ [key]⟩
  | .element path key => do return ⟨← doc.entries.declareElement path key, path ++ [key]⟩
  | .pair path key v => do return { doc with entries := ← doc.entries.insertPair doc.header path key v }

def dropByteOrderMark : List Char → List Char
  | '\uFEFF' :: rest => rest
  | cs => cs

/-- The table that a document stands for. -/
def read? (text : String) : Option (List (String × Value)) := do
  let cs := dropByteOrderMark text.toList
  let size := 2 * cs.length + 2
  let statements ← statementsFrom size [] size cs
  let doc ← statements.foldlM Document.add ⟨[], []⟩
  return entriesValues doc.entries

end CodeOutline.Toml
