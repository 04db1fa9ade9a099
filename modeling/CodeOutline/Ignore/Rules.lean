import CodeOutline.Disk
import CodeOutline.Ignore.Glob
import CodeOutline.Text.Blank

/-! The rules of an ignore file. Each line is a glob; a later line overrides an earlier one, and an
exclamation mark takes an entry out of the ignored ones again. -/

namespace CodeOutline.Ignore

open Text

inductive Verdict where
  | ignored
  | kept
deriving DecidableEq, Repr

structure Rule where
  glob : List Glob
  verdict : Verdict
  onlyFolders : Bool

/-- Rules that apply to paths below `root`. -/
structure Rules where
  root : String
  rules : List Rule

namespace Rule

def startsWith (start cs : List Char) : Bool := start.isPrefixOf cs

/-- Blanks at the end do not count, unless the last of them is escaped. -/
def trimEnd (line : List Char) : List Char :=
  if ['\\', ' '].isSuffixOf line then line else trimRight line

def isDeep (glob : List Char) : Bool := glob = ['*', '*'] || startsWith ['*', '*', '/'] glob

/-- A glob without a slash matches at any depth, and one that ends in two stars does not match the
folder itself. -/
def complete (anchored : Bool) (glob : List Char) : List Char :=
  let glob := if anchored ∨ glob.contains '/' ∨ isDeep glob then glob else '*' :: '*' :: '/' :: glob
  if ['/', '*', '*'].isSuffixOf glob then glob ++ ['/', '*'] else glob

/-- Takes off a mark at the beginning: whether the entries are kept, whether the glob is anchored, and
the glob. A backslash deprives the mark after it of its meaning. -/
def readMarks (line : List Char) : Verdict × Bool × List Char :=
  match line with
  | '\\' :: '!' :: rest => (.ignored, false, '!' :: rest)
  | '\\' :: '#' :: rest => (.ignored, false, '#' :: rest)
  | '!' :: '/' :: rest => (.kept, true, rest)
  | '!' :: rest => (.kept, false, rest)
  | '/' :: rest => (.ignored, true, rest)
  | _ => (.ignored, false, line)

/-- A slash at the end restricts the rule to folders; one that is escaped does so too. -/
def readEnd (glob : List Char) : Bool × List Char :=
  if glob.getLast? = some '/' then
    let glob := glob.dropLast
    (true, if glob.getLast? = some '\\' then glob.dropLast else glob)
  else (false, glob)

/-- The rule of a line; comments, empty lines and lines that are no glob have none. -/
def ofLine? (line : List Char) : Option Rule :=
  if line.head? = some '#' then none
  else
    let line := trimEnd line
    if line.isEmpty then none
    else
      let (verdict, anchored, glob) := readMarks line
      let (onlyFolders, glob) := readEnd glob
      (Glob.parse? (complete anchored glob)).map fun glob => ⟨glob, verdict, onlyFolders⟩

end Rule

/-- Lines end in a newline, before which one carriage return is dropped. -/
def dropReturn (line : List (Option Char)) : List (Option Char) :=
  match line.reverse with
  | some '\r' :: rest => rest.reverse
  | _ => line

def splitLines : List (Option Char) → List (List (Option Char))
  | [] => []
  | some '\n' :: rest => [] :: splitLines rest
  | c :: rest =>
    match splitLines rest with
    | [] => [[c]]
    | line :: lines => (c :: line) :: lines

/-- The lines of a file up to the first one that is no text. -/
def textLines (content : List UInt8) : List (List Char) :=
  ((splitLines (Utf8.decode content)).takeWhile fun line => line.all (·.isSome)).map fun line =>
    (dropReturn line).filterMap id

def dropByteOrderMark (line : List Char) : List Char := line.dropWhile (· == '\uFEFF')

def rulesOf (content : List UInt8) : List Rule :=
  match textLines content with
  | [] => []
  | first :: rest => (dropByteOrderMark first :: rest).filterMap Rule.ofLine?

namespace Rules

/-- The path without a text that it begins with. -/
def strip (start path : String) : String :=
  if start.toList.isPrefixOf path.toList then String.ofList (path.toList.drop start.length) else path

def empty : Rules := ⟨"", []⟩

/-- A file that cannot be read has no rules. -/
def ofFile (d : Disk) (root path : String) : Rules :=
  match d.read path with
  | .ok content => ⟨strip "./" root, rulesOf content⟩
  | .error _ => empty

/-- The path as the rules see it. A bare name is not shortened, and the working folder as root
shortens nothing. -/
def relative (r : Rules) (path : String) : String :=
  let path := strip "./" path
  if r.root = "." ∨ ¬ path.toList.contains '/' then path
  else if r.root.toList.isPrefixOf path.toList then strip "/" (strip r.root path)
  else path

/-- The verdict of the last rule that matches. -/
def verdict? (r : Rules) (path : String) (isFolder : Bool) : Option Verdict :=
  if r.rules.isEmpty then none
  else
    let path := r.relative path
    (r.rules.reverse.find? fun rule =>
      (isFolder || !rule.onlyFolders) && Glob.matchesPath rule.glob path).map (·.verdict)

end Rules

end CodeOutline.Ignore
