import CodeOutline.Text.Blank
import CodeOutline.Text.Numeral
import CodeOutline.Text.Split
import CodeOutline.Text.Utf8

/-! Choosing some files of a list by their numbers. The files are shown by folder, each with its number
in the list. -/

namespace CodeOutline.Selection

open Text

def folderOf (path : String) : String :=
  match cutLast? '/' path.toList with
  | some (folder, _) => String.ofList folder
  | none => ""

def nameOf (path : String) : String :=
  match cutLast? '/' path.toList with
  | some (_, name) => String.ofList name
  | none => path

/-- Files of one folder, each with its number in the list. -/
structure FileGroup where
  folder : String
  members : List (String × Nat)
deriving DecidableEq, Repr

/-- A file joins the group of its folder. The first file of a folder opens a new group behind the others. -/
def place (member : String × Nat) : List FileGroup → List FileGroup
  | [] => [⟨folderOf member.1, [member]⟩]
  | group :: groups =>
    if group.folder = folderOf member.1 then { group with members := group.members ++ [member] } :: groups
    else group :: place member groups

def groupsOf (files : List String) : List FileGroup := files.zipIdx.foldl (fun groups member => place member groups) []

def memberLine (member : String × Nat) : String :=
  "  [" ++ toString member.2 ++ "] " ++ nameOf member.1 ++ " (" ++ member.1 ++ ")"

/-- Files outside all folders stand without a header. -/
def FileGroup.lines (group : FileGroup) : List String :=
  (if group.folder = "" then [] else ["", group.folder ++ "/"]) ++ group.members.map memberLine

def treeLines (files : List String) : List String := ["", "Repository Files:"] ++ (groupsOf files).flatMap FileGroup.lines

def indexLimit : Nat := UInt64.size

/-- What one item of the answer chooses: nothing, unless it is the number of a file. -/
def chosen? (files : List String) (item : List Char) : Option String :=
  (unsigned? indexLimit (trim item)).bind (files[·]?)

/-- The answer is `all`, in any case, or numbers with commas between them. -/
def choose (answer : String) (files : List String) : List String :=
  let answer := trim answer.toList
  if (String.ofList answer).toLower = "all" then files
  else (splitAt ',' answer).filterMap (chosen? files)

inductive Failure where
  | notText
deriving DecidableEq, Repr

def Failure.message : Failure → String
  | notText => "Failed to read selection: stream did not contain valid UTF-8"

/-- The bytes up to the first newline, which is included. -/
def firstLine : List UInt8 → List UInt8
  | [] => []
  | b :: rest => if b = 10 then [b] else b :: firstLine rest

def rule : String := String.ofList (List.replicate 60 '-')

def question (files : List String) : List String :=
  treeLines files ++ ["", rule, "Enter file numbers to document (comma-separated)",
    "   Example: 0,2,5  OR  'all' for all files", rule]

def unlines (lines : List String) : String := String.join (lines.map (· ++ "\n"))

/-- Shows the files, reads one line of the input and reports how many files it chose. The second part
is all that is shown. -/
def ask (files : List String) (input : List UInt8) : Except Failure (List String) × String :=
  match Utf8.decodeStrict? (firstLine input) with
  | none => (.error .notText, unlines (question files))
  | some answer =>
    let selected := choose (String.ofList answer) files
    (.ok selected,
      unlines (question files ++ ["", "Selected " ++ toString selected.length ++ " files for documentation"]))

end CodeOutline.Selection
