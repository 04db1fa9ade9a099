import CodeOutline.Environment
import CodeOutline.Ignore.Rules

/-! The ignore rules that hold in a folder: those of the folder itself and of all folders above it,
and those that the user has set for all repositories. -/

namespace CodeOutline.Ignore

open Text

/-- The rules that one folder adds. -/
structure Level where
  folder : String
  ignore : Rules
  git : Rules
  exclude : Rules
  isRepository : Bool

/-- The levels from a folder upwards: first those from the folder down from which the scan starts,
innermost first, then those above it, whose paths are absolute. -/
structure Levels where
  inside : List Level
  above : List Level
  /-- The absolute path of the folder from which the scan starts. -/
  base : String
  user : Rules

namespace Level

def firstLine? (d : Disk) (path : String) : Option (List Char) :=
  match d.read path with
  | .ok content => (textLines content).head?
  | .error _ => none

def gitdirMark : List Char := "gitdir: ".toList

/-- Where the repository of a folder keeps its own files. A `.git` file leads to another folder, and
that one to the folder which it shares with other worktrees. -/
def gitFolder? (d : Disk) (folder : String) : Option String :=
  let git := Path.join folder ".git"
  match d.status git with
  | .ok (.file _) => do
    let line ← firstLine? d git
    if gitdirMark.isPrefixOf line then
      let real := String.ofList (line.drop gitdirMark.length)
      let shared ← firstLine? d (Path.join real "commondir")
      return if shared.head? = some '.' then Path.join real (String.ofList shared) else String.ofList shared
    else none
  | _ => some git

def isRepositoryRoot (d : Disk) (folder : String) : Bool :=
  d.exists? (Path.join folder ".git") || d.exists? (Path.join folder ".jj")

def ofFolder (d : Disk) (folder : String) : Level where
  folder := folder
  ignore := Rules.ofFile d folder (Path.join folder ".ignore")
  git := Rules.ofFile d folder (Path.join folder ".gitignore")
  exclude :=
    match gitFolder? d folder with
    | some git => Rules.ofFile d folder (Path.join git "info/exclude")
    | none => .empty
  isRepository := isRepositoryRoot d folder

end Level

namespace Levels

def all (l : Levels) : List Level := l.inside ++ l.above

def push (l : Levels) (level : Level) : Levels := { l with inside := level :: l.inside }

/-- The path below the folder from which the scan starts. -/
def belowBase (l : Levels) (path : String) : String :=
  match l.inside.getLast? with
  | none => path
  | some root =>
    if root.folder = "." then path
    else Rules.strip "/" (Rules.strip (Rules.strip "./" root.folder) path)

/-- The verdict of one level: the levels above the scan know the path by its absolute form. -/
def levelVerdict (l : Levels) (path : String) (isFolder isAbove : Bool) (rules : Rules) : Option Verdict :=
  rules.verdict? (if isAbove then Path.join l.base (l.belowBase path) else path) isFolder

/-- Rules of ignore files go before those of repositories, these before those of the user, and deeper
rules before shallower ones. -/
def verdict? (l : Levels) (path : String) (isFolder : Bool) : Option Verdict :=
  let path := Rules.strip "./" path
  let marked := l.inside.map (·, false) ++ l.above.map (·, true)
  let ignore := marked.findSome? fun (level, isAbove) => l.levelVerdict path isFolder isAbove level.ignore
  let inRepository := l.all.any (·.isRepository)
  let reach := marked.take ((marked.findIdx fun m => m.1.isRepository) + 1)
  let git := reach.findSome? fun (level, isAbove) => l.levelVerdict path isFolder isAbove level.git
  let exclude := reach.findSome? fun (level, isAbove) => l.levelVerdict path isFolder isAbove level.exclude
  if inRepository then ignore <|> git <|> exclude <|> l.user.verdict? path isFolder else ignore

/-- Hidden entries are passed over unless a rule keeps them. -/
def skips (l : Levels) (path name : String) (isFolder : Bool) : Bool :=
  match l.verdict? path isFolder with
  | some v => v = .ignored
  | none => name.toList.head? = some '.'

end Levels

end CodeOutline.Ignore
