import CodeOutline.Text.Split

/-! Paths as texts with `/` between their components. Repeated and trailing separators do not count,
and neither does a `.` that is not the first component. -/

namespace CodeOutline

namespace Path

inductive Component where
  | root
  | current
  | parent
  | normal (name : String)
deriving DecidableEq, Repr

namespace Component

def ofText (piece : List Char) : Component :=
  if piece = ['.'] then current
  else if piece = ['.', '.'] then parent
  else normal (String.ofList piece)

def rank : Component → Nat
  | root => 0
  | current => 1
  | parent => 2
  | normal _ => 3

def text : Component → String
  | root => "/"
  | current => "."
  | parent => ".."
  | normal name => name

/-- The marks of place come before all names, and names go by their characters. -/
def less (a b : Component) : Bool :=
  match a, b with
  | normal x, normal y => x < y
  | _, _ => a.rank < b.rank

end Component

def pieces (path : String) : List (List Char) :=
  (Text.splitAt '/' path.toList).filter (· ≠ [])

def isAbsolute (path : String) : Bool := path.toList.head? == some '/'

def components (path : String) : List Component :=
  let named := (pieces path).map Component.ofText
  if isAbsolute path then .root :: named.filter (· ≠ .current)
  else
    match named with
    | .current :: rest => .current :: rest.filter (· ≠ .current)
    | _ => named.filter (· ≠ .current)

/-- The last component, where it is a name. -/
def fileName? (path : String) : Option String :=
  match (components path).getLast? with
  | some (.normal name) => some name
  | _ => none

/-- The text after the last dot of the file name. A dot at the very beginning counts too. -/
def suffix? (path : String) : Option String := do
  let name ← fileName? path
  let (_, after) ← Text.cutLast? '.' name.toList
  return String.ofList after

/-- The text after the last dot of the file name, unless that dot begins the name. -/
def extension? (path : String) : Option String := do
  let name ← fileName? path
  let (before, after) ← Text.cutLast? '.' name.toList
  if before = [] then none else return String.ofList after

/-- An absolute path stands for itself wherever it is joined. -/
def join (folder path : String) : String :=
  if isAbsolute path then path
  else if folder = "" ∨ folder.toList.getLast? = some '/' then folder ++ path
  else folder ++ "/" ++ path

def lessComponents : List Component → List Component → Bool
  | [], [] => false
  | [], _ :: _ => true
  | _ :: _, [] => false
  | a :: as, b :: bs => a.less b || (a == b && lessComponents as bs)

/-- Order by components: a folder comes before everything in it. -/
def less (a b : String) : Bool := lessComponents (components a) (components b)

end Path

end CodeOutline
