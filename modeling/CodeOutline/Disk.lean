import CodeOutline.Path

/-! A disk: folders, files and symbolic links, each at its place. Paths are followed one component at a
time, through links, from the working folder or from the root. -/

namespace CodeOutline

namespace Disk

/-- The names on the way from the root. -/
abbrev Place := List String

inductive Entry where
  | folder
  | file (content : List UInt8)
  | link (target : String)
deriving DecidableEq

/-- Why a path cannot be used. -/
inductive Failure where
  | notFound
  | notAFolder
  | isAFolder
  | alreadyExists
  | nameTooLong
  | tooManyLinks
  | nulInPath
  | notText
deriving DecidableEq, Repr

namespace Failure

def message : Failure → String
  | notFound => "No such file or directory (os error 2)"
  | notAFolder => "Not a directory (os error 20)"
  | isAFolder => "Is a directory (os error 21)"
  | alreadyExists => "File exists (os error 17)"
  | nameTooLong => "File name too long (os error 36)"
  | tooManyLinks => "Too many levels of symbolic links (os error 40)"
  | nulInPath => "file name contained an unexpected NUL byte"
  | notText => "stream did not contain valid UTF-8"

end Failure

/-- A failure together with the path that was asked for. -/
structure Fault where
  path : String
  failure : Failure
deriving DecidableEq, Repr

def Fault.message (f : Fault) : String := "IO error at " ++ f.path ++ ": " ++ f.failure.message

/-- Where a path leads: to an entry, or to a free name in an existing folder, where nothing but a folder may
come to be if the path is that of a folder. -/
inductive Goal where
  | entry (place : Place) (found : Entry)
  | vacant (place : Place) (asFolder : Bool)

def absolutePath (place : Place) : String := "/" ++ "/".intercalate place

def longestName : Nat := 255

def longestPath : Nat := 4095

def mostLinks : Nat := 40

end Disk

structure Disk where
  entries : List (Disk.Place × Disk.Entry)
  /-- Relative paths start here. -/
  current : Disk.Place

namespace Disk

def find? (d : Disk) (place : Place) : Option Entry :=
  if place = [] then some .folder else (d.entries.find? (·.1 = place)).map (·.2)

def put (d : Disk) (place : Place) (e : Entry) : Disk :=
  { d with entries := (place, e) :: d.entries.filter (·.1 ≠ place) }

/-- Makes folders of all that is missing on the way to `place`, itself included. -/
def putFolders (d : Disk) (place : Place) : Disk :=
  (List.range place.length).foldl (fun d n =>
    let above := place.take (n + 1)
    if (d.find? above).isSome then d else d.put above .folder) d

/-- Puts an entry together with the folders above it. -/
def install (d : Disk) (place : Place) (e : Entry) : Disk := (d.putFolders place.dropLast).put place e

/-- The place that a path names by its text alone, whatever is there. -/
def placeOf (d : Disk) (path : String) : Place :=
  (Path.pieces path).foldl (fun place piece =>
    if piece = ['.'] then place
    else if piece = ['.', '.'] then place.dropLast
    else place ++ [String.ofList piece]) (if Path.isAbsolute path then [] else d.current)

def endsAsFolder (path : String) : Bool := path.toList.getLast? == some '/'

def steps (path : String) : List String := (Path.pieces path).map String.ofList

/-- Follows `steps` from the folder `here` up to the first link, which `viaLink` follows from its folder by
its target and the steps behind it. The last step may be a link itself only where `followLast` is off; with
`asFolder` it has to be a folder. -/
def walkSteps (d : Disk) (followLast asFolder : Bool)
    (viaLink : Place → String → List String → Except Failure Goal) (here : Place) :
    List String → Except Failure Goal
  | [] => .ok (.entry here .folder)
  | step :: rest =>
    if step = "." then walkSteps d followLast asFolder viaLink here rest
    else if step = ".." then walkSteps d followLast asFolder viaLink here.dropLast rest
    else if longestName < step.utf8ByteSize then .error .nameTooLong
    else
      let place := here ++ [step]
      match d.find? place with
      | none => if rest = [] then .ok (.vacant place asFolder) else .error .notFound
      | some .folder => walkSteps d followLast asFolder viaLink place rest
      | some (.file content) =>
        if rest = [] ∧ ¬ asFolder then .ok (.entry place (.file content)) else .error .notAFolder
      | some (.link target) =>
        if rest = [] ∧ ¬ followLast ∧ ¬ asFolder then .ok (.entry place (.link target))
        else viaLink here target rest

/-- Follows `steps` from the folder `here` through at most `links` links. -/
def walk (d : Disk) (followLast : Bool) : Nat → Bool → Place → List String → Except Failure Goal
  | 0, asFolder => d.walkSteps followLast asFolder fun _ _ _ => .error .tooManyLinks
  | links + 1, asFolder => d.walkSteps followLast asFolder fun here target rest =>
    if target = "" then .error .notFound
    else
      walk d followLast links (asFolder || (rest.isEmpty && endsAsFolder target))
        (if Path.isAbsolute target then [] else here) (steps target ++ rest)

/-- A slash at the end counts only where a link at the end is followed. -/
def resolve (d : Disk) (followLast : Bool) (path : String) : Except Failure Goal :=
  if path.toList.contains (Char.ofNat 0) then .error .nulInPath
  else if path = "" then .error .notFound
  else if longestPath < path.utf8ByteSize then .error .nameTooLong
  else
    d.walk followLast mostLinks (followLast && endsAsFolder path) (if Path.isAbsolute path then [] else d.current)
      (steps path)

def status (d : Disk) (path : String) : Except Failure Entry := do
  match ← d.resolve true path with
  | .entry _ e => return e
  | .vacant .. => .error .notFound

def folderPlace? (d : Disk) (path : String) : Option Place :=
  match d.resolve true path with
  | .ok (.entry place .folder) => some place
  | _ => none

def isFolder (d : Disk) (path : String) : Bool := (d.folderPlace? path).isSome

def exists? (d : Disk) (path : String) : Bool := (d.status path).toOption.isSome

def read (d : Disk) (path : String) : Except Failure (List UInt8) := do
  match ← d.status path with
  | .file content => return content
  | _ => .error .isAFolder

/-- The names in a folder and what they stand for. -/
def children (d : Disk) (folder : Place) : List (String × Entry) :=
  d.entries.filterMap fun (place, e) =>
    match place.getLast? with
    | some name => if place.dropLast = folder then some (name, e) else none
    | none => none

/-- Replaces a file, or makes one in an existing folder. A link is written through. -/
def write (d : Disk) (path : String) (content : List UInt8) : Except Failure Disk := do
  match ← d.resolve true path with
  | .entry _ .folder | .vacant _ true => .error .isAFolder
  | .entry place _ | .vacant place false => return d.put place (.file content)

def makeFolder (d : Disk) (path : String) : Except Failure Disk := do
  match ← d.resolve false path with
  | .entry .. => .error .alreadyExists
  | .vacant place _ => return d.put place .folder

/-- Makes a folder unless it is there, by `attempt` or, where a folder above it is missing, once more
after `above`. -/
def ensureFolder (path : String) (above : Disk → Except Failure Unit × Disk) (d : Disk) :
    Except Failure Unit × Disk :=
  match d.makeFolder path with
  | .ok made => (.ok (), made)
  | .error .notFound =>
    match above d with
    | (.ok (), d) =>
      match d.makeFolder path with
      | .ok made => (.ok (), made)
      | .error e => (if d.isFolder path then .ok () else .error e, d)
    | failed => failed
  | .error e => (if d.isFolder path then .ok () else .error e, d)

/-- The path of the components, the last one first in the list. -/
def pathUpTo (reversed : List Path.Component) : String :=
  match reversed.reverse with
  | .root :: rest => "/" ++ "/".intercalate (rest.map Path.Component.text)
  | cs => "/".intercalate (cs.map Path.Component.text)

/-- Makes the folders along a path given by its components, the last one first. -/
def ensureFolders : List Path.Component → Disk → Except Failure Unit × Disk
  | [], d => (.ok (), d)
  | c :: above, d => ensureFolder (pathUpTo (c :: above)) (ensureFolders above) d

/-- Makes a folder and all folders above it. What was made before a failure stays. -/
def makeFolders (d : Disk) (path : String) : Except Failure Unit × Disk :=
  if path = "" then (.ok (), d)
  else ensureFolder path (ensureFolders (Path.components path).reverse.tail) d

/-- The regular files below a folder with their contents. -/
def filesBelow (d : Disk) (folder : Place) : List (Place × List UInt8) :=
  d.entries.filterMap fun (place, e) =>
    match e with
    | .file content => if folder.isPrefixOf place then some (place.drop folder.length, content) else none
    | _ => none

/-- The regular files below a folder that are new or have other content than before. -/
def changesBelow (before after : Disk) (folder : Place) : List (Place × List UInt8) :=
  let old := before.filesBelow folder
  (after.filesBelow folder).filter fun f => !old.contains f

end Disk

end CodeOutline
