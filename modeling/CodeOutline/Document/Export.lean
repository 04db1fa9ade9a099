import CodeOutline.Disk
import CodeOutline.Text.Utf8

/-! Documents and the files they are written to. All documents of a run go into one folder, so the
path of the source becomes a single name. -/

namespace CodeOutline

/-- Documentation of the source file at `path`. -/
structure Document where
  path : String
  text : String
deriving DecidableEq, Repr

namespace Document

def suffix : String := "_docs.md"

def flatten (path : List Char) : List Char :=
  path.map fun c => if c = '\\' ∨ c = '/' then '_' else c

/-- What stands before the last dot, where something follows that dot. -/
def stem (flat : List Char) : List Char :=
  match Text.cutLast? '.' flat with
  | some (before, _ :: _) => before
  | _ => flat

def fileName (path : String) : String := String.ofList (stem (flatten path.toList)) ++ suffix

/-- Writes a document into a folder, which is made first if it is not there, and returns the path of
the file. -/
def exportTo (folder : String) (doc : Document) (d : Disk) : Except Disk.Fault String × Disk :=
  let (made, d) := if d.exists? folder then (.ok (), d) else d.makeFolders folder
  match made with
  | .error failure => (.error ⟨folder, failure⟩, d)
  | .ok () =>
    let path := Path.join folder (fileName doc.path)
    match d.write path (Text.Utf8.encode doc.text) with
    | .ok d => (.ok path, d)
    | .error failure => (.error ⟨path, failure⟩, d)

end Document

end CodeOutline
