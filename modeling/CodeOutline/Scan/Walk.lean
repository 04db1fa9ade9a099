import CodeOutline.Ignore.User

/-! The files below a folder that no ignore rule takes out. Links are not followed, except for the
folder itself. -/

namespace CodeOutline.Scan

open Ignore

/-- A regular file and its size in bytes. -/
structure Found where
  path : String
  size : Nat
deriving DecidableEq, Repr

/-- The places above a folder, innermost first. -/
def placesAbove (place : Disk.Place) : List Disk.Place :=
  (List.range place.length).reverse.map place.take

/-- The levels above the folder at `place`. -/
def outerLevels (d : Disk) (env : Environment) (place : Disk.Place) : Levels where
  inside := []
  above := (placesAbove place).map fun above => Level.ofFolder d (Disk.absolutePath above)
  base := Disk.absolutePath place
  user := User.rules d env

/-- A bound on how deep folders can nest. -/
def depthLimit (d : Disk) : Nat := (d.entries.map (·.1.length)).foldl max 0 + 1

/-- Visits the folder at `place`, which `path` leads to, at most `depth` levels deep. -/
def walkFolder (d : Disk) : Nat → Levels → String → Disk.Place → List Found
  | 0, _, _, _ => []
  | depth + 1, levels, path, place =>
    let levels := levels.push (Level.ofFolder d path)
    (d.children place).flatMap fun (name, e) =>
      let entryPath := Path.join path name
      if levels.skips entryPath name (e = .folder) then []
      else
        match e with
        | .folder => walkFolder d depth levels entryPath (place ++ [name])
        | .file content => [⟨entryPath, content.length⟩]
        | .link _ => []

/-- A single hyphen names the standard input and not a folder. -/
def walk (d : Disk) (env : Environment) (root : String) (place : Disk.Place) : List Found :=
  if root = "-" then [] else walkFolder d (depthLimit d) (outerLevels d env place) root place

end CodeOutline.Scan
