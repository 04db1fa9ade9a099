import CodeOutline.Config.Basic
import CodeOutline.Scan.Walk

/-! The code files below a folder, in the order of their paths' components. -/

namespace CodeOutline.Scan

inductive Failure where
  | notFound (root : String)
  | notAFolder (root : String)
deriving DecidableEq, Repr

def Failure.message : Failure → String
  | notFound root => "Directory not found: " ++ root
  | notAFolder root => "Not a directory: " ++ root

/-- The folders between the root and the file. -/
def foldersBelow (root path : String) : List Path.Component :=
  ((Path.components path).drop (Path.components root).length).dropLast

def isExcluded (config : Config.Scan) (root path : String) : Bool :=
  (foldersBelow root path).any fun c =>
    match c with
    | .normal name => config.excludeFolders.contains name
    | _ => false

def isAdmitted (config : Config.Scan) (root : String) (file : Found) : Bool :=
  config.includes file.path && !isExcluded config root file.path && file.size ≤ config.maxFileSize

def select (config : Config.Scan) (root : String) (files : List Found) : List String :=
  ((files.filter (isAdmitted config root)).map (·.path)).mergeSort fun a b => !Path.less b a

def directory (d : Disk) (env : Environment) (config : Config.Scan) (root : String) :
    Except Failure (List String) :=
  if !d.exists? root then .error (.notFound root)
  else
    match d.folderPlace? root with
    | none => .error (.notAFolder root)
    | some place => .ok (select config root (walk d env root place))

end CodeOutline.Scan
