import CodeOutline.Outline.OfFile
import CodeOutline.Run.Activity

/-! The source files of a run, before and after they are read. -/

namespace CodeOutline.Run

open Activity

/-- Files that are chosen but not read yet. -/
inductive Sources where
  | onDisk (paths : List String)
  | remote (reference : Repository.Reference) (paths : List String)
deriving DecidableEq, Repr

namespace Sources

def paths : Sources → List String
  | onDisk paths | remote _ paths => paths

def ofFolder (s : Setting) (path : String) : Activity (Except Failure Sources) := do
  emit (.stage .scanning)
  match Scan.directory (← get).disk s.env s.config.scan path with
  | .ok paths => return .ok (onDisk paths)
  | .error failure => return .error (.scan failure)

/-- The files to be read of those that a repository has. -/
def select (s : Setting) (selectAll : Bool) (paths : List String) : Activity (Except Failure (List String)) := do
  if selectAll || paths.isEmpty then return .ok paths
  else
    let (selected, dialog) := Selection.ask paths s.input
    note (.shown dialog)
    match selected with
    | .ok paths => return .ok paths
    | .error failure => return .error (.selection failure)

def ofRepository (s : Setting) (selectAll : Bool) (url : String) : Activity (Except Failure Sources) := do
  match Repository.Reference.ofUrl? url with
  | none => return .error (.repository (.invalidUrl url))
  | some reference =>
    emit (.stage .fetching)
    match ← online s.network (s.client.fetchTree reference s.config.repository.branch) with
    | .error failure => return .error (.repository failure)
    | .ok files =>
      match ← select s selectAll (files.map (·.path)) with
      | .ok paths => return .ok (remote reference paths)
      | .error failure => return .error failure

def ofOrigin (s : Setting) (selectAll : Bool) : Origin → Activity (Except Failure Sources)
  | .folder path => ofFolder s path
  | .repository url => ofRepository s selectAll url

/-- Files without elements are passed over. -/
def keep (o : Outline) : Activity (Option Outline) := do
  if o.isEmpty then skip o.path .noElements else return some o

def readFile (path : String) : Activity (Option Outline) := do
  emit (.parsing path)
  match Outline.ofFile (← get).disk path with
  | .ok o => keep o
  | .error _ => skip path .unreadable

def fetchFile (s : Setting) (reference : Repository.Reference) (path : String) : Activity (Option Outline) := do
  emit (.parsing path)
  match ← online s.network (s.client.fetchFile reference path s.config.repository.branch) with
  | .ok content => keep (Outline.ofSource path content)
  | .error _ => skip path .unfetched

/-- The outlines of the files that can be read and have elements. -/
def outlines (s : Setting) : Sources → Activity (List Outline)
  | onDisk paths => gather readFile paths
  | remote reference paths => gather (fetchFile s reference) paths

end Sources

end CodeOutline.Run
