import CodeOutline.Outline
import CodeOutline.Repository.Client
import CodeOutline.Scan.Directory
import CodeOutline.Selection

/-! Documentation runs: where the source files come from, what is reported while a run goes on, what it
gives in the end and why it may give nothing. -/

namespace CodeOutline

/-- Where the source files come from. -/
inductive Origin where
  | folder (path : String)
  | repository (url : String)
deriving DecidableEq, Repr

namespace Run

structure Options where
  origin : Origin
  outputFolder : String
  /-- Takes all files of a repository without asking. -/
  selectAll : Bool
  /-- Stops before any documentation is asked for. -/
  extractOnly : Bool
deriving DecidableEq, Repr

inductive Stage where
  | scanning
  | fetching
  | parsing
  | documenting
  | exporting
deriving DecidableEq, Repr

namespace Stage

/-- The first two are the same step for the two kinds of origin. -/
def number : Stage → Nat
  | scanning | fetching => 1
  | parsing => 2
  | documenting => 3
  | exporting => 4

def title : Stage → String
  | scanning => "Scanning directory"
  | fetching => "Fetching repository structure"
  | parsing => "Parsing code files"
  | documenting => "Generating documentation"
  | exporting => "Exporting documentation"

end Stage

/-- Why a run goes on without a file. -/
inductive Omission where
  | unreadable
  | unfetched
  | noElements
  | undocumented
  | unwritten
deriving DecidableEq, Repr

def Omission.reason : Omission → String
  | unreadable => "read failed"
  | unfetched => "fetch failed"
  | noElements => "no code elements"
  | undocumented => "documentation failed"
  | unwritten => "export failed"

inductive Event where
  | stage (stage : Stage)
  | found (count : Nat)
  | parsing (path : String)
  | skipped (path : String) (why : Omission)
  | parsed (count : Nat)
  | documenting (path : String) (index total : Nat)
  | documented (count : Nat)
  | exported (path : String)
deriving DecidableEq, Repr

structure Report where
  /-- How many files there were to choose from. -/
  filesFound : Nat
  /-- The outlines of the files with elements. -/
  parsed : List Outline
  documented : Nat
  /-- The paths of the documents. -/
  exported : List String
deriving DecidableEq, Repr

/-- Why a run ends without a report. -/
inductive Failure where
  | noOrigin
  | twoOrigins
  | missingModel
  | scan (failure : Scan.Failure)
  | repository (failure : Repository.Failure)
  | selection (failure : Selection.Failure)
deriving DecidableEq, Repr

/-- The text of a failure, where it does not depend on how a library words it. -/
def Failure.message? : Failure → Option String
  | noOrigin => some "Must specify either a target directory or a GitHub URL"
  | twoOrigins => some "Cannot use both a target directory and a GitHub URL"
  | missingModel => some "An LLM client is required unless running extraction only"
  | scan failure => some ("Scan error: " ++ failure.message)
  | repository failure => failure.message?.map ("GitHub error: " ++ ·)
  | selection failure => some ("Selection error: " ++ failure.message)

end Run

/-- The origin, of which exactly one has to be named. -/
def Origin.ofChoices (folder repository : Option String) : Except Run.Failure Origin :=
  match folder, repository with
  | some _, some _ => .error .twoOrigins
  | some path, none => .ok (.folder path)
  | none, some url => .ok (.repository url)
  | none, none => .error .noOrigin

end CodeOutline
