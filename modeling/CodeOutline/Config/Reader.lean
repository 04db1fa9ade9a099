import CodeOutline.Config.Basic
import CodeOutline.Disk
import CodeOutline.Toml.Reader

/-! Configurations from TOML. A section is a table, in which unknown keys are passed over, or an array
of the section's fields in their order; what is missing has its standard value. -/

namespace CodeOutline.Config

open Toml

/-- The value of a section's field with this name and this position, if it is given. -/
def field? (section? : Option Value) (name : String) (position : Nat) : Option (Option Value) :=
  match section? with
  | none => some none
  | some (.table entries) => some ((entries.find? (·.1 == name)).map (·.2))
  | some (.array items) => some items[position]?
  | some .moment => some none
  | some _ => none

def text? : Value → Option String
  | .text s => some s
  | _ => none

/-- An integer from zero up to, but not including, `limit`. -/
def unsigned? (limit : Nat) : Value → Option Nat
  | .integer i => if 0 ≤ i ∧ i < limit then some i.toNat else none
  | _ => none

def texts? : Value → Option (List String)
  | .array items => items.mapM text?
  | _ => none

/-- A field with a standard value. -/
def given {α : Type} (section? : Option Value) (name : String) (position : Nat) (read : Value → Option α)
    (standard : α) : Option α := do
  match ← field? section? name position with
  | some v => read v
  | none => some standard

/-- A field that may be missing from the configuration altogether. -/
def givenText (section? : Option Value) (name : String) (position : Nat) (standard : Option String) :
    Option (Option String) :=
  given section? name position (fun v => (text? v).map some) standard

def readScan (v : Option Value) : Option Scan := do
  return {
    includeExtensions := ← given v "include_extensions" 0 texts? Scan.standard.includeExtensions
    excludeFolders := ← given v "exclude_dirs" 1 texts? Scan.standard.excludeFolders
    maxFileSize := ← given v "max_file_size" 2 (unsigned? UInt64.size) Scan.standard.maxFileSize }

def readModel (v : Option Value) : Option Model := do
  return {
    provider := ← given v "provider" 0 text? Model.standard.provider
    model := ← givenText v "model" 1 none
    baseUrl := ← givenText v "base_url" 2 none
    apiKey := ← givenText v "api_key" 3 none
    maxTokens := ← given v "max_tokens" 4 (unsigned? UInt32.size) Model.standard.maxTokens
    apiVersion := ← givenText v "api_version" 5 Model.standard.apiVersion }

def readRepository (v : Option Value) : Option Repository := do
  return {
    apiUrl := ← given v "api_url" 0 text? Repository.standard.apiUrl
    branch := ← given v "branch" 1 text? Repository.standard.branch
    token := ← givenText v "token" 2 none }

def readOutput (v : Option Value) : Option Output := do
  return ⟨← given v "dir" 0 text? Output.standard.folder⟩

def readSections (entries : List (String × Value)) : Option Config := do
  let sectionOf (name : String) : Option Value := (entries.find? (·.1 == name)).map (·.2)
  return ⟨← readScan (sectionOf "scan"), ← readModel (sectionOf "llm"), ← readRepository (sectionOf "github"),
    ← readOutput (sectionOf "output")⟩

/-- Why there is no configuration. -/
inductive Failure where
  | unreadable (cause : Disk.Failure)
  | malformed
  | defective (defect : Defect)
deriving DecidableEq, Repr

/-- The text of a failure, where it does not depend on how a library words it. -/
def Failure.message? : Failure → Option String
  | unreadable cause => some ("Failed to read config file: " ++ cause.message)
  | malformed => none
  | defective defect => some defect.message

def ofToml (text : String) : Except Failure Config :=
  match (Toml.read? text).bind readSections with
  | none => .error .malformed
  | some config =>
    match config.defect? with
    | some defect => .error (.defective defect)
    | none => .ok config

end CodeOutline.Config
