import CodeOutline.Run.Documents
import CodeOutline.Run.Sources

/-! A whole run. What concerns a single file never ends it: the file is passed over. -/

namespace CodeOutline.Run

open Activity

namespace Report

/-- Asks for documents of all outlines and writes them. -/
def document (s : Setting) (model : Model) (folder : String) (filesFound : Nat) (parsed : List Outline) :
    Activity Report := do
  emit (.stage .documenting)
  let docs ← Documents.generateAll s.network model parsed
  emit (.documented docs.length)
  emit (.stage .exporting)
  return ⟨filesFound, parsed, docs.length, ← Documents.writeAll folder docs⟩

/-- Reads the files and, given a model, has them documented. -/
def ofSources (s : Setting) (model? : Option Model) (folder : String) (sources : Sources) : Activity Report := do
  emit (.found sources.paths.length)
  if sources.paths.isEmpty then return ⟨0, [], 0, []⟩
  else
    emit (.stage .parsing)
    let parsed ← sources.outlines s
    emit (.parsed parsed.length)
    match model? with
    | some model =>
      if parsed.isEmpty then return ⟨sources.paths.length, parsed, 0, []⟩
      else document s model folder sources.paths.length parsed
    | none => return ⟨sources.paths.length, parsed, 0, []⟩

end Report

/-- A model has to be there unless documentation is not wanted; then one that is there is not used. -/
def modelInUse (options : Options) (model? : Option Model) : Except Failure (Option Model) :=
  if options.extractOnly then .ok none
  else
    match model? with
    | some model => .ok (some model)
    | none => .error .missingModel

def perform (s : Setting) (options : Options) (model? : Option Model) : Activity (Except Failure Report) := do
  match modelInUse options model? with
  | .error failure => return .error failure
  | .ok model? =>
    match ← Sources.ofOrigin s options.selectAll options.origin with
    | .error failure => return .error failure
    | .ok sources => return .ok (← Report.ofSources s model? options.outputFolder sources)

end CodeOutline.Run
