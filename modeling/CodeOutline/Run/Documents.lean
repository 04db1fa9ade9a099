import CodeOutline.Document.Generation
import CodeOutline.Run.Activity

/-! The documents of a run: asked for and written. -/

namespace CodeOutline.Run.Documents

open Activity

def generate (network : Http.Network) (model : Model) (total : Nat) (numbered : Outline × Nat) :
    Activity (Option Document) := do
  let (outline, index) := numbered
  emit (.documenting outline.path index total)
  note (.asked (Document.prompt outline.path outline.elements))
  match ← online network (Document.ofOutline model outline) with
  | .ok doc => return some doc
  | .error _ => skip outline.path .undocumented

def generateAll (network : Http.Network) (model : Model) (outlines : List Outline) : Activity (List Document) :=
  gather (generate network model outlines.length) outlines.zipIdx

def write (folder : String) (doc : Document) : Activity (Option String) := do
  match ← onDisk (Document.exportTo folder doc) with
  | .ok path =>
    emit (.exported path)
    return some path
  | .error _ => skip doc.path .unwritten

def writeAll (folder : String) (docs : List Document) : Activity (List String) := gather (write folder) docs

end CodeOutline.Run.Documents
