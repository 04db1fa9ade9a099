import CodeOutline.Document.Prompt
import CodeOutline.Document.Export
import CodeOutline.Model.Basic

/-! Documents written by a language model. -/

namespace CodeOutline.Document

/-- One request, whose answer is the document as it stands, even where it is empty. -/
def ofOutline (model : Model) (o : Outline) : Http.Online (Except Model.Failure Document) := do
  match ← model.complete none (prompt o.path o.elements) with
  | .ok text => return .ok ⟨o.path, text⟩
  | .error failure => return .error failure

end CodeOutline.Document
