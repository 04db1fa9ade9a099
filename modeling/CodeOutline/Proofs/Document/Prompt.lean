import CodeOutline.Document.Prompt
import CodeOutline.Proofs.Outline.Json

/-! What a prompt says of a file's elements: their JSON stands in it as it is, and the elements can be read back. -/

namespace CodeOutline

namespace Document

variable {path : String} {elements others : List Element}

lemma prompt_inj : prompt path elements = prompt path others ↔ elements = others := by
  constructor
  · intro h
    have hlist : Element.prettyList elements = Element.prettyList others := by
      rwa [prompt, prompt, String.append_left_inj, String.append_right_inj] at h
    have hread := Element.listOfString?_prettyList elements
    rw [hlist, Element.listOfString?_prettyList] at hread
    exact (Option.some.inj hread).symm
  · rintro rfl
    rfl

/-- Elements and outlines are read back from their JSON as they were. A prompt is a fixed text around the path and the
elements' JSON, so that for one path the prompt tells which elements it is about. -/
theorem prompt_holds_readable_elements :
    (∀ elements, Element.listOfString? (Element.prettyList elements) = some elements) ∧
      (∀ o : Outline, Outline.ofString? o.pretty = some o) ∧
      ∃ opening middle closing : String, ∀ path,
        (∀ elements, prompt path elements = opening ++ path ++ middle ++ Element.prettyList elements ++ closing) ∧
          ∀ elements others, prompt path elements = prompt path others ↔ elements = others :=
  ⟨Element.listOfString?_prettyList, Outline.ofString?_pretty, _, _, _, fun _ => ⟨fun _ => rfl, fun _ _ => prompt_inj⟩⟩

end Document

end CodeOutline
