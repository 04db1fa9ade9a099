import CodeOutline.Proofs.Disk.Way
import Mathlib.Data.String.Basic

/-! The paths above a path, as they are written when folders are made along it. -/

namespace CodeOutline

namespace Text

variable {mark : Char} {cs piece : List Char} {pieces more : List (List Char)}

lemma intercalate_sublist (h : pieces.Sublist more) : ([mark].intercalate pieces).Sublist ([mark].intercalate more) := by
  induction h with
  | slnil => exact List.Sublist.refl _
  | @cons pieces more piece hsub ih =>
    by_cases hmore : more = []
    · obtain rfl : pieces = [] := by simpa [hmore] using hsub
      exact List.nil_sublist _
    · rw [intercalate_cons piece hmore]
      exact (ih.cons mark).trans (List.sublist_append_right piece _)
  | @cons_cons pieces more piece hsub ih =>
    by_cases hpieces : pieces = []
    · by_cases hmore : more = []
      · rw [hpieces, hmore]
      · rw [hpieces, intercalate_cons piece hmore]
        simp
    · have hmore : more ≠ [] := by
        rintro rfl
        exact hpieces (List.sublist_nil.mp hsub)
      rw [intercalate_cons piece hpieces, intercalate_cons piece hmore]
      exact (List.Sublist.refl piece).append (ih.cons_cons mark)

end Text

namespace Disk

variable {path other : String} {step : String} {names : List String} {d : Disk}

def IsPiece (name : String) : Prop := name ≠ "" ∧ '/' ∉ name.toList

lemma isPiece_of_mem_steps (h : step ∈ steps path) : IsPiece step := by
  obtain ⟨piece, hpiece, rfl⟩ := List.mem_map.mp h
  obtain ⟨hsplit, hne⟩ := List.mem_filter.mp hpiece
  refine ⟨fun hempty => ?_, ?_⟩
  · rw [← String.toList_inj, String.toList_ofList] at hempty
    simp [hempty] at hne
  · rw [String.toList_ofList]
    exact Text.not_mem_of_mem_splitAt hsplit

lemma steps_intercalate (h : ∀ name ∈ names, IsPiece name) : steps ("/".intercalate names) = names := by
  cases names with
  | nil => rfl
  | cons first later =>
    have htext : ("/".intercalate (first :: later)).toList = ['/'].intercalate ((first :: later).map String.toList) := by
      rw [String.toList_intercalate]
      rfl
    have hsplit : Text.splitAt '/' ("/".intercalate (first :: later)).toList = (first :: later).map String.toList := by
      rw [htext]
      apply Text.splitAt_intercalate (by simp)
      intro piece hpiece
      obtain ⟨name, hname, rfl⟩ := List.mem_map.mp hpiece
      exact (h name hname).2
    have hall : ((first :: later).map String.toList).filter (· ≠ []) = (first :: later).map String.toList := by
      apply List.filter_eq_self.mpr
      intro piece hpiece
      obtain ⟨name, hname, rfl⟩ := List.mem_map.mp hpiece
      simpa using (h name hname).1
    rw [steps, Path.pieces, hsplit, hall, List.map_map]
    simp

lemma pieces_slash (path : String) : Path.pieces ("/" ++ path) = Path.pieces path := by
  have hpieces : Path.pieces ("" ++ "/" ++ path) = Path.pieces "" ++ Path.pieces path := Path.pieces_append_slash
  have hnone : Path.pieces "" = [] := rfl
  rwa [String.empty_append, hnone, List.nil_append] at hpieces

lemma eq_slash_append (h : Path.isAbsolute path = true) : ∃ rest, path = "/" ++ rest := by
  cases htext : path.toList with
  | nil => simp [Path.isAbsolute, htext] at h
  | cons c rest =>
    obtain rfl : c = '/' := by simpa [Path.isAbsolute, htext] using h
    refine ⟨String.ofList rest, ?_⟩
    rw [← String.toList_inj, htext]
    simp

lemma isAbsolute_slash (path : String) : Path.isAbsolute ("/" ++ path) = true := by
  simp [Path.isAbsolute]

lemma isAbsolute_intercalate (h : ∀ name ∈ names, IsPiece name) : Path.isAbsolute ("/".intercalate names) = false := by
  cases names with
  | nil => rfl
  | cons first later =>
    obtain ⟨hne, hslash⟩ := h first List.mem_cons_self
    obtain ⟨c, rest, hc⟩ := List.exists_cons_of_ne_nil (mt String.toList_eq_nil_iff.mp hne)
    have hcs : c ≠ '/' := by
      rintro rfl
      simp [hc] at hslash
    have htext : ∃ more, ("/".intercalate (first :: later)).toList = c :: more := by
      rw [String.toList_intercalate]
      cases later with
      | nil => exact ⟨rest, by simp [hc]⟩
      | cons second later => exact ⟨_, by rw [List.map_cons, List.map_cons, List.intercalate_cons_cons, hc]; rfl⟩
    obtain ⟨more, hmore⟩ := htext
    simp [Path.isAbsolute, hmore, hcs]

def moves (path : String) : List String := (steps path).filter (· ≠ ".")

end Disk

namespace Path

variable {path : String} {cs : List Component} {c : Component}

/-- The step of a component, if it is one that moves. -/
def Component.move? : Component → Option String
  | .normal name => some name
  | .parent => some ".."
  | _ => none

lemma text_ofText (piece : List Char) : (Component.ofText piece).text = String.ofList piece := by
  unfold Component.ofText
  split
  · rename_i h
    rw [h]
    rfl
  · split
    · rename_i h
      rw [h]
      rfl
    · rfl

lemma ofText_ne_root (piece : List Char) : Component.ofText piece ≠ .root := by
  unfold Component.ofText
  split
  · simp
  · split <;> simp

lemma move?_ofText (piece : List Char) :
    (Component.ofText piece).move? = if String.ofList piece = "." then none else some (String.ofList piece) := by
  have hdot : String.ofList piece = "." ↔ piece = ['.'] := by
    rw [← String.toList_inj, String.toList_ofList]
    rfl
  simp only [hdot]
  unfold Component.ofText
  split
  · rfl
  · split
    · rename_i h
      rw [h]
      rfl
    · rfl

lemma filterMap_move?_filter (cs : List Component) : (cs.filter (· ≠ .current)).filterMap Component.move? = cs.filterMap Component.move? := by
  induction cs with
  | nil => rfl
  | cons c cs ih =>
    by_cases hc : c = .current
    · rw [hc, List.filter_cons_of_neg (by simp), ih]
      rfl
    · rw [List.filter_cons_of_pos (by simpa using hc), List.filterMap_cons, List.filterMap_cons, ih]

lemma filterMap_move?_named (path : String) :
    ((pieces path).map Component.ofText).filterMap Component.move? = Disk.moves path := by
  rw [Disk.moves, Disk.steps]
  induction pieces path with
  | nil => rfl
  | cons piece rest ih =>
    rw [List.map_cons, List.filterMap_cons, move?_ofText, ih]
    by_cases hdot : String.ofList piece = "." <;> simp [hdot]

/-- Behind the mark of the root, if there is one, the components are those of the pieces, in their order. -/
lemma exists_components (path : String) : ∃ cs, components path = (if isAbsolute path then [.root] else []) ++ cs ∧
    cs.Sublist ((pieces path).map Component.ofText) ∧ cs.filterMap Component.move? = Disk.moves path := by
  rw [components, ← filterMap_move?_named]
  split
  · exact ⟨_, rfl, List.filter_sublist, filterMap_move?_filter _⟩
  · split
    · rename_i rest hstart
      refine ⟨_, rfl, ?_, ?_⟩
      · rw [hstart]
        exact List.filter_sublist.cons_cons Component.current
      · rw [hstart, List.filterMap_cons, List.filterMap_cons, filterMap_move?_filter]
    · exact ⟨_, rfl, List.filter_sublist, filterMap_move?_filter _⟩

lemma filterMap_move?_components (path : String) : (components path).filterMap Component.move? = Disk.moves path := by
  obtain ⟨cs, hcs, _, hmoves⟩ := exists_components path
  rw [hcs, List.filterMap_append, hmoves]
  split <;> rfl

lemma exists_move_of_mem_tail (h : c ∈ (components path).tail) : ∃ step, c.move? = some step := by
  have hnamed : ∀ cs : List Component, cs.Sublist ((pieces path).map Component.ofText) →
      c ∈ cs.filter (· ≠ .current) → ∃ step, c.move? = some step := by
    intro cs hsub hc
    obtain ⟨hmem, hne⟩ := List.mem_filter.mp hc
    obtain ⟨piece, _, hpiece⟩ := List.mem_map.mp (hsub.subset hmem)
    cases c with
    | root => exact absurd hpiece (ofText_ne_root piece)
    | current => simp at hne
    | parent | normal name => exact ⟨_, rfl⟩
  rw [components] at h
  split at h
  · exact hnamed _ (List.Sublist.refl _) h
  · split at h
    · rename_i rest hstart
      exact hnamed rest (hstart ▸ List.sublist_cons_self _ rest) h
    · exact hnamed _ (List.Sublist.refl _) (List.mem_of_mem_tail h)

end Path

namespace Disk

open CodeOutline.Path

variable {path : String} {cs reversed above : List Component} {c : Component}

lemma isPiece_text (h : cs.Sublist ((pieces path).map Component.ofText)) : ∀ name ∈ cs.map Component.text, IsPiece name := by
  intro name hname
  obtain ⟨c, hc, rfl⟩ := List.mem_map.mp hname
  obtain ⟨piece, hpiece, rfl⟩ := List.mem_map.mp (h.subset hc)
  rw [text_ofText]
  exact isPiece_of_mem_steps (List.mem_map_of_mem hpiece)

lemma filter_text (h : cs.Sublist ((pieces path).map Component.ofText)) :
    (cs.map Component.text).filter (· ≠ ".") = cs.filterMap Component.move? := by
  induction cs with
  | nil => rfl
  | cons c cs ih =>
    obtain ⟨piece, _, hpiece⟩ := List.mem_map.mp (h.subset List.mem_cons_self)
    rw [List.map_cons, List.filterMap_cons, ← ih ((List.sublist_cons_self c cs).trans h), ← hpiece, text_ofText,
      move?_ofText]
    by_cases hdot : String.ofList piece = "." <;> simp [hdot]

lemma toList_intercalate_text_sublist (h : cs.Sublist ((pieces path).map Component.ofText)) :
    ("/".intercalate (cs.map Component.text)).toList.Sublist path.toList := by
  have htext : (cs.map Component.text).map String.toList = cs.map fun c => c.text.toList := by simp
  have hpieces : (cs.map fun c => c.text.toList).Sublist (pieces path) := by
    have hmap := h.map fun c => c.text.toList
    rw [List.map_map] at hmap
    simpa [Function.comp_def, text_ofText] using hmap
  rw [String.toList_intercalate, htext]
  have hsublist : ("/".toList.intercalate (cs.map fun c => c.text.toList)).Sublist
      (['/'].intercalate (Text.splitAt '/' path.toList)) :=
    Text.intercalate_sublist (hpieces.trans List.filter_sublist)
  rwa [Text.intercalate_splitAt] at hsublist

/-- The path up to a component goes where the whole path goes up to there, and is no longer. -/
structure IsUpTo (reversed : List Component) (path upTo : String) : Prop where
  isAbsolute_eq : isAbsolute upTo = isAbsolute path
  moves_eq : moves upTo = reversed.reverse.filterMap Component.move?
  sublist : upTo.toList.Sublist path.toList
  ne_empty : upTo ≠ ""

lemma isUpTo_pathUpTo (h : reversed.reverse <+: components path) (hne : reversed ≠ []) :
    IsUpTo reversed path (pathUpTo reversed) := by
  obtain ⟨cs, hcs, hsub, _⟩ := exists_components path
  rw [hcs] at h
  cases habs : isAbsolute path with
  | true =>
    simp only [habs, if_true, List.singleton_append] at h
    obtain ⟨taken, htaken, hpre⟩ : ∃ taken, reversed.reverse = .root :: taken ∧ taken <+: cs := by
      obtain hnil | ⟨taken, htaken, hpre⟩ := List.prefix_cons_iff.mp h
      · exact absurd (List.reverse_eq_nil_iff.mp hnil) hne
      · exact ⟨taken, htaken, hpre⟩
    have hsub' := hpre.sublist.trans hsub
    have hpath : pathUpTo reversed = "/" ++ "/".intercalate (taken.map Component.text) := by
      rw [pathUpTo, htaken]
    rw [hpath]
    refine ⟨(isAbsolute_slash _).trans habs.symm, ?_, ?_, by simp⟩
    · rw [moves, steps, pieces_slash, ← steps, steps_intercalate (isPiece_text hsub'), filter_text hsub', htaken]
      rfl
    · obtain ⟨rest, rfl⟩ := eq_slash_append habs
      rw [pieces_slash] at hsub'
      rw [String.toList_append, String.toList_append]
      exact (List.Sublist.refl _).append (toList_intercalate_text_sublist hsub')
  | false =>
    simp only [habs, Bool.false_eq_true, if_false, List.nil_append] at h
    have hsub' := h.sublist.trans hsub
    have hpath : pathUpTo reversed = "/".intercalate (reversed.reverse.map Component.text) := by
      rw [pathUpTo]
      split
      · rename_i rest hroot
        obtain ⟨piece, _, hpiece⟩ := List.mem_map.mp (hsub'.subset (hroot ▸ List.mem_cons_self))
        exact absurd hpiece (ofText_ne_root piece)
      · rfl
    rw [hpath]
    have hsteps := steps_intercalate (isPiece_text hsub')
    refine ⟨(isAbsolute_intercalate (isPiece_text hsub')).trans habs.symm, ?_, toList_intercalate_text_sublist hsub', ?_⟩
    · rw [moves, hsteps, filter_text hsub']
    · intro hempty
      have hnone : steps "" = [] := rfl
      rw [hempty, hnone] at hsteps
      exact hne (List.reverse_eq_nil_iff.mp (List.map_eq_nil_iff.mp hsteps.symm))

lemma IsUsable.of_sublist {other : String} (h : IsUsable path) (hsub : other.toList.Sublist path.toList) (hne : other ≠ "") :
    IsUsable other := by
  obtain ⟨hnul, _, hlong⟩ := h
  refine ⟨?_, hne, ?_⟩
  · rw [List.contains_eq_mem, decide_eq_false_iff_not] at hnul ⊢
    exact fun hmem => hnul (hsub.subset hmem)
  · have hsize : ∀ text : String, text.utf8ByteSize = String.utf8Len text.toList := fun text => by
      rw [← String.utf8ByteSize_ofList, String.ofList_toList]
    rw [hsize] at hlong ⊢
    exact (String.utf8Len_le_of_sublist hsub).trans hlong

end Disk

end CodeOutline
