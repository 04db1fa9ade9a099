import CodeOutline.Text.LineIndex
import Mathlib.Data.String.Basic

/-! Looking a line up by halving gives one more than the newlines before the place. -/

namespace CodeOutline.Text

def newlineOffsets (position : Nat) : List Char → List Nat
  | [] => []
  | c :: rest =>
    if c = '\n' then position :: newlineOffsets (position + c.utf8Size) rest
    else newlineOffsets (position + c.utf8Size) rest

lemma newlinesFrom_toList (position : Nat) (found : Array Nat) (text : List Char) :
    (newlinesFrom position found text).toList = found.toList ++ newlineOffsets position text := by
  induction text generalizing position found with
  | nil => simp [newlinesFrom, newlineOffsets]
  | cons c rest ih => by_cases hc : c = '\n' <;> simp [newlinesFrom, newlineOffsets, ih, hc]

lemma newlineOffsets_append (position : Nat) (text more : List Char) :
    newlineOffsets position (text ++ more) =
      newlineOffsets position text ++ newlineOffsets (position + String.utf8Len text) more := by
  induction text generalizing position with
  | nil => simp [newlineOffsets]
  | cons c rest ih =>
    have hs : position + c.utf8Size + String.utf8Len rest = position + String.utf8Len (c :: rest) := by
      simp only [String.utf8Len_cons]
      omega
    rw [List.cons_append, newlineOffsets, newlineOffsets, ih, hs]
    split <;> rfl

lemma length_newlineOffsets (position : Nat) (text : List Char) :
    (newlineOffsets position text).length = text.count '\n' := by
  induction text generalizing position with
  | nil => rfl
  | cons c rest ih => by_cases hc : c = '\n' <;> simp [newlineOffsets, hc, ih]

lemma le_of_mem_newlineOffsets {position offset : Nat} {text : List Char}
    (h : offset ∈ newlineOffsets position text) : position ≤ offset := by
  induction text generalizing position with
  | nil => cases h
  | cons c rest ih =>
    have hr : ∀ h : offset ∈ newlineOffsets (position + c.utf8Size) rest, position ≤ offset :=
      fun h => (Nat.le_add_right _ _).trans (ih h)
    simp only [newlineOffsets] at h
    split at h
    · rcases List.mem_cons.mp h with rfl | h
      · exact le_rfl
      · exact hr h
    · exact hr h

lemma lt_of_mem_newlineOffsets {position offset : Nat} {text : List Char}
    (h : offset ∈ newlineOffsets position text) : offset < position + String.utf8Len text := by
  induction text generalizing position with
  | nil => cases h
  | cons c rest ih =>
    have hc := c.utf8Size_pos
    simp only [String.utf8Len_cons]
    simp only [newlineOffsets] at h
    split at h
    · rcases List.mem_cons.mp h with rfl | h
      · omega
      · have := ih h
        omega
    · have := ih h
      omega

lemma newlineOffsets_sorted (position : Nat) (text : List Char) :
    (newlineOffsets position text).Pairwise (· < ·) := by
  induction text generalizing position with
  | nil => exact .nil
  | cons c rest ih =>
    simp only [newlineOffsets]
    split
    · refine List.pairwise_cons.mpr ⟨fun offset ho => ?_, ih _⟩
      have := le_of_mem_newlineOffsets ho
      have := c.utf8Size_pos
      omega
    · exact ih _

lemma getElem_lt_iff_lt_countP {offsets : List Nat} (hs : offsets.Pairwise (· < ·)) (bound i : Nat)
    (hi : i < offsets.length) : offsets[i] < bound ↔ i < offsets.countP (· < bound) := by
  induction offsets generalizing i with
  | nil => cases hi
  | cons offset offsets ih =>
    obtain ⟨hh, ht⟩ := List.pairwise_cons.mp hs
    by_cases ho : offset < bound
    · cases i with
      | zero => simp [ho]
      | succ i => simpa [ho] using ih ht i (by simpa using hi)
    · have hz : offsets.countP (· < bound) = 0 := by
        refine List.countP_eq_zero.mpr fun other hm => ?_
        have := hh other hm
        simp only [decide_eq_true_eq]
        omega
      cases i with
      | zero => simp [ho, hz]
      | succ i =>
        have hi : i < offsets.length := by simpa using hi
        have := hh offsets[i] (List.getElem_mem hi)
        simp only [List.getElem_cons_succ, List.countP_cons, ho, decide_false, hz]
        simp only [Bool.false_eq_true, if_false]
        omega

namespace LineIndex

/-- The count of the newlines before `position` never leaves the interval that is halved. -/
lemma countBefore_eq {newlines : Array Nat} (hs : newlines.toList.Pairwise (· < ·)) (position low width : Nat)
    (hl : low ≤ newlines.toList.countP (· < position))
    (hw : newlines.toList.countP (· < position) ≤ low + width) (hn : low + width ≤ newlines.size) :
    countBefore newlines position low width = newlines.toList.countP (· < position) := by
  induction width using Nat.strong_induction_on generalizing low with
  | _ width ih =>
    rw [countBefore]
    split
    · omega
    · have hi : low + width / 2 < newlines.toList.length := by
        simp only [Array.length_toList]
        omega
      have hlt := getElem_lt_iff_lt_countP hs position _ hi
      have hget : newlines[low + width / 2]? = some newlines.toList[low + width / 2] := by simp
      simp only [hget]
      split
      · next h =>
        have := hlt.mp h
        exact ih _ (by omega) _ (by omega) (by omega) (by omega)
      · next h =>
        have := mt hlt.mpr h
        exact ih _ (by omega) _ (by omega) (by omega) (by omega)

lemma lineAt_eq (text : List Char) (position : Nat) :
    (ofText text).lineAt position = ((newlineOffsets 0 text).countP (· < position) + 1).toUInt32 := by
  have ht : (ofText text).newlines.toList = newlineOffsets 0 text := by simp [ofText, newlinesFrom_toList]
  have hs : (ofText text).newlines.toList.Pairwise (· < ·) := ht ▸ newlineOffsets_sorted 0 text
  have hc := List.countP_le_length (p := fun offset => decide (offset < position))
    (l := (ofText text).newlines.toList)
  rw [lineAt, countBefore_eq hs position 0 _ (Nat.zero_le _) (by simpa using hc) (by simp), ht]

lemma lineAt_append (text more : List Char) :
    (ofText (text ++ more)).lineAt (String.utf8Len text) = (text.count '\n' + 1).toUInt32 := by
  have hf : (newlineOffsets 0 text).countP (· < String.utf8Len text) = text.count '\n' := by
    rw [List.countP_eq_length.mpr, length_newlineOffsets]
    intro offset ho
    have := lt_of_mem_newlineOffsets ho
    simpa using this
  have hl : (newlineOffsets (0 + String.utf8Len text) more).countP (· < String.utf8Len text) = 0 := by
    refine List.countP_eq_zero.mpr fun offset ho => ?_
    have := le_of_mem_newlineOffsets ho
    simp only [decide_eq_true_eq]
    omega
  rw [lineAt_eq, newlineOffsets_append, List.countP_append, hf, hl, Nat.add_zero]

end LineIndex

end CodeOutline.Text
