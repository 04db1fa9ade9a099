import CodeOutline.Text.Split
import Mathlib.Data.List.Basic

/-! The pieces of a text between the marks, and the last mark in it. -/

namespace CodeOutline.Text

variable {mark : Char} {before after cs piece : List Char} {pieces : List (List Char)}

lemma splitAt_ne_nil (mark : Char) (cs : List Char) : splitAt mark cs ≠ [] := by
  cases cs with
  | nil => simp [splitAt]
  | cons c rest =>
    unfold splitAt
    split
    · simp
    · split <;> simp

lemma splitAt_append_mark : splitAt mark (before ++ mark :: after) = splitAt mark before ++ splitAt mark after := by
  induction before with
  | nil => simp [splitAt]
  | cons c rest ih =>
    by_cases hc : c = mark
    · simp [splitAt, hc, ih]
    · obtain ⟨piece, pieces, hsplit⟩ := List.exists_cons_of_ne_nil (splitAt_ne_nil mark rest)
      simp [splitAt, hc, ih, hsplit]

lemma splitAt_of_not_mem (h : mark ∉ cs) : splitAt mark cs = [cs] := by
  induction cs with
  | nil => rfl
  | cons c rest ih =>
    rw [List.mem_cons, not_or] at h
    simp [splitAt, Ne.symm h.1, ih h.2]

lemma length_splitAt (mark : Char) (cs : List Char) : (splitAt mark cs).length = cs.count mark + 1 := by
  induction cs with
  | nil => rfl
  | cons c rest ih =>
    obtain ⟨piece, pieces, hsplit⟩ := List.exists_cons_of_ne_nil (splitAt_ne_nil mark rest)
    by_cases hc : c = mark
    · simp [splitAt, hc, ih]
    · rw [hsplit] at ih
      simp [splitAt, hc, hsplit, ← ih]

lemma head?_splitAt (mark : Char) (cs : List Char) : (splitAt mark cs).head? = some (cs.takeWhile (· != mark)) := by
  induction cs with
  | nil => rfl
  | cons c rest ih =>
    obtain ⟨piece, pieces, hsplit⟩ := List.exists_cons_of_ne_nil (splitAt_ne_nil mark rest)
    by_cases hc : c = mark
    · simp [splitAt, hc]
    · rw [hsplit] at ih
      simpa [splitAt, hc, hsplit] using ih

lemma cutFirst?_of_not_mem (h : mark ∉ cs) : cutFirst? mark cs = none := by
  induction cs with
  | nil => rfl
  | cons c rest ih =>
    rw [List.mem_cons, not_or] at h
    rw [cutFirst?, if_neg (Ne.symm h.1), ih h.2]
    rfl

lemma cutFirst?_append (after : List Char) (h : mark ∉ before) :
    cutFirst? mark (before ++ mark :: after) = some (before, after) := by
  induction before with
  | nil => exact if_pos rfl
  | cons c rest ih =>
    rw [List.mem_cons, not_or] at h
    rw [List.cons_append, cutFirst?, if_neg (Ne.symm h.1), ih h.2]
    rfl

lemma eq_of_append_mark_eq {before' after' : List Char} (h : mark ∉ before) (h' : mark ∉ before')
    (heq : before ++ mark :: after = before' ++ mark :: after') : before = before' ∧ after = after' := by
  have hcut := cutFirst?_append after h
  rw [heq, cutFirst?_append after' h'] at hcut
  obtain ⟨hbefore, hafter⟩ := Prod.mk.inj (Option.some.inj hcut)
  exact ⟨hbefore.symm, hafter.symm⟩

lemma cutLast?_of_not_mem (h : mark ∉ cs) : cutLast? mark cs = none := by
  induction cs with
  | nil => rfl
  | cons c rest ih =>
    rw [List.mem_cons, not_or] at h
    rw [cutLast?, ih h.2, if_neg (Ne.symm h.1)]

lemma cutLast?_append (before : List Char) (h : mark ∉ after) :
    cutLast? mark (before ++ mark :: after) = some (before, after) := by
  induction before with
  | nil => rw [List.nil_append, cutLast?, cutLast?_of_not_mem h, if_pos rfl]
  | cons c rest ih => rw [List.cons_append, cutLast?, ih]

lemma exists_last_mark (h : mark ∈ cs) : ∃ before after, cs = before ++ mark :: after ∧ mark ∉ after := by
  induction cs with
  | nil => cases h
  | cons c rest ih =>
    by_cases hrest : mark ∈ rest
    · obtain ⟨before, after, rfl, hafter⟩ := ih hrest
      exact ⟨c :: before, after, rfl, hafter⟩
    · obtain rfl := (List.mem_cons.mp h).resolve_right hrest
      exact ⟨[], rest, rfl, hrest⟩

lemma cutLast?_eq_some_iff : cutLast? mark cs = some (before, after) ↔ cs = before ++ mark :: after ∧ mark ∉ after := by
  constructor
  · intro h
    have hmem : mark ∈ cs := by
      rw [cutLast?_eq_some h]
      simp
    obtain ⟨before', after', rfl, hafter⟩ := exists_last_mark hmem
    obtain ⟨rfl, rfl⟩ := Prod.mk.inj (Option.some.inj ((cutLast?_append before' hafter).symm.trans h))
    exact ⟨rfl, hafter⟩
  · rintro ⟨rfl, hafter⟩
    exact cutLast?_append before hafter

lemma getLastD_splitAt (h : mark ∉ after) : (splitAt mark (before ++ mark :: after)).getLastD [] = after := by
  rw [splitAt_append_mark, splitAt_of_not_mem h, List.getLastD_concat]

/-- The last piece stands at the end, with nothing or a mark before it. -/
lemma exists_eq_append_last (mark : Char) (cs : List Char) :
    ∃ before, cs = before ++ (splitAt mark cs).getLastD [] ∧ (before = [] ∨ before.getLast? = some mark) ∧
      mark ∉ (splitAt mark cs).getLastD [] := by
  by_cases h : mark ∈ cs
  · obtain ⟨before, after, rfl, hafter⟩ := exists_last_mark h
    refine ⟨before ++ [mark], ?_, .inr (List.getLast?_concat ..), ?_⟩
    · rw [getLastD_splitAt hafter, List.append_assoc]
      rfl
    · rwa [getLastD_splitAt hafter]
  · refine ⟨[], ?_, .inl rfl, ?_⟩
    · rw [splitAt_of_not_mem h]
      rfl
    · rwa [splitAt_of_not_mem h]

lemma splitAt_eq_splitOn (mark : Char) (cs : List Char) : splitAt mark cs = cs.splitOn mark := by
  induction cs with
  | nil => simp [splitAt]
  | cons c rest ih =>
    rw [List.splitOn_cons_eq_if_modifyHead, ← ih, splitAt]
    by_cases hc : c = mark
    · simp [hc]
    · obtain ⟨piece, pieces, hsplit⟩ := List.exists_cons_of_ne_nil (splitAt_ne_nil mark rest)
      simp [hc, hsplit]

lemma not_mem_of_mem_splitAt (h : piece ∈ splitAt mark cs) : mark ∉ piece := by
  induction cs generalizing piece with
  | nil => simp [List.mem_singleton.mp h]
  | cons c rest ih =>
    by_cases hc : c = mark
    · rw [splitAt, if_pos hc] at h
      obtain rfl | hrest := List.mem_cons.mp h
      · simp
      · exact ih hrest
    · obtain ⟨first, later, hsplit⟩ := List.exists_cons_of_ne_nil (splitAt_ne_nil mark rest)
      simp only [splitAt, if_neg hc, hsplit] at h
      rw [hsplit] at ih
      obtain rfl | hlater := List.mem_cons.mp h
      · rw [List.mem_cons, not_or]
        exact ⟨Ne.symm hc, ih List.mem_cons_self⟩
      · exact ih (List.mem_cons_of_mem first hlater)

lemma intercalate_cons (piece : List Char) (h : pieces ≠ []) :
    [mark].intercalate (piece :: pieces) = piece ++ mark :: [mark].intercalate pieces := by
  obtain ⟨first, later, rfl⟩ := List.exists_cons_of_ne_nil h
  rw [List.intercalate_cons_cons, List.append_assoc]
  rfl

lemma intercalate_splitAt (mark : Char) (cs : List Char) : [mark].intercalate (splitAt mark cs) = cs := by
  rw [splitAt_eq_splitOn, List.intercalate_splitOn]

lemma splitAt_intercalate (hne : pieces ≠ []) (h : ∀ piece ∈ pieces, mark ∉ piece) :
    splitAt mark ([mark].intercalate pieces) = pieces := by
  rw [splitAt_eq_splitOn, List.splitOn_intercalate mark h hne]

/-- The marker stands between the two parts, and nowhere earlier. -/
structure IsFirstCut (marker cs before after : List Char) : Prop where
  eq : cs = before ++ marker ++ after
  first : ∀ i < before.length, ¬marker <+: cs.drop i

lemma isFirstCut_nil_iff {marker : List Char} : IsFirstCut marker cs [] after ↔ cs = marker ++ after :=
  ⟨fun h => h.eq, fun h => ⟨h, fun i hi => (Nat.not_lt_zero i hi).elim⟩⟩

lemma isFirstCut_cons_iff {marker : List Char} {c d : Char} : IsFirstCut marker (c :: cs) (d :: before) after ↔
    ¬marker <+: c :: cs ∧ c = d ∧ IsFirstCut marker cs before after := by
  constructor
  · rintro ⟨heq, hfirst⟩
    obtain ⟨rfl, hrest⟩ := List.cons.inj heq
    exact ⟨hfirst 0 (Nat.zero_lt_succ _), rfl, hrest, fun i hi => hfirst (i + 1) (Nat.succ_lt_succ hi)⟩
  · rintro ⟨hno, rfl, heq, hfirst⟩
    refine ⟨congrArg (c :: ·) heq, fun i hi => ?_⟩
    cases i with
    | zero => exact hno
    | succ i => exact hfirst i (Nat.lt_of_succ_lt_succ hi)

lemma cutText?_eq_some_iff {marker : List Char} :
    cutText? marker cs = some (before, after) ↔ IsFirstCut marker cs before after := by
  induction cs generalizing before with
  | nil =>
    cases before with
    | nil => simp [cutText?, isFirstCut_nil_iff, eq_comm]
    | cons d before =>
      refine ⟨fun h => ?_, fun h => (List.cons_ne_nil _ _ h.eq.symm).elim⟩
      simp [cutText?] at h
  | cons c rest ih =>
    unfold cutText?
    split_ifs with hprefix
    · have hyes : marker <+: c :: rest := List.isPrefixOf_iff_prefix.mp hprefix
      cases before with
      | nil =>
        obtain ⟨more, hmore⟩ := hyes
        simp [isFirstCut_nil_iff, ← hmore]
      | cons d before => simp [isFirstCut_cons_iff, hyes]
    · have hno : ¬marker <+: c :: rest := fun h => hprefix (List.isPrefixOf_iff_prefix.mpr h)
      cases before with
      | nil =>
        refine ⟨fun h => ?_, fun h => (hno ⟨after, (isFirstCut_nil_iff.mp h).symm⟩).elim⟩
        obtain ⟨cut, -, hcut⟩ := Option.map_eq_some_iff.mp h
        cases hcut
      | cons d before => simp [isFirstCut_cons_iff, hno, ← ih, and_comm]

lemma cutText?_eq_none_iff {marker : List Char} : cutText? marker cs = none ↔ ¬marker <:+: cs := by
  induction cs with
  | nil => simp [cutText?]
  | cons c rest ih =>
    rw [List.infix_cons_iff, not_or, ← ih, cutText?]
    split_ifs with hprefix
    · simp [List.isPrefixOf_iff_prefix.mp hprefix]
    · have hno : ¬marker <+: c :: rest := fun h => hprefix (List.isPrefixOf_iff_prefix.mpr h)
      simp [hno]

end CodeOutline.Text
