import CodeOutline.Proofs.Recognition.InTurn
import CodeOutline.Proofs.Text.Split

/-! The lines of a text and the places where they start. -/

namespace CodeOutline

open Text

def linesOf (text : List Char) : List (List Char) := splitAt '\n' text

/-- Lines are counted from one. -/
def IsLineAt (text : List Char) (n : Nat) (line : List Char) : Prop := 0 < n ∧ (linesOf text)[n - 1]? = some line

/-- The text from a place to the end of its line. -/
def lineFrom (text : List Char) (place : Nat) : List Char := (text.drop place).takeWhile (· != '\n')

def lineNumber (text : List Char) (place : Nat) : Nat := (text.take place).count '\n' + 1

variable {text before rest line head : List Char} {place start n : Nat}

lemma length_linesOf (text : List Char) : (linesOf text).length = text.count '\n' + 1 := length_splitAt '\n' text

lemma IsLineAt.unique {other : List Char} (h : IsLineAt text n line) (h' : IsLineAt text n other) : line = other :=
  Option.some.inj (h.2.symm.trans h'.2)

lemma IsLineAt.le (h : IsLineAt text n line) : n ≤ text.count '\n' + 1 := by
  have hlt := (List.getElem?_eq_some_iff.mp h.2).1
  have hpos := h.1
  rw [length_linesOf] at hlt
  omega

/-- A newline parts the lines before it from those behind it. -/
lemma isLineAt_append_iff {after : List Char} : IsLineAt (before ++ '\n' :: after) n line ↔
    IsLineAt before n line ∨ ∃ m, IsLineAt after m line ∧ n = m + (before.count '\n' + 1) := by
  have hlines : linesOf (before ++ '\n' :: after) = linesOf before ++ linesOf after := splitAt_append_mark
  constructor
  · rintro ⟨hpos, hline⟩
    rw [hlines, List.getElem?_append, length_linesOf] at hline
    split at hline
    · exact .inl ⟨hpos, hline⟩
    · exact .inr ⟨n - (before.count '\n' + 1), ⟨by omega, by rwa [Nat.sub_right_comm]⟩, by omega⟩
  · rintro (h | ⟨m, ⟨hpos, hline⟩, rfl⟩)
    · refine ⟨h.1, ?_⟩
      rw [hlines, List.getElem?_append_left (List.getElem?_eq_some_iff.mp h.2).1]
      exact h.2
    · refine ⟨by omega, ?_⟩
      rw [hlines, List.getElem?_append_right (by rw [length_linesOf]; omega), length_linesOf, ← hline]
      congr 1
      omega

lemma lineNumber_append (before rest : List Char) :
    lineNumber (before ++ '\n' :: rest) (before.length + 1) = before.count '\n' + 2 := by
  have htake : (before ++ '\n' :: rest).take (before.length + 1) = before ++ ['\n'] := by
    rw [List.take_length_add_append, List.take_one, List.head?_cons, Option.toList_some]
  rw [lineNumber, htake, List.count_append, List.count_singleton_self]

lemma lineFrom_append (before rest : List Char) :
    lineFrom (before ++ '\n' :: rest) (before.length + 1) = rest.takeWhile (· != '\n') := by
  rw [lineFrom, List.drop_length_add_append, List.drop_one, List.tail_cons]

lemma isLineAt_start (text : List Char) : IsLineAt text (lineNumber text 0) (lineFrom text 0) :=
  ⟨Nat.succ_pos _, (List.head?_eq_getElem?).symm.trans (head?_splitAt '\n' text)⟩

lemma isLineAt_append (before rest : List Char) : IsLineAt (before ++ '\n' :: rest)
    (lineNumber (before ++ '\n' :: rest) (before.length + 1)) (lineFrom (before ++ '\n' :: rest) (before.length + 1)) := by
  rw [lineNumber_append, lineFrom_append]
  exact isLineAt_append_iff.mpr (.inr ⟨1, isLineAt_start rest, by omega⟩)

lemma exists_eq_append_of_getElem? {x : Char} (h : text[place]? = some x) :
    ∃ before rest, text = before ++ x :: rest ∧ before.length = place := by
  obtain ⟨hlt, hget⟩ := List.getElem?_eq_some_iff.mp h
  refine ⟨text.take place, text.drop (place + 1), ?_, List.length_take_of_le hlt.le⟩
  rw [← hget, ← List.drop_eq_getElem_cons hlt, List.take_append_drop]

lemma exists_eq_append_of_lt_count (h : n < text.count '\n') :
    ∃ before rest, text = before ++ '\n' :: rest ∧ before.count '\n' = n := by
  induction text generalizing n with
  | nil => cases h
  | cons x text ih =>
    by_cases hx : x = '\n'
    · subst hx
      cases n with
      | zero => exact ⟨[], text, rfl, rfl⟩
      | succ n =>
        rw [List.count_cons_self] at h
        obtain ⟨before, rest, rfl, hcount⟩ := ih (Nat.lt_of_succ_lt_succ h)
        exact ⟨'\n' :: before, rest, rfl, by rw [List.count_cons_self, hcount]⟩
    · rw [List.count_cons_of_ne hx] at h
      obtain ⟨before, rest, rfl, hcount⟩ := ih h
      exact ⟨x :: before, rest, rfl, by rw [List.count_cons_of_ne hx, hcount]⟩

lemma exists_eq_append_of_isLineStart (h : IsLineStart text place) (hpos : 0 < place) :
    ∃ before rest, text = before ++ '\n' :: rest ∧ place = before.length + 1 := by
  obtain ⟨before, rest, htext, hlength⟩ := exists_eq_append_of_getElem? (h.resolve_left hpos.ne')
  exact ⟨before, rest, htext, by omega⟩

lemma isLineAt_of_isLineStart (h : IsLineStart text place) :
    IsLineAt text (lineNumber text place) (lineFrom text place) := by
  rcases Nat.eq_zero_or_pos place with rfl | hpos
  · exact isLineAt_start text
  · obtain ⟨before, rest, rfl, rfl⟩ := exists_eq_append_of_isLineStart h hpos
    exact isLineAt_append before rest

lemma exists_isLineStart (h : IsLineAt text n line) :
    ∃ place, IsLineStart text place ∧ lineNumber text place = n ∧ lineFrom text place = line := by
  have hfound {place : Nat} (hstart : IsLineStart text place) (hnumber : lineNumber text place = n) :
      ∃ place, IsLineStart text place ∧ lineNumber text place = n ∧ lineFrom text place = line :=
    ⟨place, hstart, hnumber, (hnumber ▸ isLineAt_of_isLineStart hstart).unique h⟩
  obtain ⟨k, rfl⟩ : ∃ k, n = k + 1 := Nat.exists_eq_succ_of_ne_zero h.1.ne'
  cases k with
  | zero => exact hfound (.inl rfl) rfl
  | succ k =>
    obtain ⟨before, rest, rfl, rfl⟩ := exists_eq_append_of_lt_count (Nat.le_of_succ_le_succ h.le)
    refine hfound (.inr ?_) (lineNumber_append before rest)
    rw [Nat.add_sub_cancel, List.getElem?_append_right le_rfl, Nat.sub_self]
    rfl

/-- What follows a line. -/
def EndsLine (rest : List Char) : Prop := rest = [] ∨ ∃ more, rest = '\n' :: more

lemma exists_drop_eq_lineFrom_append (text : List Char) (place : Nat) :
    ∃ rest, text.drop place = lineFrom text place ++ rest ∧ EndsLine rest := by
  refine ⟨_, List.takeWhile_append_dropWhile.symm, ?_⟩
  generalize hrest : (text.drop place).dropWhile (· != '\n') = rest
  cases rest with
  | nil => exact .inl rfl
  | cons x more =>
    have hx := List.head?_dropWhile_not (· != '\n') (text.drop place)
    rw [hrest, List.head?_cons] at hx
    exact .inr ⟨more, by simpa using hx⟩

/-- Before the start of a line stands the end of the one before. -/
lemma newline_mem_of_isLineStart (h : IsLineStart text place) (hlt : start < place) :
    '\n' ∈ (text.drop start).take (place - start) := by
  have hnewline := h.resolve_left (Nat.ne_zero_of_lt hlt)
  refine List.mem_of_getElem? (i := place - 1 - start) ?_
  rw [List.getElem?_take_of_lt (by omega), List.getElem?_drop, ← hnewline]
  congr 1
  omega

lemma lineNumber_lt_of_isLineStart (h : IsLineStart text place) (hlt : start < place) :
    lineNumber text start < lineNumber text place := by
  have hsplit : text.take place = text.take start ++ (text.drop start).take (place - start) := by
    rw [← List.take_add, Nat.add_sub_cancel' hlt.le]
  rw [lineNumber, lineNumber, hsplit, List.count_append]
  have hpos := List.count_pos_iff.mpr (newline_mem_of_isLineStart h hlt)
  omega

lemma place_eq_of_lineNumber_eq (h : IsLineStart text start) (h' : IsLineStart text place)
    (hline : lineNumber text start = lineNumber text place) : start = place := by
  rcases Nat.lt_trichotomy start place with hlt | heq | hlt
  · exact absurd hline (lineNumber_lt_of_isLineStart h' hlt).ne
  · exact heq
  · exact absurd hline (lineNumber_lt_of_isLineStart h hlt).ne'

lemma prefix_takeWhile_iff {set : Char → Bool} (h : ∀ x ∈ head, set x = true) :
    head <+: text.takeWhile set ↔ head <+: text := by
  constructor
  · exact fun hbegins => hbegins.trans (List.takeWhile_prefix _)
  · rintro ⟨rest, rfl⟩
    rw [List.takeWhile_append_of_pos h]
    exact List.prefix_append ..

lemma prefix_lineFrom_iff (h : '\n' ∉ head) : head <+: lineFrom text place ↔ head <+: text.drop place :=
  prefix_takeWhile_iff fun _ hx => bne_iff_ne.mpr fun hnewline => h (hnewline ▸ hx)

end CodeOutline
