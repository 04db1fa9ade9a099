import CodeOutline.Proofs.Pattern.Leading
import CodeOutline.Proofs.Text.Trim

/-! The pieces of a text that blanks stand between, and the text put together from them. -/

namespace CodeOutline.Text

open Pattern

def pieces (text : List Char) : List (List Char) := (text.splitOnP isBlank).filter (· ≠ [])

def isInk (x : Char) : Bool := !isBlank x

/-- Any number of blanks, line ends among them. -/
def IsBlanks (text : List Char) : Prop := ∀ x ∈ text, isBlank x = true

variable {text piece rest blanks : List Char} {x : Char}

lemma IsBlanks.clear (h : IsBlanks text) (hrest : Clear isAsciiWord rest) : Clear isAsciiWord (text ++ rest) :=
  hrest.append fun x hx => isAsciiWord_of_isBlank (h x hx)

lemma pieces_append_blank (hx : isBlank x = true) (text rest : List Char) :
    pieces (text ++ x :: rest) = pieces text ++ pieces rest := by
  rw [pieces, List.splitOnP_append_cons _ _ hx, List.filter_append]
  rfl

lemma pieces_blanks_append (hblanks : ∀ x ∈ blanks, isBlank x = true) (text : List Char) :
    pieces (blanks ++ text) = pieces text := by
  induction blanks with
  | nil => rfl
  | cons x blanks ih =>
    obtain ⟨hx, hblanks⟩ := List.forall_mem_cons.mp hblanks
    exact (pieces_append_blank hx [] _).trans (ih hblanks)

lemma pieces_blanks (hblanks : ∀ x ∈ blanks, isBlank x = true) : pieces blanks = [] := by
  rw [← List.append_nil blanks, pieces_blanks_append hblanks]
  rfl

lemma pieces_of_isRun (h : IsRun isInk piece) : pieces piece = [piece] := by
  rw [pieces, List.splitOnP_eq_singleton fun x hx => by simpa [isInk] using h.2 x hx]
  simp [h.1]

lemma isBlank_of_clear (h : Clear isInk (x :: rest)) : isBlank x = true := by simpa [isInk] using clear_cons.mp h

lemma pieces_append_of_clear (h : IsRun isInk piece) (hrest : Clear isInk rest) :
    pieces (piece ++ rest) = piece :: pieces rest := by
  cases rest with
  | nil => rw [List.append_nil, pieces_of_isRun h, pieces_blanks (List.forall_mem_nil _)]
  | cons x rest =>
    have hx := isBlank_of_clear hrest
    rw [pieces_append_blank hx, pieces_of_isRun h]
    exact congrArg _ (pieces_append_blank hx [] rest).symm

/-- The first piece of a text, behind the blanks before it. -/
lemma exists_first_piece (text : List Char) : (∀ x ∈ text, isBlank x = true) ∨
    ∃ blanks piece rest, text = blanks ++ (piece ++ rest) ∧ (∀ x ∈ blanks, isBlank x = true) ∧ IsRun isInk piece ∧
      Clear isInk rest := by
  have hblanks : ∀ x ∈ text.takeWhile isBlank, isBlank x = true := fun x hx => List.all_eq_true.mp List.all_takeWhile x hx
  have htext : text = text.takeWhile isBlank ++ text.dropWhile isBlank := List.takeWhile_append_dropWhile.symm
  cases hrest : text.dropWhile isBlank with
  | nil =>
    rw [hrest, List.append_nil] at htext
    exact .inl fun x hx => hblanks x (htext ▸ hx)
  | cons x more =>
    have hx : isInk x = true := by
      have hhead := List.head?_dropWhile_not isBlank text
      rw [hrest] at hhead
      simpa [isInk] using hhead
    refine .inr ⟨_, (x :: more).takeWhile isInk, (x :: more).dropWhile isInk, ?_, hblanks, ⟨?_, fun y hy => ?_⟩, ?_⟩
    · rw [List.takeWhile_append_dropWhile, ← hrest, ← htext]
    · rw [List.takeWhile_cons_of_pos hx]
      exact List.cons_ne_nil _ _
    · exact List.all_eq_true.mp List.all_takeWhile y hy
    · rw [Clear, ← Bool.not_eq_true, Option.any_eq_true]
      rintro ⟨y, hy, hink⟩
      have hhead := List.head?_dropWhile_not isInk (x :: more)
      rw [hy] at hhead
      exact absurd hink (by simpa using hhead)

lemma forall_isBlank_of_pieces (h : pieces text = []) : ∀ x ∈ text, isBlank x = true := by
  rcases exists_first_piece text with hall | ⟨blanks, piece, rest, rfl, hblanks, hpiece, hrest⟩
  · exact hall
  · rw [pieces_blanks_append hblanks, pieces_append_of_clear hpiece hrest] at h
    cases h

/-- A piece that is not the last, and the blanks behind it. -/
def IsSpaced (text : List Char) : Prop := ∃ piece blanks, IsRun isInk piece ∧ IsRun isBlank blanks ∧ text = piece ++ blanks

lemma exists_spaced_of_pieces {last : List Char} {before : List (List Char)} (h : pieces text = before ++ [last]) :
    ∃ blanks spaced tail, text = blanks ++ (spaced ++ (last ++ tail)) ∧ (∀ x ∈ blanks, isBlank x = true) ∧
      Repeats IsSpaced spaced ∧ (before ≠ [] → spaced ≠ []) ∧ IsRun isInk last ∧ ∀ x ∈ tail, isBlank x = true := by
  induction before generalizing text with
  | nil =>
    rcases exists_first_piece text with hall | ⟨blanks, piece, rest, rfl, hblanks, hpiece, hrest⟩
    · rw [pieces_blanks hall] at h
      cases h
    · rw [pieces_blanks_append hblanks, pieces_append_of_clear hpiece hrest] at h
      obtain ⟨rfl, hnone⟩ := List.cons.inj h
      exact ⟨blanks, [], rest, rfl, hblanks, .nil, fun hne => absurd rfl hne, hpiece, forall_isBlank_of_pieces hnone⟩
  | cons first before ih =>
    rcases exists_first_piece text with hall | ⟨blanks, piece, rest, rfl, hblanks, hpiece, hrest⟩
    · rw [pieces_blanks hall] at h
      cases h
    · rw [pieces_blanks_append hblanks, pieces_append_of_clear hpiece hrest] at h
      obtain ⟨rfl, hmore⟩ := List.cons.inj h
      cases rest with
      | nil => exact absurd hmore.symm (by simp [pieces])
      | cons x rest =>
        -- the blank behind the piece ends it, and the rest is taken apart behind that blank
        have hx := isBlank_of_clear hrest
        obtain ⟨gap, spaced, tail, rfl, hgap, hspaced, -, hlast, htail⟩ :=
          ih ((pieces_append_blank hx [] rest).symm.trans hmore)
        refine ⟨blanks, (piece ++ x :: gap) ++ spaced, tail, by simp, hblanks, .cons ?_ hspaced, ?_, hlast, htail⟩
        · exact ⟨piece, x :: gap, hpiece, ⟨List.cons_ne_nil _ _, List.forall_mem_cons.mpr ⟨hx, hgap⟩⟩, rfl⟩
        · simp [hpiece.1]

end CodeOutline.Text
