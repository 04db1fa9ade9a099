/-! Sets of characters written as increasing lists of closed ranges of code points. -/

namespace CodeOutline.Text

/-- The search stops at the first range that begins above `n`, so the ranges have to increase. -/
def inRanges : List (Nat × Nat) → Nat → Bool
  | [], _ => false
  | (first, last) :: rest, n =>
    if n < first then false else if n ≤ last then true else inRanges rest n

/-- Ranges that do not overlap and stand in increasing order, all above `least`. -/
def Increasing (least : Nat) : List (Nat × Nat) → Prop
  | [] => True
  | (first, last) :: rest => least ≤ first ∧ first ≤ last ∧ Increasing (last + 1) rest

theorem not_mem_of_lt_of_increasing {least n : Nat} {ranges : List (Nat × Nat)}
    (h : Increasing least ranges) (hn : n < least) :
    ¬ ∃ r ∈ ranges, r.1 ≤ n ∧ n ≤ r.2 := by
  induction ranges generalizing least with
  | nil => simp
  | cons r rest ih =>
    obtain ⟨hl, hr, hrest⟩ := h
    have := ih hrest (by omega)
    grind

theorem inRanges_iff {least n : Nat} {ranges : List (Nat × Nat)} (h : Increasing least ranges) :
    inRanges ranges n = true ↔ ∃ r ∈ ranges, r.1 ≤ n ∧ n ≤ r.2 := by
  induction ranges generalizing least with
  | nil => simp [inRanges]
  | cons r rest ih =>
    obtain ⟨_, hr, hrest⟩ := h
    have hi := ih hrest
    have hb := not_mem_of_lt_of_increasing (n := n) hrest
    unfold inRanges
    grind

end CodeOutline.Text
