import CodeOutline.Pattern.Build
import CodeOutline.Proofs.Pattern.Following

/-! Patterns on blank text: on a line of tabs and spaces, before a text, and in the blank text behind it. -/

namespace CodeOutline

open Pattern

def isMargin (x : Char) : Bool := isTabOrSpace x || x == '\n'

lemma isMargin_iff (x : Char) : isMargin x = true ↔ x = ' ' ∨ x = '\t' ∨ x = '\n' := by
  simp [isMargin, isTabOrSpace, or_assoc]

def Cursor.OnBlankLine (c : Cursor) : Prop :=
  ∃ padding rest, c.rest = padding ++ '\n' :: rest ∧ ∀ x ∈ padding, isTabOrSpace x = true

namespace Cursor.OnBlankLine

variable {c d : Cursor} {x : Char}

lemma isMargin_next (h : c.OnBlankLine) (hn : c.next? = some (x, d)) : isMargin x = true := by
  obtain ⟨padding, rest, hr, hp⟩ := h
  rw [((next?_eq_some_iff _ _ _).mp hn).1] at hr
  cases padding with
  | nil => simp [isMargin, (List.cons.inj hr).1]
  | cons y padding => simp [isMargin, (List.cons.inj hr).1, hp y List.mem_cons_self]

lemma next (h : c.OnBlankLine) (hn : c.next? = some (x, d)) (hx : x ≠ '\n') : d.OnBlankLine := by
  obtain ⟨padding, rest, hr, hp⟩ := h
  rw [((next?_eq_some_iff _ _ _).mp hn).1] at hr
  cases padding with
  | nil => exact absurd (List.cons.inj hr).1 hx
  | cons y padding => exact ⟨padding, rest, (List.cons.inj hr).2, fun z hz => hp z (List.mem_cons_of_mem _ hz)⟩

lemma reads {mid : List Char} (h : c.OnBlankLine) (hr : c.Reads mid d) (hm : '\n' ∉ mid) : d.OnBlankLine := by
  induction hr with
  | refl => exact h
  | step hn _ ih =>
    obtain ⟨hx, hm⟩ := not_or.mp (mt List.mem_cons.mpr hm)
    exact ih (h.next hn (Ne.symm hx)) hm

end Cursor.OnBlankLine

/-- What a pattern makes of a blank line: no match starts on it; matches stop on it; or they may stop behind
it. -/
inductive Margin where
  | refuses
  | stays
  | leaves
deriving DecidableEq

namespace Margin

def andThen : Margin → Margin → Margin
  | refuses, _ => refuses
  | stays, second => second
  | leaves, _ => leaves

def orElse : Margin → Margin → Margin
  | refuses, second => second
  | leaves, _ => leaves
  | stays, leaves => leaves
  | stays, _ => stays

end Margin

namespace Pattern

def clear (set : Char → Bool) : Bool := !set ' ' && !set '\t' && !set '\n'

lemma not_set_of_clear {set : Char → Bool} (hs : clear set = true) {x : Char} (hx : isMargin x = true) :
    set x = false := by
  simp only [clear, Bool.and_eq_true, Bool.not_eq_true'] at hs
  rcases (isMargin_iff x).mp hx with rfl | rfl | rfl
  · exact hs.1.1
  · exact hs.1.2
  · exact hs.2

def margin : Pattern → Margin
  | literal [] => .stays
  | literal (x :: _) => if isMargin x then .leaves else .refuses
  | one set => if clear set then .refuses else .leaves
  | run set => if set '\n' then .leaves else .stays
  | seq p q => p.margin.andThen q.margin
  | either p q => p.margin.orElse q.margin
  | optional p | star p => Margin.stays.orElse p.margin
  | group p => p.margin
  | lineStart | edge _ => .stays

/-- What `margin` promises of a match that starts on a blank line. -/
def Heeds (k : Margin) (stop : Cursor) : Prop := k ≠ .refuses ∧ (k = .stays → stop.OnBlankLine)

lemma Heeds.orElse_left {k l : Margin} {stop : Cursor} (h : Heeds k stop) : Heeds (k.orElse l) stop := by
  cases k <;> cases l <;> simp_all [Heeds, Margin.orElse]

lemma Heeds.orElse_right {k l : Margin} {stop : Cursor} (h : Heeds l stop) : Heeds (k.orElse l) stop := by
  cases k <;> cases l <;> simp_all [Heeds, Margin.orElse]

lemma Heeds.andThen {k l : Margin} {mid stop : Cursor} (h : Heeds k mid)
    (h' : mid.OnBlankLine → Heeds l stop) : Heeds (k.andThen l) stop := by
  cases k with
  | refuses => exact absurd rfl h.1
  | stays => exact h' (h.2 rfl)
  | leaves => exact ⟨nofun, nofun⟩

variable {p : Pattern} {c : Cursor} {m : Match} {set : Char → Bool}

lemma heeds_of_mem_one (hc : c.OnBlankLine) (hm : m ∈ (one set).matchesAt c) : Heeds (one set).margin m.stop := by
  obtain ⟨_, x, hx, hn⟩ := mem_one.mp hm
  have hs : clear set = false := by
    refine Bool.eq_false_iff.mpr fun hs => ?_
    simp [not_set_of_clear hs (hc.isMargin_next hn)] at hx
  simp [Heeds, margin, hs]

lemma heeds_of_mem_run (hc : c.OnBlankLine) (hm : m ∈ (run set).matchesAt c) : Heeds (run set).margin m.stop := by
  obtain rfl := mem_run.mp hm
  by_cases hs : set '\n' = true
  · simp [Heeds, margin, hs]
  · simp only [Heeds, margin, if_neg hs]
    refine ⟨nofun, fun _ => hc.reads (c.reads_pass set) fun hn => hs ?_⟩
    exact List.all_eq_true.mp List.all_takeWhile _ hn

lemma heeds_of_mem (hc : c.OnBlankLine) (hm : m ∈ p.matchesAt c) : Heeds p.margin m.stop := by
  induction p generalizing c m with
  | literal text =>
    have hr := (mem_literal.mp hm).2
    cases hr with
    | refl => exact ⟨nofun, fun _ => hc⟩
    | step hn _ => simp [Heeds, margin, hc.isMargin_next hn]
  | one set => exact heeds_of_mem_one hc hm
  | run set => exact heeds_of_mem_run hc hm
  | seq p q ihp ihq =>
    obtain ⟨a, ha, b, hb, rfl⟩ := mem_seq.mp hm
    have hq : a.stop.OnBlankLine → Heeds q.margin b.stop := fun hstop => ihq hstop hb
    exact (ihp hc ha).andThen hq
  | either p q ihp ihq =>
    rcases mem_either.mp hm with hm | hm
    · exact (ihp hc hm).orElse_left
    · exact (ihq hc hm).orElse_right
  | optional p ih =>
    rcases mem_optional.mp hm with hm | rfl
    · exact (ih hc hm).orElse_right
    · exact Heeds.orElse_left ⟨nofun, fun _ => hc⟩
  | star p ih =>
    refine star_forall (P := fun m => Heeds (star p).margin m.stop) ?_ ?_ m hm
    · exact Heeds.orElse_left ⟨nofun, fun _ => hc⟩
    · intro m hm n hn
      cases hk : p.margin with
      | leaves => simp [Heeds, margin, Margin.orElse, hk]
      | stays | refuses =>
        have hstop := hm.2 (by simp [margin, Margin.orElse, hk])
        exact (ih hstop hn).orElse_right
  | group p ih =>
    obtain ⟨n, hn, rfl⟩ := mem_group.mp hm
    have hp := ih hc hn
    exact hp
  | lineStart =>
    rw [(mem_lineStart.mp hm).1]
    exact ⟨nofun, fun _ => hc⟩
  | edge set =>
    rw [(mem_edge.mp hm).1]
    exact ⟨nofun, fun _ => hc⟩

lemma matchAt?_of_onBlankLine (hp : p.margin = .refuses) (hc : c.OnBlankLine) : p.matchAt? c = none := by
  cases h : p.matchAt? c with
  | none => rfl
  | some m => exact absurd hp (heeds_of_mem hc (mem_of_matchAt? h)).1

lemma Search.of_blank_line (hp : p.margin = .refuses) {hits : List (Cursor × Match)} {line : List Char}
    (hl : ∀ x ∈ line, isTabOrSpace x = true) {d : Cursor} (hr : c.Reads (line ++ ['\n']) d)
    (h : Search p d hits) : Search p c hits := by
  have hc : c.OnBlankLine := ⟨line, d.rest, by simpa using hr.rest_eq, hl⟩
  induction line generalizing c with
  | nil =>
    cases hr with
    | step hn hr =>
      cases hr
      exact .passed (matchAt?_of_onBlankLine hp hc) hn h
  | cons x line ih =>
    cases hr with
    | step hn hr =>
      have hx : x ≠ '\n' := by
        rintro rfl
        exact absurd (hl _ List.mem_cons_self) (by decide)
      exact .passed (matchAt?_of_onBlankLine hp hc) hn
        (ih (fun y hy => hl y (List.mem_cons_of_mem _ hy)) hr (hc.next hn hx))

lemma Search.of_blank_lines (hp : p.margin = .refuses) {hits : List (Cursor × Match)} {lines : List (List Char)}
    (hl : ∀ line ∈ lines, ∀ x ∈ line, isTabOrSpace x = true) {d : Cursor}
    (hr : c.Reads (lines.flatMap (· ++ ['\n'])) d) (h : Search p d hits) : Search p c hits := by
  induction lines generalizing c with
  | nil =>
    cases hr
    exact h
  | cons line lines ih =>
    rw [List.flatMap_cons] at hr
    obtain ⟨e, hline, hlines⟩ := hr.split
    exact .of_blank_line hp (hl line List.mem_cons_self) hline
      (ih (fun other ho => hl other (List.mem_cons_of_mem _ ho)) hlines)

end Pattern

end CodeOutline
