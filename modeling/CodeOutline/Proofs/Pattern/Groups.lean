import CodeOutline.Pattern.Build
import CodeOutline.Proofs.Pattern.Matching
import Mathlib.Data.List.Forall2

/-! What the groups of a match hold: texts that the bodies of the groups match. -/

namespace CodeOutline.Pattern

/-- The patterns between the marks of a group, in the order in which a match passes them. -/
def bodies : Pattern → List Pattern
  | seq p q | either p q => p.bodies ++ q.bodies
  | optional p | star p => p.bodies
  | group p => p :: p.bodies
  | literal _ | one _ | run _ | lineStart | edge _ => []

/-- Every match passes each group exactly once. -/
def steady : Pattern → Bool
  | seq p q => p.steady && q.steady
  | group p => p.steady
  | either p q => p.bodies.isEmpty && q.bodies.isEmpty
  | optional p | star p => p.bodies.isEmpty
  | literal _ | one _ | run _ | lineStart | edge _ => true

/-- A match of `p` can read exactly `text`. -/
def Spells (p : Pattern) (text : List Char) : Prop := ∃ c, ∃ m ∈ p.matchesAt c, c.Reads text m.stop

variable {p q : Pattern} {set : Char → Bool} {c : Cursor} {m : Match} {text : List Char}

lemma groups_eq_nil (hp : p.bodies = []) (hm : m ∈ p.matchesAt c) : m.groups = [] := by
  induction p generalizing c m with
  | literal text => exact (mem_literal.mp hm).1
  | one set => exact (mem_one.mp hm).1
  | run set => rw [mem_run.mp hm]
  | seq p q ihp ihq =>
    obtain ⟨hp, hq⟩ := List.append_eq_nil_iff.mp hp
    obtain ⟨a, ha, b, hb, rfl⟩ := mem_seq.mp hm
    simp only [Match.append, ihp hp ha, ihq hq hb, List.append_nil]
  | either p q ihp ihq =>
    obtain ⟨hp, hq⟩ := List.append_eq_nil_iff.mp hp
    exact (mem_either.mp hm).elim (ihp hp) (ihq hq)
  | optional p ih =>
    rcases mem_optional.mp hm with hm | rfl
    · exact ih hp hm
    · rfl
  | star p ih =>
    refine star_forall (P := fun m => m.groups = []) rfl ?_ m hm
    intro m hm n hn
    simp only [Match.append, hm, ih hp hn, List.append_nil]
  | group p => cases hp
  | lineStart => rw [(mem_lineStart.mp hm).1]
  | edge set => rw [(mem_edge.mp hm).1]

def Holds (c : Cursor) (g : Cursor × Cursor) (body : Pattern) : Prop :=
  (∃ mid, c.Reads mid g.1) ∧ ∃ n ∈ body.matchesAt g.1, n.stop = g.2

lemma Holds.of_reads {d : Cursor} {g : Cursor × Cursor} {mid : List Char} (hr : c.Reads mid d)
    (h : Holds d g p) : Holds c g p := by
  obtain ⟨⟨more, hr'⟩, hn⟩ := h
  exact ⟨⟨_, hr.trans hr'⟩, hn⟩

lemma groups_hold_of_bodies_eq_nil (hp : p.bodies = []) (hm : m ∈ p.matchesAt c) :
    List.Forall₂ (Holds c) m.groups p.bodies := by
  rw [groups_eq_nil hp hm, hp]
  exact .nil

lemma groups_hold (hp : p.steady = true) (hm : m ∈ p.matchesAt c) :
    List.Forall₂ (Holds c) m.groups p.bodies := by
  induction p generalizing c m with
  | literal text | one set | run set | lineStart | edge set => exact groups_hold_of_bodies_eq_nil rfl hm
  | optional p | star p => exact groups_hold_of_bodies_eq_nil (List.isEmpty_iff.mp hp) hm
  | either p q =>
    obtain ⟨hp, hq⟩ := Bool.and_eq_true _ _ |>.mp hp
    refine groups_hold_of_bodies_eq_nil ?_ hm
    simp [bodies, List.isEmpty_iff.mp hp, List.isEmpty_iff.mp hq]
  | seq p q ihp ihq =>
    obtain ⟨hp, hq⟩ := Bool.and_eq_true _ _ |>.mp hp
    obtain ⟨a, ha, b, hb, rfl⟩ := mem_seq.mp hm
    obtain ⟨mid, hr⟩ := reads_of_mem ha
    exact List.rel_append (ihp hp ha) ((ihq hq hb).imp fun _ _ => Holds.of_reads hr)
  | group p ih =>
    obtain ⟨n, hn, rfl⟩ := mem_group.mp hm
    exact .cons ⟨⟨[], .refl⟩, n, hn, rfl⟩ (ih hp hn)

lemma groupTexts_spelled (hp : p.steady = true) (hm : m ∈ p.matchesAt c) :
    List.Forall₂ (fun text body => body.Spells text ∧ ∃ before after, c.rest = before ++ (text ++ after))
      m.groupTexts p.bodies := by
  refine List.forall₂_map_left_iff.mpr ((groups_hold hp hm).imp fun g body h => ?_)
  obtain ⟨⟨before, hb⟩, n, hn, hs⟩ := h
  obtain ⟨own, hr⟩ := reads_of_mem hn
  have ht : g.1.textTo g.2 = own := by rw [← hs, hr.textTo_eq]
  rw [ht]
  exact ⟨⟨g.1, n, hn, hr⟩, before, n.stop.rest, by rw [hb.rest_eq, hr.rest_eq]⟩

lemma spells_literal (text read : List Char) (h : (literal text).Spells read) : read = text := by
  obtain ⟨c, m, hm, hr⟩ := h
  exact hr.mid_unique (mem_literal.mp hm).2

lemma spells_either (h : (either p q).Spells text) : p.Spells text ∨ q.Spells text := by
  obtain ⟨c, m, hm, hr⟩ := h
  exact (mem_either.mp hm).imp (fun hm => ⟨c, m, hm, hr⟩) fun hm => ⟨c, m, hm, hr⟩

lemma spells_optional (h : (optional p).Spells text) : p.Spells text ∨ text = [] := by
  obtain ⟨c, m, hm, hr⟩ := h
  rcases mem_optional.mp hm with hm | rfl
  · exact Or.inl ⟨c, m, hm, hr⟩
  · exact Or.inr (hr.mid_unique .refl)

lemma spells_seq (h : (seq p q).Spells text) :
    ∃ first second, text = first ++ second ∧ p.Spells first ∧ q.Spells second := by
  obtain ⟨c, m, hm, hr⟩ := h
  obtain ⟨a, ha, b, hb, rfl⟩ := mem_seq.mp hm
  obtain ⟨first, hf⟩ := reads_of_mem ha
  obtain ⟨second, hs⟩ := reads_of_mem hb
  exact ⟨first, second, hr.mid_unique (hf.trans hs), ⟨c, a, ha, hf⟩, a.stop, b, hb, hs⟩

lemma spells_anyOf {ps : List Pattern} (h : (anyOf ps).Spells text) : ∃ p ∈ ps, p.Spells text := by
  induction ps with
  | nil =>
    obtain ⟨c, m, hm, _⟩ := h
    obtain ⟨_, x, hx, _⟩ := mem_one.mp hm
    cases hx
  | cons p ps ih =>
    cases ps with
    | nil => exact ⟨p, List.mem_cons_self, h⟩
    | cons q ps =>
      rcases spells_either h with h | h
      · exact ⟨p, List.mem_cons_self, h⟩
      · obtain ⟨r, hr, h⟩ := ih h
        exact ⟨r, List.mem_cons_of_mem _ hr, h⟩

lemma spells_atLeastOne (h : (atLeastOne set).Spells text) : text ≠ [] ∧ ∀ x ∈ text, set x = true := by
  obtain ⟨c, m, hm, hr⟩ := h
  obtain ⟨a, ha, b, hb, rfl⟩ := mem_seq.mp hm
  obtain ⟨_, x, hx, hn⟩ := mem_one.mp ha
  rw [mem_run.mp hb] at hr
  have ht := hr.mid_unique (.step hn (a.stop.reads_pass set))
  rw [ht]
  refine ⟨List.cons_ne_nil _ _, fun y hy => ?_⟩
  rcases List.mem_cons.mp hy with rfl | hy
  · exact hx
  · exact List.all_eq_true.mp List.all_takeWhile y hy

end CodeOutline.Pattern
