import CodeOutline.Proofs.Pattern.Leading

/-! Where the matches of a pattern lead, together with what their groups hold. -/

namespace CodeOutline.Pattern

/-- Some match of `p` that starts at `c` stops at `d`, and its groups hold the given texts. -/
def Spans (p : Pattern) (c d : Cursor) (held : List (List Char)) : Prop :=
  ∃ m ∈ p.matchesAt c, m.stop = d ∧ m.groupTexts = held

variable {p q : Pattern} {c d : Cursor} {held : List (List Char)}

lemma spans_of_bodies_eq_nil (hp : p.bodies = []) : p.Spans c d held ↔ p.Leads c d ∧ held = [] := by
  constructor
  · rintro ⟨m, hm, rfl, rfl⟩
    exact ⟨⟨m, hm, rfl⟩, by rw [Match.groupTexts, groups_eq_nil hp hm, List.map_nil]⟩
  · rintro ⟨⟨m, hm, rfl⟩, rfl⟩
    exact ⟨m, hm, rfl, by rw [Match.groupTexts, groups_eq_nil hp hm, List.map_nil]⟩

lemma spans_seq : (seq p q).Spans c d held ↔
    ∃ e first second, p.Spans c e first ∧ q.Spans e d second ∧ held = first ++ second := by
  constructor
  · rintro ⟨m, hm, rfl, rfl⟩
    obtain ⟨a, ha, b, hb, rfl⟩ := mem_seq.mp hm
    exact ⟨a.stop, _, _, ⟨a, ha, rfl, rfl⟩, ⟨b, hb, rfl, rfl⟩, List.map_append⟩
  · rintro ⟨_, _, _, ⟨a, ha, rfl, rfl⟩, ⟨b, hb, rfl, rfl⟩, rfl⟩
    exact ⟨a.append b, mem_seq.mpr ⟨a, ha, b, hb, rfl⟩, rfl, List.map_append⟩

lemma spans_group (hp : p.bodies = []) :
    (group p).Spans c d held ↔ ∃ text, p.Leads c d ∧ c.Reads text d ∧ held = [text] := by
  constructor
  · rintro ⟨m, hm, rfl, rfl⟩
    obtain ⟨n, hn, rfl⟩ := mem_group.mp hm
    obtain ⟨text, hr⟩ := reads_of_mem hn
    refine ⟨text, ⟨n, hn, rfl⟩, hr, ?_⟩
    rw [Match.groupTexts, groups_eq_nil hp hn, List.map_singleton, hr.textTo_eq]
  · rintro ⟨text, ⟨n, hn, rfl⟩, hr, rfl⟩
    refine ⟨_, mem_group.mpr ⟨n, hn, rfl⟩, rfl, ?_⟩
    rw [Match.groupTexts, groups_eq_nil hp hn, List.map_singleton, hr.textTo_eq]

lemma spans_seq_of_bodies_eq_nil (hp : p.bodies = []) :
    (seq p q).Spans c d held ↔ ∃ e, p.Leads c e ∧ q.Spans e d held := by
  rw [spans_seq]
  constructor
  · rintro ⟨e, first, second, hfirst, hsecond, rfl⟩
    obtain ⟨hlead, rfl⟩ := (spans_of_bodies_eq_nil hp).mp hfirst
    exact ⟨e, hlead, hsecond⟩
  · rintro ⟨e, hlead, hq⟩
    exact ⟨e, [], held, (spans_of_bodies_eq_nil hp).mpr ⟨hlead, rfl⟩, hq, rfl⟩

lemma spans_seq_group (hp : p.bodies = []) : (seq (group p) q).Spans c d held ↔
    ∃ e text more, p.Leads c e ∧ c.Reads text e ∧ q.Spans e d more ∧ held = text :: more := by
  simp only [spans_seq, spans_group hp]
  constructor
  · rintro ⟨e, _, more, ⟨text, hlead, hr, rfl⟩, hq, rfl⟩
    exact ⟨e, text, more, hlead, hr, hq, rfl⟩
  · rintro ⟨e, text, more, hlead, hr, hq, rfl⟩
    exact ⟨e, [text], more, ⟨text, hlead, hr, rfl⟩, hq, rfl⟩

end CodeOutline.Pattern
