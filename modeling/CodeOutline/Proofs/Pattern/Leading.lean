import CodeOutline.Proofs.Pattern.Groups
import Mathlib.Data.List.TakeWhile
import Mathlib.Logic.Relation

/-! Where the matches of a pattern lead, told apart from what their groups hold: for each kind of pattern, the places
that it leads to and the texts that are read on the way. -/

namespace CodeOutline.Pattern

/-- Some match of `p` that starts at `c` stops at `d`. -/
def Leads (p : Pattern) (c d : Cursor) : Prop := ∃ m ∈ p.matchesAt c, m.stop = d

/-- The text does not go on with a character of the set. -/
def Clear (set : Char → Bool) (rest : List Char) : Prop := rest.head?.any set = false

def IsRun (set : Char → Bool) (text : List Char) : Prop := text ≠ [] ∧ ∀ x ∈ text, set x = true

instance (set : Char → Bool) (text : List Char) : Decidable (IsRun set text) :=
  decidable_of_iff (text ≠ [] ∧ text.all set = true) (and_congr_right fun _ => List.all_eq_true)

/-- A text of any number of pieces. -/
inductive Repeats (Piece : List Char → Prop) : List Char → Prop
  | nil : Repeats Piece []
  | cons {piece more} : Piece piece → Repeats Piece more → Repeats Piece (piece ++ more)

variable {p q body : Pattern} {set : Char → Bool} {c d : Cursor} {m : Match} {text rest : List Char}

lemma clear_cons {x : Char} : Clear set (x :: rest) ↔ set x = false := Iff.rfl

lemma IsRun.exists_cons (h : IsRun set text) : ∃ x more, text = x :: more ∧ set x = true := by
  cases text with
  | nil => exact absurd rfl h.1
  | cons x more => exact ⟨x, more, rfl, h.2 x List.mem_cons_self⟩

lemma Clear.append (hrest : Clear set rest) (h : ∀ x ∈ text, set x = false) : Clear set (text ++ rest) := by
  cases text with
  | nil => exact hrest
  | cons x more => exact h x List.mem_cons_self

/-- A run of one set ends a run of any other that has none of its characters. -/
lemma IsRun.clear {other : Char → Bool} (h : IsRun set text) (hset : ∀ x, set x = true → other x = false) :
    Clear other (text ++ rest) := by
  obtain ⟨x, more, rfl, hx⟩ := h.exists_cons
  exact hset x hx

lemma IsRun.clear_of_reads {other : Char → Bool} (h : IsRun set text) (hr : c.Reads text d)
    (hset : ∀ x, set x = true → other x = false) : Clear other c.rest := by
  rw [hr.rest_eq]
  exact h.clear hset

lemma takeWhile_append_of_clear (hrest : Clear set rest) (text : List Char) :
    (text ++ rest).takeWhile set = text.takeWhile set := by
  induction text with
  | nil =>
    cases rest with
    | nil => rfl
    | cons x rest => exact List.takeWhile_cons_of_neg (Bool.eq_false_iff.mp hrest)
  | cons x text ih => simp only [List.cons_append, List.takeWhile_cons, ih]

/-- A run that is taken as far as it goes is the same however the text is cut. -/
lemma eq_of_append_eq_of_clear {other rest' : List Char} (h : ∀ x ∈ text, set x = true) (h' : ∀ x ∈ other, set x = true)
    (hrest : Clear set rest) (hrest' : Clear set rest') (heq : text ++ rest = other ++ rest') :
    text = other ∧ rest = rest' := by
  have htake := congrArg (List.takeWhile set) heq
  rw [takeWhile_append_of_clear hrest, takeWhile_append_of_clear hrest', List.takeWhile_eq_self_iff.mpr h,
    List.takeWhile_eq_self_iff.mpr h'] at htake
  exact ⟨htake, List.append_cancel_left (htake ▸ heq)⟩

lemma leads_literal : (literal text).Leads c d ↔ c.Reads text d := by
  constructor
  · rintro ⟨m, hm, rfl⟩
    exact (mem_literal.mp hm).2
  · exact fun h => ⟨⟨[], d⟩, mem_literal.mpr ⟨rfl, h⟩, rfl⟩

lemma leads_one : (one set).Leads c d ↔ ∃ x, set x = true ∧ c.Reads [x] d := by
  simp only [Cursor.reads_singleton]
  constructor
  · rintro ⟨m, hm, rfl⟩
    exact (mem_one.mp hm).2
  · exact fun h => ⟨⟨[], d⟩, mem_one.mpr ⟨rfl, h⟩, rfl⟩

lemma leads_run_iff_eq_pass : (run set).Leads c d ↔ d = c.pass set := by
  constructor
  · rintro ⟨m, hm, rfl⟩
    rw [mem_run.mp hm]
  · rintro rfl
    exact ⟨⟨[], c.pass set⟩, mem_run.mpr rfl, rfl⟩

lemma leads_run : (run set).Leads c d ↔ ∃ mid, (∀ x ∈ mid, set x = true) ∧ c.Reads mid d ∧ Clear set d.rest := by
  rw [leads_run_iff_eq_pass]
  constructor
  · rintro rfl
    exact ⟨_, fun x hx => List.all_eq_true.mp List.all_takeWhile x hx, c.reads_pass set, c.head?_pass set⟩
  · rintro ⟨mid, hmid, hr, hclear⟩
    exact (Cursor.pass_eq hr hmid hclear).symm

lemma leads_seq : (seq p q).Leads c d ↔ ∃ e, p.Leads c e ∧ q.Leads e d := by
  constructor
  · rintro ⟨m, hm, rfl⟩
    obtain ⟨a, ha, b, hb, rfl⟩ := mem_seq.mp hm
    exact ⟨a.stop, ⟨a, ha, rfl⟩, b, hb, rfl⟩
  · rintro ⟨e, ⟨a, ha, rfl⟩, b, hb, rfl⟩
    exact ⟨a.append b, mem_seq.mpr ⟨a, ha, b, hb, rfl⟩, rfl⟩

lemma leads_either : (either p q).Leads c d ↔ p.Leads c d ∨ q.Leads c d := by
  simp only [Leads, mem_either, or_and_right, exists_or]

lemma leads_anyOf {ps : List Pattern} : (anyOf ps).Leads c d ↔ ∃ p ∈ ps, p.Leads c d := by
  induction ps with
  | nil => simp [anyOf, leads_one]
  | cons p ps ih =>
    cases ps with
    | nil => simp [anyOf]
    | cons q ps =>
      have hanyOf : anyOf (p :: q :: ps) = either p (anyOf (q :: ps)) := rfl
      simp only [hanyOf, leads_either, ih, List.mem_cons, exists_eq_or_imp]

lemma leads_edge : (edge set).Leads c d ↔ d = c ∧ atEdge set c = true := by
  constructor
  · rintro ⟨m, hm, rfl⟩
    obtain ⟨rfl, hc⟩ := mem_edge.mp hm
    exact ⟨rfl, hc⟩
  · rintro ⟨rfl, hc⟩
    exact ⟨⟨[], d⟩, mem_edge.mpr ⟨rfl, hc⟩, rfl⟩

lemma leads_optional : (optional p).Leads c d ↔ p.Leads c d ∨ d = c := by
  constructor
  · rintro ⟨m, hm, rfl⟩
    rcases mem_optional.mp hm with hm | rfl
    · exact .inl ⟨m, hm, rfl⟩
    · exact .inr rfl
  · rintro (⟨m, hm, rfl⟩ | rfl)
    · exact ⟨m, mem_optional.mpr (.inl hm), rfl⟩
    · exact ⟨⟨[], d⟩, mem_optional.mpr (.inr rfl), rfl⟩

lemma leads_star (hp : p.consumes = true) : (star p).Leads c d ↔ Relation.ReflTransGen p.Leads c d := by
  constructor
  · rintro ⟨m, hm, rfl⟩
    refine star_forall (P := fun m => Relation.ReflTransGen p.Leads c m.stop) .refl ?_ m hm
    exact fun m hm n hn => hm.tail ⟨n, hn, rfl⟩
  · intro h
    induction h using Relation.ReflTransGen.head_induction_on with
    | refl => exact ⟨⟨[], d⟩, by rw [matchesAt_star hp]; exact List.mem_append_right _ (List.mem_singleton_self _), rfl⟩
    | head hstep _ ih =>
      obtain ⟨m, hm, rfl⟩ := hstep
      obtain ⟨n, hn, rfl⟩ := ih
      refine ⟨m.append n, ?_, rfl⟩
      rw [matchesAt_star hp]
      exact List.mem_append_left _ (List.mem_flatMap.mpr ⟨m, hm, List.mem_map_of_mem hn⟩)

lemma leads_lineStart : lineStart.Leads c d ↔ d = c ∧ c.before = '\n' := by
  constructor
  · rintro ⟨m, hm, rfl⟩
    obtain ⟨rfl, hc⟩ := mem_lineStart.mp hm
    exact ⟨rfl, hc⟩
  · rintro ⟨rfl, hc⟩
    exact ⟨⟨[], d⟩, mem_lineStart.mpr ⟨rfl, hc⟩, rfl⟩

lemma leads_atLeastOne : (atLeastOne set).Leads c d ↔ ∃ mid, IsRun set mid ∧ c.Reads mid d ∧ Clear set d.rest := by
  rw [atLeastOne, leads_seq]
  constructor
  · rintro ⟨e, hone, hrun⟩
    obtain ⟨x, hx, hx'⟩ := leads_one.mp hone
    obtain ⟨mid, hmid, hr, hclear⟩ := leads_run.mp hrun
    exact ⟨x :: mid, ⟨List.cons_ne_nil _ _, List.forall_mem_cons.mpr ⟨hx, hmid⟩⟩, hx'.trans hr, hclear⟩
  · rintro ⟨mid, hrun, hr, hclear⟩
    obtain ⟨x, more, rfl, hx⟩ := hrun.exists_cons
    obtain ⟨e, hone, hmore⟩ := hr.split_head
    exact ⟨e, leads_one.mpr ⟨x, hx, hone⟩,
      leads_run.mpr ⟨more, fun y hy => hrun.2 y (List.mem_cons_of_mem _ hy), hmore, hclear⟩⟩

lemma leads_literal_atLeastOne : (all [literal text, atLeastOne set]).Leads c d ↔
    ∃ mid, IsRun set mid ∧ c.Reads (text ++ mid) d ∧ Clear set d.rest := by
  simp only [all, leads_seq, leads_literal, leads_atLeastOne]
  constructor
  · rintro ⟨e, hr, mid, hmid, hr', hclear⟩
    exact ⟨mid, hmid, hr.trans hr', hclear⟩
  · rintro ⟨mid, hmid, hr, hclear⟩
    obtain ⟨e, hr, hr'⟩ := hr.split
    exact ⟨e, hr, mid, hmid, hr', hclear⟩

lemma leads_atLeastOne_atLeastOne {other : Char → Bool} (hset : ∀ x, other x = true → set x = false) :
    (all [atLeastOne set, atLeastOne other]).Leads c d ↔
      ∃ first second, IsRun set first ∧ IsRun other second ∧ c.Reads (first ++ second) d ∧ Clear other d.rest := by
  simp only [all, leads_seq, leads_atLeastOne]
  constructor
  · rintro ⟨e, ⟨first, hfirst, hr, -⟩, second, hsecond, hr', hclear⟩
    exact ⟨first, second, hfirst, hsecond, hr.trans hr', hclear⟩
  · rintro ⟨first, second, hfirst, hsecond, hr, hclear⟩
    obtain ⟨e, hr, hr'⟩ := hr.split
    exact ⟨e, ⟨first, hfirst, hr, hsecond.clear_of_reads hr' hset⟩, second, hsecond, hr', hclear⟩

lemma leads_upToFirst {opening closing : Char} : (upToFirst opening closing).Leads c d ↔
    ∃ inner, closing ∉ inner ∧ c.Reads (opening :: inner ++ [closing]) d := by
  simp only [upToFirst, all, leads_seq, leads_one, beq_iff_eq, exists_eq_left]
  constructor
  · rintro ⟨e, hopening, f, hinner, hclosing⟩
    obtain ⟨inner, hall, hr, -⟩ := leads_run.mp hinner
    exact ⟨inner, fun h => by simpa using hall _ h, hopening.trans hr |>.trans hclosing⟩
  · rintro ⟨inner, hinner, hr⟩
    obtain ⟨f, hr, hclosing⟩ := hr.split
    obtain ⟨e, hopening, hr⟩ := hr.split_head
    refine ⟨e, hopening, f, leads_run.mpr ⟨inner, fun x hx => ?_, hr, ?_⟩, hclosing⟩
    · exact bne_iff_ne.mpr fun h => hinner (h ▸ hx)
    · rw [hclosing.rest_eq]
      exact clear_cons.mpr (bne_self_eq_false closing)

/-! Repetitions, piece by piece. -/

namespace Repeats

variable {Piece E : List Char → Prop}

lemma of_reflTransGen (hstep : ∀ c d, p.Leads c d → ∃ piece, Piece piece ∧ c.Reads piece d)
    (h : Relation.ReflTransGen p.Leads c d) : ∃ text, Repeats Piece text ∧ c.Reads text d := by
  induction h using Relation.ReflTransGen.head_induction_on with
  | refl => exact ⟨[], .nil, .refl⟩
  | head hlead _ ih =>
    obtain ⟨piece, hpiece, hr⟩ := hstep _ _ hlead
    obtain ⟨text, htext, hr'⟩ := ih
    exact ⟨piece ++ text, .cons hpiece htext, hr.trans hr'⟩

lemma ends_append (hbegins : ∀ piece rest, Piece piece → E (piece ++ rest)) (h : Repeats Piece text)
    (hrest : E rest) : E (text ++ rest) := by
  cases h with
  | nil => exact hrest
  | cons hpiece _ => exact List.append_assoc _ _ _ ▸ hbegins _ _ hpiece

/-- Each piece can be passed where the text goes on as it has to, and this is how every piece begins. -/
lemma reflTransGen (hstep : ∀ c d piece, Piece piece → c.Reads piece d → E d.rest → p.Leads c d)
    (hbegins : ∀ piece rest, Piece piece → E (piece ++ rest)) (h : Repeats Piece text) (hr : c.Reads text d)
    (hd : E d.rest) : Relation.ReflTransGen p.Leads c d := by
  induction h generalizing c with
  | nil =>
    cases hr
    exact .refl
  | cons hpiece hmore ih =>
    obtain ⟨e, hr, hr'⟩ := hr.split
    refine .head (hstep c e _ hpiece hr ?_) (ih hr')
    rw [hr'.rest_eq]
    exact hmore.ends_append hbegins hd

lemma imp_of_forall_mem {Other : List Char → Prop} {P : Char → Prop}
    (hpiece : ∀ piece, Piece piece → (∀ x ∈ piece, P x) → Other piece) (h : Repeats Piece text) (hall : ∀ x ∈ text, P x) :
    Repeats Other text := by
  induction h with
  | nil => exact .nil
  | cons hp _ ih =>
    obtain ⟨hfirst, hmore⟩ := List.forall_mem_append.mp hall
    exact .cons (hpiece _ hp hfirst) (ih hmore)

lemma forall_mem {P : Char → Prop} (hpiece : ∀ piece, Piece piece → ∀ x ∈ piece, P x) (h : Repeats Piece text) :
    ∀ x ∈ text, P x := by
  induction h with
  | nil => exact List.forall_mem_nil _
  | cons hp _ ih => exact List.forall_mem_append.mpr ⟨hpiece _ hp, ih⟩

end Repeats

/-! What the one group of a pattern holds. -/

lemma mem_seq_of_bodies_eq_nil (hp : p.bodies = []) :
    m ∈ (seq p q).matchesAt c ↔ ∃ d, p.Leads c d ∧ m ∈ q.matchesAt d := by
  rw [mem_seq]
  constructor
  · rintro ⟨a, ha, b, hb, rfl⟩
    have hgroups : a.append b = b := by rw [Match.append, groups_eq_nil hp ha, List.nil_append]
    exact ⟨a.stop, ⟨a, ha, rfl⟩, hgroups.symm ▸ hb⟩
  · rintro ⟨d, ⟨a, ha, rfl⟩, hm⟩
    exact ⟨a, ha, m, hm, by rw [Match.append, groups_eq_nil hp ha, List.nil_append]⟩

lemma mem_seq_group (hp : p.bodies = []) (hq : q.bodies = []) :
    m ∈ (seq (group p) q).matchesAt c ↔ ∃ d, p.Leads c d ∧ q.Leads d m.stop ∧ m.groups = [(c, d)] := by
  rw [mem_seq]
  constructor
  · rintro ⟨a, ha, b, hb, rfl⟩
    obtain ⟨n, hn, rfl⟩ := mem_group.mp ha
    refine ⟨n.stop, ⟨n, hn, rfl⟩, ⟨b, hb, rfl⟩, ?_⟩
    simp only [Match.append, groups_eq_nil hp hn, groups_eq_nil hq hb, List.append_nil]
  · rintro ⟨d, ⟨n, hn, rfl⟩, ⟨b, hb, hstop⟩, hgroups⟩
    refine ⟨_, mem_group.mpr ⟨n, hn, rfl⟩, b, hb, ?_⟩
    rcases m with ⟨groups, stop⟩
    simp only [Match.append, groups_eq_nil hp hn, groups_eq_nil hq hb, List.append_nil]
    rw [hstop, ← hgroups]

end CodeOutline.Pattern
