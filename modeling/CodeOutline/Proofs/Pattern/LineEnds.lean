import CodeOutline.Proofs.Pattern.Margin

/-! Ending every line with a carriage return and a newline instead of a newline alone. -/

namespace CodeOutline

def Text.crlf (text : List Char) : List Char :=
  text.flatMap fun x => if x = '\n' then ['\r', '\n'] else [x]

namespace Text

lemma crlf_append (text more : List Char) : crlf (text ++ more) = crlf text ++ crlf more := List.flatMap_append

lemma crlf_cons_newline (rest : List Char) : crlf ('\n' :: rest) = '\r' :: '\n' :: crlf rest := rfl

lemma crlf_cons_of_ne {x : Char} (hx : x ≠ '\n') (rest : List Char) : crlf (x :: rest) = x :: crlf rest := by
  simp [crlf, hx]

lemma crlf_of_not_mem {text : List Char} (h : '\n' ∉ text) : crlf text = text := by
  induction text with
  | nil => rfl
  | cons x rest ih =>
    obtain ⟨hx, hr⟩ := not_or.mp (mt List.mem_cons.mpr h)
    rw [crlf_cons_of_ne (Ne.symm hx), ih hr]

lemma count_newline_crlf (text : List Char) : (crlf text).count '\n' = text.count '\n' := by
  induction text with
  | nil => rfl
  | cons x rest ih =>
    by_cases hx : x = '\n'
    · rw [hx, crlf_cons_newline]
      simp [ih]
    · rw [crlf_cons_of_ne hx]
      simp [hx, ih]

lemma eq_append_of_crlf {rest mid more : List Char} (hm : ∀ x ∈ mid, x ≠ '\n' ∧ x ≠ '\r')
    (h : crlf rest = mid ++ more) : ∃ after, rest = mid ++ after := by
  induction mid generalizing rest with
  | nil => exact ⟨rest, rfl⟩
  | cons x mid ih =>
    have hx := hm x List.mem_cons_self
    cases rest with
    | nil => cases h
    | cons y rest =>
      by_cases hy : y = '\n'
      · rw [hy, crlf_cons_newline] at h
        exact absurd (List.cons.inj h).1.symm hx.2
      · rw [crlf_cons_of_ne hy] at h
        obtain ⟨rfl, hr⟩ := List.cons.inj h
        obtain ⟨after, ha⟩ := ih (fun z hz => hm z (List.mem_cons_of_mem _ hz)) hr
        exact ⟨after, by rw [ha, List.cons_append]⟩

lemma set_of_mem_crlf {set : Char → Bool} (hs : set '\n' = set '\r') {text : List Char}
    (ht : ∀ x ∈ text, set x = true) : ∀ x ∈ crlf text, set x = true := by
  intro x hx
  obtain ⟨y, hy, hx⟩ := List.mem_flatMap.mp hx
  have hset := ht y hy
  split at hx
  · next h =>
    subst h
    rcases List.mem_cons.mp hx with rfl | hx
    · rw [← hs, hset]
    · rw [List.mem_singleton.mp hx, hset]
  · rw [List.mem_singleton.mp hx, hset]

lemma head?_crlf {set : Char → Bool} (hs : set '\n' = set '\r') (rest : List Char) :
    (crlf rest).head?.any set = rest.head?.any set := by
  cases rest with
  | nil => rfl
  | cons x rest =>
    by_cases hx : x = '\n'
    · simp [hx, crlf_cons_newline, hs]
    · simp [crlf_cons_of_ne hx]

end Text

open Text

def Change.crlf : Change where
  apply := Text.crlf
  counts _ := true
  counts_apply _ := rfl
  counts_append _ _ _ := rfl

namespace Cursor

variable {c d e : Cursor} {mid : List Char} {x : Char}

lemma Alike.next_of_ne (h : c.Alike crlf d) (hn : c.next? = some (x, e)) (hx : x ≠ '\n') :
    ∃ f, d.next? = some (x, f) ∧ e.Alike crlf f := by
  obtain ⟨hr, _, _, hb⟩ := (next?_eq_some_iff _ _ _).mp hn
  obtain ⟨f, hf, hfr⟩ := d.exists_next x (crlf e.rest) (by rw [h.rest, hr, crlf_cons_of_ne hx])
  exact ⟨f, hf, ((next?_eq_some_iff _ _ _).mp hf).2.2.2.trans hb.symm, hfr⟩

lemma Alike.next_newline (h : c.Alike crlf d) (hn : c.next? = some ('\n', e)) :
    ∃ between f, d.next? = some ('\r', between) ∧ between.next? = some ('\n', f) ∧ e.Alike crlf f := by
  obtain ⟨hr, _, _, hb⟩ := (next?_eq_some_iff _ _ _).mp hn
  obtain ⟨between, hd, hm⟩ := d.exists_next '\r' ('\n' :: crlf e.rest) (by rw [h.rest, hr, crlf_cons_newline])
  obtain ⟨f, hf, hfr⟩ := between.exists_next '\n' (crlf e.rest) hm
  exact ⟨between, f, hd, hf, ((next?_eq_some_iff _ _ _).mp hf).2.2.2.trans hb.symm, hfr⟩

lemma Alike.reads_crlf (h : c.Alike crlf d) (hr : c.Reads mid e) :
    ∃ f, d.Reads (crlf mid) f ∧ e.Alike crlf f := by
  induction hr generalizing d with
  | refl => exact ⟨d, .refl, h⟩
  | @step c x later mid e hn _ ih =>
    by_cases hx : x = '\n'
    · subst hx
      obtain ⟨between, f, hb, hf, hl⟩ := h.next_newline hn
      obtain ⟨g, hg, he⟩ := ih hl
      exact ⟨g, .step hb (.step hf hg), he⟩
    · obtain ⟨f, hf, hl⟩ := h.next_of_ne hn hx
      obtain ⟨g, hg, he⟩ := ih hl
      rw [crlf_cons_of_ne hx]
      exact ⟨g, .step hf hg, he⟩

lemma Alike.pass_crlf {set : Char → Bool} (h : c.Alike crlf d) (hs : set '\n' = set '\r') :
    (c.pass set).Alike crlf (d.pass set) := by
  obtain ⟨f, hf, hef⟩ := h.reads_crlf (c.reads_pass set)
  have hset := set_of_mem_crlf hs (List.all_eq_true.mp (List.all_takeWhile (p := set) (l := c.rest)))
  have hhead : f.rest.head?.any set = false := by rw [hef.rest, head?_crlf hs, c.head?_pass]
  rw [pass_eq hf hset hhead]
  exact hef

end Cursor

namespace Pattern

/-- One character and then a run, where the run takes the rest of a line end that was begun. -/
def passesLineEnds : Pattern → Pattern → Bool
  | one s, run t => s '\n' == s '\r' && t '\n' == t '\r' && (!s '\n' || t '\n')
  | _, _ => false

/-- The pattern makes no difference between the two ways to end a line. -/
def blind : Pattern → Bool
  | literal text => text.all fun x => x != '\n' && x != '\r'
  | one set => !set '\n' && !set '\r'
  | run set | edge set => set '\n' == set '\r'
  | lineStart => true
  | seq p q => passesLineEnds p q || p.blind && q.blind
  | either p q => p.blind && q.blind
  | optional p | group p => p.blind
  | star p => p.consumes && p.blind

variable {p q : Pattern} {c d : Cursor} {mid : List Char}

lemma crlf_keeps (hm : ∀ x ∈ mid, x ≠ '\n' ∧ x ≠ '\r') : Change.crlf.Keeps mid where
  forth c d e h hr := by
    have hnone : '\n' ∉ mid := fun hn => (hm _ hn).1 rfl
    have hd := h.reads_crlf hr
    rwa [crlf_of_not_mem hnone] at hd
  back c d f h hr _ := by
    obtain ⟨after, hc⟩ := eq_append_of_crlf hm (h.rest.symm.trans hr.rest_eq)
    obtain ⟨e, he, _⟩ := c.exists_reads mid after hc
    exact ⟨e, he⟩

lemma matchesAt_one_run {s t : Char → Bool} {x : Char} {e : Cursor} (hn : c.next? = some (x, e)) :
    (seq (one s) (run t)).matchesAt c = if s x then [⟨[], e.pass t⟩] else [] := by
  simp only [matchesAt, hn]
  split <;> rfl

lemma matchesAt_one_run_nil {s t : Char → Bool} (hn : c.next? = none) :
    (seq (one s) (run t)).matchesAt c = [] := by
  simp [matchesAt, hn]

lemma follows_one_run {s t : Char → Bool} (hs : s '\n' = s '\r') (ht : t '\n' = t '\r')
    (hst : s '\n' = true → t '\n' = true) : Follows .crlf (seq (one s) (run t)) := by
  refine Follows.of_forall₂ fun c d hcd => ?_
  cases hn : c.next? with
  | none =>
    have hd : d.next? = none := by
      rw [d.next?_eq_none_iff, hcd.rest, (c.next?_eq_none_iff).mp hn]
      rfl
    rw [matchesAt_one_run_nil hn, matchesAt_one_run_nil hd]
    exact .nil
  | some next =>
    obtain ⟨x, e⟩ := next
    rw [matchesAt_one_run hn]
    by_cases hx : x = '\n'
    · subst hx
      obtain ⟨between, f, hb, hf, hef⟩ := hcd.next_newline hn
      rw [matchesAt_one_run hb, ← hs]
      split
      · next h =>
        rw [Cursor.pass_of_next hf (hst h)]
        exact Follows.empty (hef.pass_crlf ht)
      · exact .nil
    · obtain ⟨f, hf, hef⟩ := hcd.next_of_ne hn hx
      rw [matchesAt_one_run hf]
      split
      · exact Follows.empty (hef.pass_crlf ht)
      · exact .nil

lemma follows_of_passesLineEnds (h : passesLineEnds p q = true) : Follows .crlf (seq p q) := by
  unfold passesLineEnds at h
  split at h
  · next s t =>
    simp only [Bool.and_eq_true, beq_iff_eq, Bool.or_eq_true, Bool.not_eq_true'] at h
    exact follows_one_run h.1.1 h.1.2 fun hn => h.2.resolve_left (by simp [hn])
  · cases h

lemma follows_of_blind (hp : p.blind = true) : Follows .crlf p := by
  induction p with
  | literal text =>
    refine .literal (crlf_keeps fun x hx => ?_)
    simpa using List.all_eq_true.mp hp x hx
  | one set =>
    simp only [blind, Bool.and_eq_true, Bool.not_eq_true'] at hp
    refine .one fun x hx => crlf_keeps fun y hy => ?_
    rw [List.mem_singleton.mp hy]
    exact ⟨fun h => by simp [h, hp.1] at hx, fun h => by simp [h, hp.2] at hx⟩
  | run set => exact .run fun c d hcd => Or.inl (hcd.pass_crlf (beq_iff_eq.mp hp))
  | lineStart => exact .lineStart
  | edge set => exact .edge (head?_crlf (beq_iff_eq.mp hp))
  | seq p q ihp ihq =>
    rcases Bool.or_eq_true _ _ |>.mp hp with h | h
    · exact follows_of_passesLineEnds h
    · obtain ⟨hp, hq⟩ := Bool.and_eq_true _ _ |>.mp h
      exact .seq (ihp hp) (ihq hq)
  | either p q ihp ihq =>
    obtain ⟨hp, hq⟩ := Bool.and_eq_true _ _ |>.mp hp
    exact .either (ihp hp) (ihq hq)
  | optional p ih => exact .optional (ih hp)
  | group p ih => exact .group (ih hp)
  | star p ih =>
    obtain ⟨hc, hp⟩ := Bool.and_eq_true _ _ |>.mp hp
    exact .star hc (ih hp)

lemma Search.crlf (hp : p.blind = true) (hm : p.margin = .refuses) {hits : List (Cursor × Match)}
    (h : Search p c hits) (hcd : c.Alike Text.crlf d) :
    ∃ others, Search p d others ∧ List.Forall₂ (HitAlike Text.crlf) hits others := by
  refine Search.follow (k := .crlf) (fun _ => rfl) (follows_of_blind hp) ?_ ?_ h hcd
  · intro c d x e hcd hd hn
    by_cases hx : x = '\n'
    · subst hx
      obtain ⟨between, f, hb, hf, hef⟩ := hcd.next_newline hn
      -- no match starts between the two characters of a line end
      have hblank : between.OnBlankLine := ⟨[], f.rest, ((Cursor.next?_eq_some_iff _ _ _).mp hf).1, by simp⟩
      exact ⟨f, hef, fun _ h => .passed hd hb (.passed (matchAt?_of_onBlankLine hm hblank) hf h)⟩
    · obtain ⟨f, hf, hef⟩ := hcd.next_of_ne hn hx
      exact ⟨f, hef, fun _ => .passed hd hf⟩
  · intro c d hcd hd hn
    refine .ended hd ((d.next?_eq_none_iff).mpr ?_)
    rw [hcd.rest, (c.next?_eq_none_iff).mp hn]
    rfl

end Pattern

end CodeOutline
