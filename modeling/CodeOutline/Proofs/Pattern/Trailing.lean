import CodeOutline.Proofs.Pattern.Margin
import Mathlib.Data.List.TakeWhile

/-! Blank text behind a text adds no match and takes none away: a pattern whose last part needs a character
that is no blank cannot be led astray by the blanks that it may pass over on the way. -/

namespace CodeOutline

open Pattern

def hasInk (rest : List Char) : Bool := rest.any (!isMargin ·)

lemma hasInk_eq_false_iff (rest : List Char) : hasInk rest = false ↔ ∀ x ∈ rest, isMargin x = true := by
  simp [hasInk]

def Change.appended (tail : List Char) : Change where
  apply := (· ++ tail)
  counts _ := true
  counts_apply _ := rfl
  counts_append _ _ _ := rfl

/-- Blank text put behind, where a match counts as long as more than blanks follow. -/
def Change.inked (tail : List Char) (ht : ∀ x ∈ tail, isMargin x = true) : Change where
  apply := (· ++ tail)
  counts := hasInk
  counts_apply rest := by
    have h := (hasInk_eq_false_iff tail).mpr ht
    simp only [hasInk] at h
    simp [hasInk, h]
  counts_append mid rest h := by
    simp only [hasInk, List.any_append, Bool.or_eq_true] at h ⊢
    exact Or.inr h

namespace Pattern

/-- Nothing matches where only blanks follow. -/
def demands : Pattern → Bool
  | literal text => hasInk text
  | one set => clear set
  | seq p q => p.demands || q.demands
  | either p q => p.demands && q.demands
  | group p => p.demands
  | run _ | optional _ | star _ | lineStart | edge _ => false

/-- Blanks behind the text make no difference as long as more than blanks follow. -/
def loose : Pattern → Bool
  | literal _ | one _ | run _ | lineStart => true
  | edge set => clear set
  | seq p q | either p q => p.loose && q.loose
  | optional p | group p => p.loose
  | star p => p.consumes && p.loose

/-- Blanks behind the text make no difference. -/
def settled : Pattern → Bool
  | literal text => text.all (!isMargin ·)
  | one set | run set | edge set => clear set
  | lineStart => true
  | seq p q => q.settled && (p.settled || p.loose && q.demands)
  | either p q => p.settled && q.settled
  | optional p | group p => p.settled
  | star p => p.consumes && p.settled

variable {p q : Pattern} {c d : Cursor} {m : Match} {tail : List Char}

lemma matchesAt_of_demands (hp : p.demands = true) (hc : ∀ x ∈ c.rest, isMargin x = true) :
    p.matchesAt c = [] := by
  induction p generalizing c with
  | literal text =>
    refine List.eq_nil_iff_forall_not_mem.mpr fun m hm => ?_
    have ht := (hasInk_eq_false_iff text).mpr fun x hx =>
      hc x ((mem_literal.mp hm).2.rest_eq ▸ List.mem_append_left _ hx)
    simp [demands, ht] at hp
  | one set =>
    refine List.eq_nil_iff_forall_not_mem.mpr fun m hm => ?_
    obtain ⟨_, x, hx, hn⟩ := mem_one.mp hm
    have hr := ((Cursor.next?_eq_some_iff _ _ _).mp hn).1
    simp [not_set_of_clear hp (hc x (hr ▸ List.mem_cons_self))] at hx
  | seq p q ihp ihq =>
    rw [matchesAt_seq, List.flatMap_eq_nil_iff]
    intro m hm
    rcases Bool.or_eq_true _ _ |>.mp hp with hp | hp
    · rw [ihp hp hc] at hm
      cases hm
    · obtain ⟨mid, hr⟩ := reads_of_mem hm
      rw [ihq hp fun x hx => hc x (hr.rest_eq ▸ List.mem_append_right _ hx), List.map_nil]
  | either p q ihp ihq =>
    obtain ⟨hp, hq⟩ := Bool.and_eq_true _ _ |>.mp hp
    rw [matchesAt, ihp hp hc, ihq hq hc, List.append_nil]
  | group p ih => rw [matchesAt, ih hp hc, List.map_nil]
  | run set | optional p | star p | lineStart | edge set => cases hp

end Pattern

variable {k : Change} {set : Char → Bool} {c d : Cursor} {tail mid : List Char}

/-- What was read in the longer text, and is not cut by the end of the shorter one, was there before. -/
lemma Change.Keeps.of_append (hk : ∀ rest, k.apply rest = rest ++ tail)
    (hm : ∀ before cut rest, mid = before ++ cut → tail = cut ++ rest → k.counts rest = true → cut = []) :
    k.Keeps mid where
  forth c d e h hr := by
    obtain ⟨f, hf, hrest⟩ :=
      d.exists_reads mid (e.rest ++ tail) (by rw [h.rest, hk, hr.rest_eq, List.append_assoc])
    exact ⟨f, hf, by rw [hf.before_eq, hr.before_eq, h.before], by rw [hrest, hk]⟩
  back c d f h hr hf := by
    have hrest : c.rest ++ tail = mid ++ f.rest := by rw [← hr.rest_eq, h.rest, hk]
    rcases List.append_eq_append_iff.mp hrest with ⟨cut, hcut, ht⟩ | ⟨rest, hc, _⟩
    · rw [hm _ cut f.rest hcut ht hf, List.append_nil] at hcut
      obtain ⟨e, he, _⟩ := c.exists_reads mid [] (by rw [hcut, List.append_nil])
      exact ⟨e, he⟩
    · obtain ⟨e, he, _⟩ := c.exists_reads mid rest hc
      exact ⟨e, he⟩

namespace Pattern

variable {p q : Pattern}

lemma head?_append_of_clear (hs : clear set = true) (ht : ∀ x ∈ tail, isMargin x = true) (rest : List Char) :
    (rest ++ tail).head?.any set = rest.head?.any set := by
  cases rest with
  | cons x rest => rfl
  | nil =>
    cases tail with
    | nil => rfl
    | cons x tail => simpa using not_set_of_clear hs (ht x List.mem_cons_self)

lemma pass_alike (hk : k.Keeps (c.rest.takeWhile set)) (hcd : c.Alike k.apply d)
    (hs : (k.apply (c.pass set).rest).head?.any set = false) : (c.pass set).Alike k.apply (d.pass set) := by
  obtain ⟨f, hf, hef⟩ := hk.forth c d _ hcd (c.reads_pass set)
  rw [Cursor.pass_eq hf (List.all_eq_true.mp List.all_takeWhile) (hef.rest ▸ hs)]
  exact hef

lemma inked_keeps (ht : ∀ x ∈ tail, isMargin x = true) (mid : List Char) : (Change.inked tail ht).Keeps mid := by
  refine .of_append (fun _ => rfl) fun _ cut rest _ hcut hink => ?_
  have hno := (hasInk_eq_false_iff rest).mpr fun x hx => ht x (hcut ▸ List.mem_append_right _ hx)
  exact absurd (hno.symm.trans hink) Bool.false_ne_true

lemma follows_of_loose (ht : ∀ x ∈ tail, isMargin x = true) (hp : p.loose = true) :
    Follows (.inked tail ht) p := by
  induction p with
  | literal text => exact .literal (inked_keeps ht text)
  | one set => exact .one fun x _ => inked_keeps ht [x]
  | run set =>
    refine .run fun c d hcd => ?_
    cases hr : (c.pass set).rest with
    | nil =>
      refine Or.inr ⟨rfl, (hasInk_eq_false_iff _).mpr ?_⟩
      have hall := List.dropWhile_eq_nil_iff.mp (c.pass_rest set ▸ hr)
      rw [d.pass_rest, hcd.rest, Change.inked, List.dropWhile_append_of_pos hall]
      exact fun x hx => ht x ((List.dropWhile_sublist set).mem hx)
    | cons x rest =>
      refine Or.inl (pass_alike (inked_keeps ht _) hcd ?_)
      have hx := c.head?_pass set
      rw [hr] at hx ⊢
      exact hx
  | lineStart => exact .lineStart
  | edge set => exact .edge (head?_append_of_clear hp ht)
  | seq p q ihp ihq =>
    obtain ⟨hp, hq⟩ := Bool.and_eq_true _ _ |>.mp hp
    exact .seq (ihp hp) (ihq hq)
  | either p q ihp ihq =>
    obtain ⟨hp, hq⟩ := Bool.and_eq_true _ _ |>.mp hp
    exact .either (ihp hp) (ihq hq)
  | optional p ih => exact .optional (ih hp)
  | group p ih => exact .group (ih hp)
  | star p ih =>
    obtain ⟨hc, hp⟩ := Bool.and_eq_true _ _ |>.mp hp
    exact .star hc (ih hp)

lemma appended_keeps (ht : ∀ x ∈ tail, isMargin x = true) (hm : ∀ x ∈ mid, isMargin x = false) :
    (Change.appended tail).Keeps mid := by
  refine .of_append (fun _ => rfl) fun before cut rest hmid hcut _ => ?_
  refine List.eq_nil_iff_forall_not_mem.mpr fun x hx => ?_
  have hno := hm x (hmid ▸ List.mem_append_right _ hx)
  exact absurd (hno.symm.trans (ht x (hcut ▸ List.mem_append_left _ hx))) Bool.false_ne_true

lemma matchesAt_seq_of_demands (ht : ∀ x ∈ tail, isMargin x = true) (hq : q.demands = true) (c : Cursor) :
    (seq p q).matchesAt c = ((p.matchesAt c).filter (counted (.inked tail ht))).flatMap fun m =>
      (q.matchesAt m.stop).map m.append := by
  rw [matchesAt_seq]
  induction p.matchesAt c with
  | nil => rfl
  | cons m ms ih =>
    rw [List.flatMap_cons, ih]
    by_cases hm : counted (.inked tail ht) m = true
    · rw [List.filter_cons_of_pos hm, List.flatMap_cons]
    · have hb := (hasInk_eq_false_iff _).mp (Bool.eq_false_iff.mpr hm)
      rw [List.filter_cons_of_neg hm, matchesAt_of_demands hq hb, List.map_nil, List.nil_append]

lemma Follows.seq_of_loose (ht : ∀ x ∈ tail, isMargin x = true) (hp : p.loose = true) (hd : q.demands = true)
    (hq : Follows (.appended tail) q) : Follows (.appended tail) (.seq p q) := by
  refine of_forall₂ fun c d hcd => ?_
  rw [matchesAt_seq_of_demands ht hd, matchesAt_seq_of_demands ht hd]
  refine forall₂_flatMap (follows_of_loose ht hp c d hcd) fun m _ n hmn => ?_
  refine List.rel_map (fun m' n' h => ?_) (forall₂_of_follows (fun _ => rfl) hq hmn.2)
  exact hmn.append h

lemma follows_of_settled (ht : ∀ x ∈ tail, isMargin x = true) (hp : p.settled = true) :
    Follows (.appended tail) p := by
  induction p with
  | literal text =>
    refine .literal (appended_keeps ht fun x hx => ?_)
    simpa using List.all_eq_true.mp hp x hx
  | one set =>
    refine .one fun x hx => appended_keeps ht fun y hy => ?_
    rw [List.mem_singleton.mp hy]
    exact Bool.eq_false_iff.mpr fun hm => by simp [not_set_of_clear hp hm] at hx
  | run set =>
    refine .run fun c d hcd => Or.inl (pass_alike (appended_keeps ht fun x hx => ?_) hcd ?_)
    · have hs := List.all_eq_true.mp List.all_takeWhile x hx
      exact Bool.eq_false_iff.mpr fun hm => by simp [not_set_of_clear hp hm] at hs
    · exact (head?_append_of_clear hp ht _).trans (c.head?_pass set)
  | lineStart => exact .lineStart
  | edge set => exact .edge (head?_append_of_clear hp ht)
  | seq p q ihp ihq =>
    obtain ⟨hq, h⟩ := Bool.and_eq_true _ _ |>.mp hp
    rcases Bool.or_eq_true _ _ |>.mp h with hp | h
    · exact .seq (ihp hp) (ihq hq)
    · obtain ⟨hl, hd⟩ := Bool.and_eq_true _ _ |>.mp h
      exact .seq_of_loose ht hl hd (ihq hq)
  | either p q ihp ihq =>
    obtain ⟨hp, hq⟩ := Bool.and_eq_true _ _ |>.mp hp
    exact .either (ihp hp) (ihq hq)
  | optional p ih => exact .optional (ih hp)
  | group p ih => exact .group (ih hp)
  | star p ih =>
    obtain ⟨hc, hp⟩ := Bool.and_eq_true _ _ |>.mp hp
    exact .star hc (ih hp)

lemma matchAt?_of_demands (hp : p.demands = true) (hc : ∀ x ∈ c.rest, isMargin x = true) : p.matchAt? c = none := by
  rw [matchAt?, matchesAt_of_demands hp hc, List.head?_nil]

lemma Search.of_demands (hp : p.demands = true) (hc : ∀ x ∈ c.rest, isMargin x = true) : Search p c [] := by
  obtain ⟨rest, hr⟩ : ∃ rest, c.rest = rest := ⟨_, rfl⟩
  induction rest generalizing c with
  | nil => exact .ended (matchAt?_of_demands hp hc) ((c.next?_eq_none_iff).mpr hr)
  | cons x rest ih =>
    obtain ⟨d, hn, hd⟩ := c.exists_next x rest hr
    refine .passed (matchAt?_of_demands hp hc) hn (ih (fun y hy => hc y ?_) hd)
    rw [hr, ← hd]
    exact List.mem_cons_of_mem _ hy

lemma Search.appended (ht : ∀ x ∈ tail, isMargin x = true) (hp : p.settled = true) (hd : p.demands = true)
    {hits : List (Cursor × Match)} (h : Search p c hits) (hcd : c.Alike (· ++ tail) d) :
    ∃ others, Search p d others ∧ List.Forall₂ (HitAlike (· ++ tail)) hits others := by
  refine Search.follow (k := .appended tail) (fun _ => rfl) (follows_of_settled ht hp) ?_ ?_ h hcd
  · intro c d x e hcd hm hn
    obtain ⟨hr, _, _, hb⟩ := (Cursor.next?_eq_some_iff _ _ _).mp hn
    obtain ⟨f, hf, hfr⟩ := d.exists_next x (e.rest ++ tail) (by rw [hcd.rest, hr]; rfl)
    have hfb := ((Cursor.next?_eq_some_iff _ _ _).mp hf).2.2.2
    exact ⟨f, ⟨hfb.trans hb.symm, hfr⟩, fun _ => .passed hm hf⟩
  · intro c d hcd _ hn
    refine .of_demands hd fun x hx => ht x ?_
    rwa [hcd.rest, (c.next?_eq_none_iff).mp hn] at hx

end Pattern

end CodeOutline
