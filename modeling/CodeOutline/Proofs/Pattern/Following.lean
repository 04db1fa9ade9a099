import CodeOutline.Proofs.Pattern.Search
import Mathlib.Data.List.Forall2

/-! Matching before and after a change of the text. A pattern follows a change when its matches at a place
of the old text and at the place of the new text that corresponds to it are the same, in the same order,
as far as they stop where the rest of the text counts. -/

namespace CodeOutline

/-- A change of the text after a place. Once a match has come to a rest of the text that does not count,
reading on does not make it count again. -/
structure Change where
  apply : List Char → List Char
  counts : List Char → Bool
  counts_apply : ∀ rest, counts (apply rest) = counts rest
  counts_append : ∀ mid rest, counts rest = true → counts (mid ++ rest) = true

/-- `d` is the place of the new text where `c` was in the old one. -/
structure Cursor.Alike (change : List Char → List Char) (c d : Cursor) : Prop where
  before : d.before = c.before
  rest : d.rest = change c.rest

/-- What is read in the old text is read in the new one, and where the rest counts nowhere else. -/
structure Change.Keeps (k : Change) (mid : List Char) : Prop where
  forth : ∀ c d e : Cursor, c.Alike k.apply d → c.Reads mid e → ∃ f, d.Reads mid f ∧ e.Alike k.apply f
  back : ∀ c d f : Cursor, c.Alike k.apply d → d.Reads mid f → k.counts f.rest = true → ∃ e, c.Reads mid e

def Match.Alike (change : List Char → List Char) (m n : Match) : Prop :=
  List.Forall₂ (fun g h => g.1.Alike change h.1 ∧ g.2.Alike change h.2) m.groups n.groups ∧
    m.stop.Alike change n.stop

lemma Match.Alike.append {change : List Char → List Char} {m n m' n' : Match} (h : m.Alike change n)
    (h' : m'.Alike change n') : (m.append m').Alike change (n.append n') :=
  ⟨List.rel_append h.1 h'.1, h'.2⟩

namespace Pattern

variable {k : Change} {p q : Pattern} {c d : Cursor} {m n : Match}

def counted (k : Change) (m : Match) : Bool := k.counts m.stop.rest

def Follows (k : Change) (p : Pattern) : Prop :=
  ∀ c d, c.Alike k.apply d →
    List.Forall₂ (Match.Alike k.apply) ((p.matchesAt c).filter (counted k)) ((p.matchesAt d).filter (counted k))

lemma forall₂_flatMap {α β γ δ : Type} {R : α → β → Prop} {S : γ → δ → Prop} {f : α → List γ} {g : β → List δ}
    {as : List α} {bs : List β} (h : List.Forall₂ R as bs)
    (hf : ∀ a ∈ as, ∀ b, R a b → List.Forall₂ S (f a) (g b)) :
    List.Forall₂ S (as.flatMap f) (bs.flatMap g) := by
  have h' := (List.forall₂_and_left (p := (· ∈ as)) as bs).mpr ⟨fun _ ha => ha, h⟩
  exact List.rel_flatMap h' fun a b hab => hf a hab.1 b hab.2

lemma filter_counted {ms ns : List Match} (h : List.Forall₂ (Match.Alike k.apply) ms ns) :
    List.Forall₂ (Match.Alike k.apply) (ms.filter (counted k)) (ns.filter (counted k)) := by
  refine List.rel_filter (fun m n hmn => ?_) h
  simp only [counted, hmn.2.rest, k.counts_apply]

/-- Only a match that counts can be the beginning of one that counts. -/
lemma filter_seq (k : Change) (p q : Pattern) (c : Cursor) :
    ((seq p q).matchesAt c).filter (counted k) =
      ((p.matchesAt c).filter (counted k)).flatMap fun m =>
        ((q.matchesAt m.stop).filter (counted k)).map m.append := by
  rw [matchesAt_seq]
  induction p.matchesAt c with
  | nil => rfl
  | cons m ms ih =>
    have hm : ((q.matchesAt m.stop).map m.append).filter (counted k) =
        ((q.matchesAt m.stop).filter (counted k)).map m.append := by
      rw [List.filter_map]
      rfl
    rw [List.flatMap_cons, List.filter_append, ih, hm]
    by_cases hc : counted k m = true
    · rw [List.filter_cons_of_pos hc, List.flatMap_cons]
    · have hn : (q.matchesAt m.stop).filter (counted k) = [] := by
        refine List.filter_eq_nil_iff.mpr fun n hn hcn => hc ?_
        obtain ⟨mid, hr⟩ := reads_of_mem hn
        rw [counted, hr.rest_eq]
        exact k.counts_append _ _ hcn
      rw [List.filter_cons_of_neg hc, hn, List.map_nil, List.nil_append]

namespace Follows

lemma of_forall₂ (h : ∀ c d, c.Alike k.apply d → List.Forall₂ (Match.Alike k.apply) (p.matchesAt c) (p.matchesAt d)) :
    Follows k p := fun c d hcd => filter_counted (h c d hcd)

lemma empty (hcd : c.Alike k.apply d) : List.Forall₂ (Match.Alike k.apply) [⟨[], c⟩] [⟨[], d⟩] :=
  .cons ⟨.nil, hcd⟩ .nil

lemma lineStart : Follows k lineStart := by
  refine of_forall₂ fun c d hcd => ?_
  have hl : atLineStart d = atLineStart c := by rw [atLineStart, atLineStart, hcd.before]
  simp only [matchesAt, hl]
  split
  · exact empty hcd
  · exact .nil

lemma edge {set : Char → Bool} (hs : ∀ rest, (k.apply rest).head?.any set = rest.head?.any set) :
    Follows k (edge set) := by
  refine of_forall₂ fun c d hcd => ?_
  have he : atEdge set d = atEdge set c := by rw [atEdge, atEdge, hcd.before, hcd.rest, hs]
  simp only [matchesAt, he]
  split
  · exact empty hcd
  · exact .nil

/-- Patterns with at most one match at a place, which reads one of the given texts. -/
lemma of_texts {T : List Char → Prop}
    (hm : ∀ c m, m ∈ p.matchesAt c ↔ m.groups = [] ∧ ∃ mid, T mid ∧ c.Reads mid m.stop)
    (hl : ∀ c, (p.matchesAt c).length ≤ 1) (hk : ∀ mid, T mid → k.Keeps mid) : Follows k p := by
  intro c d hcd
  have hone : ∀ c m, m ∈ p.matchesAt c → p.matchesAt c = [m] := by
    intro c m hmem
    obtain ⟨n, hn⟩ := List.length_eq_one_iff.mp (le_antisymm (hl c) (List.length_pos_of_mem hmem))
    rw [hn] at hmem ⊢
    rw [List.mem_singleton.mp hmem]
  cases hc : p.matchesAt c with
  | nil =>
    rw [List.filter_nil, List.forall₂_nil_left_iff, List.filter_eq_nil_iff]
    intro n hn hcn
    obtain ⟨_, mid, ht, hr⟩ := (hm d n).mp hn
    obtain ⟨e, he⟩ := (hk mid ht).back c d n.stop hcd hr hcn
    have hmem : ⟨[], e⟩ ∈ p.matchesAt c := (hm c _).mpr ⟨rfl, mid, ht, he⟩
    rw [hc] at hmem
    cases hmem
  | cons m ms =>
    have hmem : m ∈ p.matchesAt c := hc ▸ List.mem_cons_self
    obtain ⟨hg, mid, ht, hr⟩ := (hm c m).mp hmem
    obtain ⟨f, hf, hef⟩ := (hk mid ht).forth c d m.stop hcd hr
    have hd : ⟨[], f⟩ ∈ p.matchesAt d := (hm d _).mpr ⟨rfl, mid, ht, hf⟩
    rw [← hc, hone c m hmem, hone d _ hd]
    refine filter_counted (.cons ⟨?_, hef⟩ .nil)
    rw [hg]
    exact .nil

lemma literal {text : List Char} (hk : k.Keeps text) : Follows k (literal text) := by
  refine of_texts (T := (· = text)) (fun c m => ?_) (fun c => ?_) (by rintro _ rfl; exact hk)
  · simp [mem_literal]
  · simp only [matchesAt, List.length_map]
    cases c.skip? text <;> simp

lemma one {set : Char → Bool} (hk : ∀ x, set x = true → k.Keeps [x]) : Follows k (one set) := by
  refine of_texts (T := fun mid => ∃ x, set x = true ∧ mid = [x]) (fun c m => ?_) (fun c => ?_) ?_
  · simp only [mem_one, ← Cursor.reads_singleton]
    grind
  · rw [matchesAt_one, Option.length_toList]
    split <;> omega
  · rintro _ ⟨x, hx, rfl⟩
    exact hk x hx

lemma run {set : Char → Bool}
    (h : ∀ c d : Cursor, c.Alike k.apply d → (c.pass set).Alike k.apply (d.pass set) ∨
      k.counts (c.pass set).rest = false ∧ k.counts (d.pass set).rest = false) :
    Follows k (run set) := by
  intro c d hcd
  rcases h c d hcd with h | ⟨hc, hd⟩
  · exact filter_counted (empty h)
  · simp only [matchesAt, counted, List.filter_cons, hc, hd, Bool.false_eq_true, if_false]
    exact .nil

lemma seq (hp : Follows k p) (hq : Follows k q) : Follows k (seq p q) := by
  intro c d hcd
  rw [filter_seq, filter_seq]
  refine forall₂_flatMap (hp c d hcd) fun m _ n hmn => ?_
  refine List.rel_map (fun m' n' h => ?_) (hq _ _ hmn.2)
  exact hmn.append h

lemma either (hp : Follows k p) (hq : Follows k q) : Follows k (either p q) := by
  intro c d hcd
  simp only [matchesAt, List.filter_append]
  exact List.rel_append (hp c d hcd) (hq c d hcd)

lemma optional (hp : Follows k p) : Follows k (optional p) := by
  intro c d hcd
  simp only [matchesAt, List.filter_append]
  exact List.rel_append (hp c d hcd) (filter_counted (empty hcd))

lemma group (hp : Follows k p) : Follows k (group p) := by
  intro c d hcd
  simp only [matchesAt, List.filter_map]
  refine List.rel_map (fun m n hmn => ?_) (hp c d hcd)
  exact ⟨.cons ⟨hcd, hmn.2⟩ hmn.1, hmn.2⟩

lemma star (hc : p.consumes = true) (hp : Follows k p) : Follows k (star p) := by
  intro c
  obtain ⟨n, hn⟩ : ∃ n, c.rest.length = n := ⟨_, rfl⟩
  induction n using Nat.strong_induction_on generalizing c with
  | _ n ih =>
    intro d hcd
    have hmore := fun c => filter_seq k p (Pattern.star p) c
    simp only [matchesAt_seq] at hmore
    rw [matchesAt_star hc, matchesAt_star hc, List.filter_append, List.filter_append, hmore, hmore]
    refine List.rel_append ?_ (filter_counted (empty hcd))
    refine forall₂_flatMap (hp c d hcd) fun m hm n hmn => ?_
    have hlt := length_lt_of_consumes hc (List.mem_of_mem_filter hm)
    refine List.rel_map (fun m' n' h => ?_) (ih _ (hn ▸ hlt) m.stop rfl n.stop hmn.2)
    exact hmn.append h

end Follows

lemma forall₂_of_follows (hk : ∀ rest, k.counts rest = true) (hp : Follows k p) (hcd : c.Alike k.apply d) :
    List.Forall₂ (Match.Alike k.apply) (p.matchesAt c) (p.matchesAt d) := by
  have hall : ∀ ms : List Match, ms.filter (counted k) = ms := fun ms =>
    List.filter_eq_self.mpr fun m _ => hk m.stop.rest
  simpa only [hall] using hp c d hcd

lemma matchAt?_alike (hk : ∀ rest, k.counts rest = true) (hp : Follows k p) (hcd : c.Alike k.apply d)
    (hm : p.matchAt? c = some m) : ∃ n, p.matchAt? d = some n ∧ m.Alike k.apply n := by
  have h := forall₂_of_follows hk hp hcd
  obtain ⟨ms, hc⟩ := List.head?_eq_some_iff.mp hm
  rw [hc, List.forall₂_cons_left_iff] at h
  obtain ⟨n, ns, hmn, _, hd⟩ := h
  exact ⟨n, by rw [matchAt?, hd, List.head?_cons], hmn⟩

lemma matchAt?_eq_none_alike (hk : ∀ rest, k.counts rest = true) (hp : Follows k p) (hcd : c.Alike k.apply d)
    (hm : p.matchAt? c = none) : p.matchAt? d = none := by
  have h := forall₂_of_follows hk hp hcd
  rw [List.head?_eq_none_iff.mp hm, List.forall₂_nil_left_iff] at h
  rw [matchAt?, h, List.head?_nil]

def HitAlike (change : List Char → List Char) (hit other : Cursor × Match) : Prop :=
  hit.1.Alike change other.1 ∧ hit.2.Alike change other.2

/-- A search of the new text finds what the one of the old text finds, if it gets from each place without a
match to where the next place went, and finds nothing more at the end. -/
lemma Search.follow (hk : ∀ rest, k.counts rest = true) (hp : Follows k p) {hits : List (Cursor × Match)}
    (hn : ∀ (c d : Cursor) x e, c.Alike k.apply d → p.matchAt? d = none → c.next? = some (x, e) →
      ∃ f, e.Alike k.apply f ∧ ∀ hits, Search p f hits → Search p d hits)
    (he : ∀ c d : Cursor, c.Alike k.apply d → p.matchAt? d = none → c.next? = none → Search p d [])
    (h : Search p c hits) (hcd : c.Alike k.apply d) :
    ∃ others, Search p d others ∧ List.Forall₂ (HitAlike k.apply) hits others := by
  induction h generalizing d with
  | found hm _ ih =>
    obtain ⟨n, hd, hmn⟩ := matchAt?_alike hk hp hcd hm
    obtain ⟨others, ho, hh⟩ := ih hmn.2
    exact ⟨(d, n) :: others, .found hd ho, .cons ⟨hcd, hmn⟩ hh⟩
  | passed hm hx _ ih =>
    obtain ⟨f, hef, hback⟩ := hn _ d _ _ hcd (matchAt?_eq_none_alike hk hp hcd hm) hx
    obtain ⟨others, ho, hh⟩ := ih hef
    exact ⟨others, hback others ho, hh⟩
  | ended hm hx => exact ⟨[], he _ d hcd (matchAt?_eq_none_alike hk hp hcd hm) hx, .nil⟩

end Pattern

end CodeOutline
