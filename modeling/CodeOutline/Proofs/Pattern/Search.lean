import CodeOutline.Proofs.Pattern.Matching

/-! The search through a text, without its budget: the matches that it finds, each with the place where
it starts. -/

namespace CodeOutline.Pattern

inductive Search (p : Pattern) : Cursor → List (Cursor × Match) → Prop
  | found {c m hits} : p.matchAt? c = some m → Search p m.stop hits → Search p c ((c, m) :: hits)
  | passed {c x later hits} : p.matchAt? c = none → c.next? = some (x, later) → Search p later hits →
      Search p c hits
  | ended {c} : p.matchAt? c = none → c.next? = none → Search p c []

variable {p : Pattern} {c : Cursor} {m : Match} {hits : List (Cursor × Match)}

lemma mem_of_matchAt? (h : p.matchAt? c = some m) : m ∈ p.matchesAt c := List.mem_of_mem_head? h

lemma exists_search (hp : p.consumes = true) (c : Cursor) : ∃ hits, Search p c hits := by
  obtain ⟨n, hn⟩ : ∃ n, c.rest.length = n := ⟨_, rfl⟩
  induction n using Nat.strong_induction_on generalizing c with
  | _ n ih =>
    cases hm : p.matchAt? c with
    | some m =>
      have hlt := length_lt_of_consumes hp (mem_of_matchAt? hm)
      obtain ⟨hits, hh⟩ := ih _ (hn ▸ hlt) m.stop rfl
      exact ⟨_, .found hm hh⟩
    | none =>
      cases hx : c.next? with
      | none => exact ⟨[], .ended hm hx⟩
      | some next =>
        have hr := ((Cursor.next?_eq_some_iff _ _ _).mp hx).1
        have hlt : next.2.rest.length < n := by simp [← hn, hr]
        obtain ⟨hits, hh⟩ := ih _ hlt next.2 rfl
        exact ⟨hits, .passed hm hx hh⟩

namespace Search

lemma matchAt?_eq (h : Search p c hits) {hit : Cursor × Match} (hh : hit ∈ hits) :
    p.matchAt? hit.1 = some hit.2 := by
  induction h with
  | found hm _ ih =>
    rcases List.mem_cons.mp hh with rfl | hh
    · exact hm
    · exact ih hh
  | passed _ _ _ ih => exact ih hh
  | ended => cases hh

lemma reads (h : Search p c hits) {hit : Cursor × Match} (hh : hit ∈ hits) :
    ∃ mid, c.Reads mid hit.1 := by
  induction h with
  | found hm _ ih =>
    rcases List.mem_cons.mp hh with rfl | hh
    · exact ⟨[], .refl⟩
    · obtain ⟨mid, hr⟩ := reads_of_mem (mem_of_matchAt? hm)
      obtain ⟨more, hr'⟩ := ih hh
      exact ⟨_, hr.trans hr'⟩
  | passed _ hn _ ih =>
    obtain ⟨mid, hr⟩ := ih hh
    exact ⟨_, .step hn hr⟩
  | ended => cases hh

lemma pairwise (h : Search p c hits) :
    hits.Pairwise fun hit later => ∃ mid, hit.2.stop.Reads mid later.1 := by
  induction h with
  | found _ hs ih => exact List.pairwise_cons.mpr ⟨fun _ hh => hs.reads hh, ih⟩
  | passed _ _ _ ih => exact ih
  | ended => exact .nil

/-- From where a match starts some text is read before the next one starts. -/
lemma starts_pairwise (hp : p.consumes = true) (h : Search p c hits) :
    hits.Pairwise fun hit later => ∃ mid, mid ≠ [] ∧ hit.1.Reads mid later.1 := by
  refine h.pairwise.imp_of_mem fun {hit later} hh _ hr => ?_
  obtain ⟨mid, hr⟩ := hr
  have hm := mem_of_matchAt? (h.matchAt?_eq hh)
  obtain ⟨own, ho⟩ := reads_of_mem hm
  have hlt := length_lt_of_consumes hp hm
  refine ⟨own ++ mid, fun hnil => ?_, ho.trans hr⟩
  simp [ho.rest_eq, (List.append_eq_nil_iff.mp hnil).1] at hlt

lemma position_pairwise (hp : p.consumes = true) (h : Search p c hits) :
    hits.Pairwise fun hit later => hit.1.position < later.1.position := by
  refine (h.starts_pairwise hp).imp fun {hit later} hr => ?_
  obtain ⟨mid, hne, hr⟩ := hr
  have hpos : 0 < String.utf8Len mid := by
    apply Nat.pos_of_ne_zero
    simpa using hne
  rw [hr.position_eq]
  omega

lemma occurrencesFrom_eq (hp : p.consumes = true) (h : Search p c hits) (budget : List Char)
    (hb : c.rest.length ≤ budget.length) :
    occurrencesFrom p budget c = hits.map fun hit => ⟨hit.1.position, hit.2.groupTexts⟩ := by
  induction h generalizing budget with
  | found hm _ ih =>
    have hlt := length_lt_of_consumes hp (mem_of_matchAt? hm)
    cases budget with
    | nil => exact absurd (hlt.trans_le hb) (Nat.not_lt_zero _)
    | cons x budget =>
      rw [List.length_cons] at hb
      simp [occurrencesFrom, hm, ih budget (by omega)]
  | passed hm hn _ ih =>
    have hr := ((Cursor.next?_eq_some_iff _ _ _).mp hn).1
    cases budget with
    | nil => simp [hr] at hb
    | cons x budget =>
      simp only [hr, List.length_cons] at hb
      simp [occurrencesFrom, hm, hn, ih budget (by omega)]
  | ended hm hn => cases budget <;> simp [occurrencesFrom, hm, hn]

lemma occurrences_eq (hp : p.consumes = true) {text : List Char} (h : Search p (Cursor.start text) hits) :
    p.occurrences text = hits.map fun hit => ⟨hit.1.position, hit.2.groupTexts⟩ :=
  h.occurrencesFrom_eq hp text le_rfl

end Search

lemma occurrences_pairwise (hp : p.consumes = true) (text : List Char) :
    (p.occurrences text).Pairwise fun o later => o.position < later.position := by
  obtain ⟨hits, h⟩ := exists_search hp (Cursor.start text)
  rw [h.occurrences_eq hp, List.pairwise_map]
  exact h.position_pairwise hp

end CodeOutline.Pattern
