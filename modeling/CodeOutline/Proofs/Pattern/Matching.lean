import CodeOutline.Proofs.Pattern.Reading

/-! What the matches of a composed pattern are, and how much of the text they read. -/

namespace CodeOutline

def Match.append (m n : Match) : Match := ⟨m.groups ++ n.groups, n.stop⟩

@[simp] lemma Match.append_stop (m n : Match) : (m.append n).stop = n.stop := rfl

lemma Match.append_comp_append (m n : Match) : m.append ∘ n.append = (m.append n).append := by
  funext k
  simp [append]

namespace Pattern

variable {p q : Pattern} {set : Char → Bool} {c : Cursor} {m : Match}

lemma matchesAt_literal (text : List Char) (c : Cursor) :
    (literal text).matchesAt c = (c.skip? text).toList.map fun stop => ⟨[], stop⟩ := rfl

lemma matchesAt_optional (p : Pattern) (c : Cursor) :
    (optional p).matchesAt c = p.matchesAt c ++ [⟨[], c⟩] := rfl

lemma matchesAt_group (p : Pattern) (c : Cursor) :
    (group p).matchesAt c = (p.matchesAt c).map fun m => ⟨(c, m.stop) :: m.groups, m.stop⟩ := rfl

lemma matchesAt_lineStart (c : Cursor) :
    lineStart.matchesAt c = if atLineStart c then [⟨[], c⟩] else [] := rfl

lemma matchesAt_edge (set : Char → Bool) (c : Cursor) :
    (edge set).matchesAt c = if atEdge set c then [⟨[], c⟩] else [] := rfl

lemma mem_literal {text : List Char} :
    m ∈ (literal text).matchesAt c ↔ m.groups = [] ∧ c.Reads text m.stop := by
  rcases m with ⟨groups, stop⟩
  simp only [matchesAt_literal, List.mem_map, Option.mem_toList, Match.mk.injEq,
    Cursor.skip?_eq_some_iff]
  constructor
  · rintro ⟨_, hr, rfl, rfl⟩
    exact ⟨rfl, hr⟩
  · rintro ⟨rfl, hr⟩
    exact ⟨stop, hr, rfl, rfl⟩

lemma matchesAt_one (set : Char → Bool) (c : Cursor) :
    (one set).matchesAt c = (((c.next?).filter fun next => set next.1).map fun next => ⟨[], next.2⟩).toList := by
  simp only [matchesAt]
  cases c.next? with
  | none => rfl
  | some next => by_cases hx : set next.1 <;> simp [Option.filter, hx]

lemma mem_one : m ∈ (one set).matchesAt c ↔ m.groups = [] ∧ ∃ x, set x = true ∧ c.next? = some (x, m.stop) := by
  rcases m with ⟨groups, stop⟩
  simp only [matchesAt_one, Option.mem_toList, Option.map_eq_some_iff, Option.filter_eq_some_iff,
    Match.mk.injEq]
  constructor
  · rintro ⟨⟨x, _⟩, ⟨hn, hx⟩, rfl, rfl⟩
    exact ⟨rfl, x, hx, hn⟩
  · rintro ⟨rfl, x, hx, hn⟩
    exact ⟨(x, stop), ⟨hn, hx⟩, rfl, rfl⟩

lemma mem_run : m ∈ (run set).matchesAt c ↔ m = ⟨[], c.pass set⟩ := List.mem_singleton

lemma matchesAt_seq (p q : Pattern) (c : Cursor) :
    (seq p q).matchesAt c = (p.matchesAt c).flatMap fun m => (q.matchesAt m.stop).map m.append := rfl

lemma mem_seq :
    m ∈ (seq p q).matchesAt c ↔ ∃ a ∈ p.matchesAt c, ∃ b ∈ q.matchesAt a.stop, m = a.append b := by
  simp [matchesAt_seq, eq_comm]

lemma mem_either : m ∈ (either p q).matchesAt c ↔ m ∈ p.matchesAt c ∨ m ∈ q.matchesAt c := List.mem_append

lemma mem_optional : m ∈ (optional p).matchesAt c ↔ m ∈ p.matchesAt c ∨ m = ⟨[], c⟩ := by
  simp [matchesAt_optional]

lemma mem_group :
    m ∈ (group p).matchesAt c ↔ ∃ n ∈ p.matchesAt c, m = ⟨(c, n.stop) :: n.groups, n.stop⟩ := by
  simp [matchesAt_group, eq_comm]

lemma mem_lineStart : m ∈ lineStart.matchesAt c ↔ m = ⟨[], c⟩ ∧ c.before = '\n' := by
  by_cases h : c.before = '\n' <;> simp [matchesAt_lineStart, atLineStart, h]

lemma mem_edge : m ∈ (edge set).matchesAt c ↔ m = ⟨[], c⟩ ∧ atEdge set c = true := by
  by_cases h : atEdge set c <;> simp [matchesAt_edge, h]

/-! A star: what holds before any repetition, and is kept by one more, holds of all its matches. -/

lemma repeated_forall {step : Cursor → List Match} {P : Match → Prop}
    (hs : ∀ m, P m → ∀ n ∈ step m.stop, P (m.append n)) (budget : List Char) (m : Match)
    (shorter : List Match) (hm : P m) (hr : ∀ n ∈ shorter, P n) :
    ∀ n ∈ repeated step budget m shorter, P n := by
  induction budget generalizing m shorter with
  | nil => simpa [repeated] using ⟨hm, hr⟩
  | cons _ budget ih =>
    simp only [repeated]
    have hall : ∀ further : List Match, (∀ n ∈ further, P (m.append n)) →
        ∀ n ∈ further.foldr (fun n tail => repeated step budget (m.append n) tail) (m :: shorter), P n := by
      intro further
      induction further with
      | nil => simpa using ⟨hm, hr⟩
      | cons n further ihf =>
        intro hf
        exact ih _ _ (hf n List.mem_cons_self) (ihf fun n hn => hf n (List.mem_cons_of_mem _ hn))
    exact hall _ (hs m hm)

lemma star_forall {body : Pattern} {P : Match → Prop} (hc : P ⟨[], c⟩)
    (hs : ∀ m, P m → ∀ n ∈ body.matchesAt m.stop, P (m.append n)) :
    ∀ m ∈ (star body).matchesAt c, P m :=
  repeated_forall hs _ _ _ hc (by simp)

lemma reads_of_mem (hm : m ∈ p.matchesAt c) : ∃ mid, c.Reads mid m.stop := by
  induction p generalizing c m with
  | literal text => exact ⟨text, (mem_literal.mp hm).2⟩
  | one set =>
    obtain ⟨_, x, _, hn⟩ := mem_one.mp hm
    exact ⟨[x], .step hn .refl⟩
  | run set =>
    obtain rfl := mem_run.mp hm
    exact ⟨_, c.reads_pass set⟩
  | seq p q ihp ihq =>
    obtain ⟨a, ha, b, hb, rfl⟩ := mem_seq.mp hm
    obtain ⟨mid, hr⟩ := ihp ha
    obtain ⟨more, hr'⟩ := ihq hb
    exact ⟨_, hr.trans hr'⟩
  | either p q ihp ihq => exact (mem_either.mp hm).elim ihp ihq
  | optional p ih =>
    rcases mem_optional.mp hm with hm | rfl
    · exact ih hm
    · exact ⟨[], .refl⟩
  | star p ih =>
    refine star_forall (P := fun m => ∃ mid, c.Reads mid m.stop) ⟨[], .refl⟩ ?_ m hm
    rintro m ⟨mid, hr⟩ n hn
    obtain ⟨more, hr'⟩ := ih hn
    exact ⟨_, hr.trans hr'⟩
  | group p ih =>
    obtain ⟨n, hn, rfl⟩ := mem_group.mp hm
    obtain ⟨mid, hr⟩ := ih hn
    exact ⟨mid, hr⟩
  | lineStart =>
    obtain ⟨rfl, _⟩ := mem_lineStart.mp hm
    exact ⟨[], .refl⟩
  | edge set =>
    obtain ⟨rfl, _⟩ := mem_edge.mp hm
    exact ⟨[], .refl⟩

/-- Every match reads at least one character. -/
def consumes : Pattern → Bool
  | literal text => !text.isEmpty
  | one _ => true
  | seq p q => p.consumes || q.consumes
  | either p q => p.consumes && q.consumes
  | group p => p.consumes
  | run _ | optional _ | star _ | lineStart | edge _ => false

lemma length_lt_of_consumes (hp : p.consumes = true) (hm : m ∈ p.matchesAt c) :
    m.stop.rest.length < c.rest.length := by
  induction p generalizing c m with
  | literal text =>
    have hr := (mem_literal.mp hm).2.rest_eq
    cases text with
    | nil => cases hp
    | cons x text =>
      simp only [hr, List.length_append, List.length_cons]
      omega
  | one set =>
    obtain ⟨_, x, _, hn⟩ := mem_one.mp hm
    simp [((Cursor.next?_eq_some_iff _ _ _).mp hn).1]
  | seq p q ihp ihq =>
    obtain ⟨a, ha, b, hb, rfl⟩ := mem_seq.mp hm
    obtain ⟨mid, hr⟩ := reads_of_mem ha
    obtain ⟨more, hr'⟩ := reads_of_mem hb
    have hca := congrArg List.length hr.rest_eq
    have hab := congrArg List.length hr'.rest_eq
    simp only [List.length_append] at hca hab
    simp only [Match.append]
    rcases Bool.or_eq_true _ _ |>.mp hp with hp | hp
    · have := ihp hp ha
      omega
    · have := ihq hp hb
      omega
  | either p q ihp ihq =>
    obtain ⟨hp, hq⟩ := Bool.and_eq_true _ _ |>.mp hp
    exact (mem_either.mp hm).elim (ihp hp) (ihq hq)
  | group p ih =>
    obtain ⟨n, hn, rfl⟩ := mem_group.mp hm
    have hlt := ih hp hn
    exact hlt
  | run set | optional p | star p | lineStart | edge set => cases hp

/-! The matches of a star, most repetitions first. -/

lemma foldr_repeated (step : Cursor → List Match) (budget : List Char) (m : Match) (shorter : List Match)
    (h : ∀ m shorter, repeated step budget m shorter =
      (repeated step budget ⟨[], m.stop⟩ []).map m.append ++ shorter) (further : List Match) :
    further.foldr (fun n tail => repeated step budget (m.append n) tail) shorter =
      (further.flatMap fun n => (repeated step budget ⟨[], n.stop⟩ []).map (m.append n).append) ++ shorter := by
  induction further with
  | nil => rfl
  | cons n further ih =>
    rw [List.foldr_cons, ih, h, List.flatMap_cons, List.append_assoc]
    rfl

lemma repeated_eq (step : Cursor → List Match) (budget : List Char) (m : Match) (shorter : List Match) :
    repeated step budget m shorter = (repeated step budget ⟨[], m.stop⟩ []).map m.append ++ shorter := by
  induction budget generalizing m shorter with
  | nil => simp [repeated, Match.append]
  | cons x budget ih =>
    have hl : repeated step (x :: budget) m shorter = _ := foldr_repeated step budget m _ ih (step m.stop)
    have hr : repeated step (x :: budget) ⟨[], m.stop⟩ [] = _ := foldr_repeated step budget _ _ ih (step m.stop)
    rw [hl, hr, List.map_append, List.map_flatMap]
    simp only [List.map_map, Match.append_comp_append]
    simp [Match.append]

lemma repeated_cons (step : Cursor → List Match) (x : Char) (budget : List Char) (c : Cursor) :
    repeated step (x :: budget) ⟨[], c⟩ [] =
      ((step c).flatMap fun n => (repeated step budget ⟨[], n.stop⟩ []).map n.append) ++ [⟨[], c⟩] :=
  foldr_repeated step budget ⟨[], c⟩ [⟨[], c⟩] (repeated_eq step budget) (step c)

lemma repeated_of_length_le {step : Cursor → List Match}
    (hs : ∀ c, ∀ m ∈ step c, m.stop.rest.length < c.rest.length) (budget other : List Char) (c : Cursor)
    (hb : c.rest.length ≤ budget.length) (ho : c.rest.length ≤ other.length) :
    repeated step budget ⟨[], c⟩ [] = repeated step other ⟨[], c⟩ [] := by
  have hend : c.rest.length = 0 → step c = [] := fun h =>
    List.eq_nil_iff_forall_not_mem.mpr fun m hm => by
      have := hs c m hm
      omega
  induction budget generalizing other c with
  | nil =>
    have hn := hend (Nat.le_zero.mp hb)
    cases other <;> simp [repeated, hn]
  | cons x budget ih =>
    cases other with
    | nil => simp [repeated, hend (Nat.le_zero.mp ho)]
    | cons y other =>
      rw [repeated_cons, repeated_cons]
      congr 1
      refine List.flatMap_congr fun n hn => ?_
      have hlt := hs c n hn
      simp only [List.length_cons] at hb ho
      rw [ih other n.stop (by omega) (by omega)]
      intro h
      refine List.eq_nil_iff_forall_not_mem.mpr fun m hm => ?_
      have := hs n.stop m hm
      omega

lemma matchesAt_star (hp : p.consumes = true) (c : Cursor) :
    (star p).matchesAt c =
      ((p.matchesAt c).flatMap fun m => ((star p).matchesAt m.stop).map m.append) ++ [⟨[], c⟩] := by
  have hs : ∀ c, ∀ m ∈ p.matchesAt c, m.stop.rest.length < c.rest.length :=
    fun c m hm => length_lt_of_consumes hp hm
  simp only [matchesAt]
  rw [repeated_of_length_le hs c.rest (' ' :: c.rest) c le_rfl (Nat.le_succ _),
    repeated_cons]
  congr 1
  refine List.flatMap_congr fun m hm => ?_
  rw [repeated_of_length_le hs c.rest m.stop.rest m.stop (hs c m hm).le le_rfl]

end Pattern

end CodeOutline
