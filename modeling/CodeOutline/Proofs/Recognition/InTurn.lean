import CodeOutline.Proofs.Recognition.Distinct

/-! What a search finds, told without it: of the stretches of a text that a pattern describes, the leftmost one, then
the leftmost one of those behind it, and so on. -/

namespace CodeOutline

open Pattern

/-! Places that are read to from the start of a text. -/

def IsLineStart (text : List Char) (place : Nat) : Prop := place = 0 ∨ text[place - 1]? = some '\n'

section Places

variable {text before : List Char} {c : Cursor}

lemma index_of_reads (h : (Cursor.start text).Reads before c) : c.index = before.length :=
  h.index_eq.trans (Nat.zero_add _)

lemma drop_length (h : (Cursor.start text).Reads before c) : text.drop before.length = c.rest := by
  have htext : text = before ++ c.rest := h.rest_eq
  rw [htext, List.drop_left]

lemma exists_reads_take {place : Nat} (h : place ≤ text.length) :
    ∃ c, (Cursor.start text).Reads (text.take place) c ∧ c.rest = text.drop place ∧ (text.take place).length = place := by
  obtain ⟨c, hr, hc⟩ := (Cursor.start text).exists_reads (text.take place) (text.drop place)
    (List.take_append_drop place text).symm
  exact ⟨c, hr, hc, List.length_take_of_le h⟩

lemma exists_between {start place : Nat} (hle : start ≤ place) (text : List Char) :
    ∃ between, text.drop start = between ++ text.drop place ∧ text.take place = text.take start ++ between ∧
      between.length ≤ place - start := by
  refine ⟨(text.drop start).take (place - start), ?_, ?_, List.length_take_le _ _⟩
  · have hbehind : text.drop place = (text.drop start).drop (place - start) := by
      rw [List.drop_drop, Nat.add_sub_cancel' hle]
    rw [hbehind, List.take_append_drop]
  · rw [← List.take_add, Nat.add_sub_cancel' hle]

lemma isLineStart_iff (h : (Cursor.start text).Reads before c) : c.before = '\n' ↔ IsLineStart text before.length := by
  have htext : text = before ++ c.rest := h.rest_eq
  have hbefore : c.before = before.getLastD '\n' := h.before_eq
  rw [hbefore, IsLineStart]
  rcases List.eq_nil_or_concat before with rfl | ⟨earlier, x, rfl⟩
  · exact iff_of_true rfl (.inl rfl)
  · rw [htext]
    simp

/-- A character of a word stands on one side of the place only, the ends of the text counting as the end of a word. -/
def IsWordEdge (text : List Char) (place : Nat) : Prop :=
  (text.take place).getLast?.any Text.isWord ≠ (text.drop place).head?.any Text.isWord

lemma atEdge_iff (h : (Cursor.start text).Reads before c) :
    atEdge Text.isWord c = true ↔ IsWordEdge text before.length := by
  have htext : text = before ++ c.rest := h.rest_eq
  have hbefore : c.before = before.getLastD '\n' := h.before_eq
  have hlast : Text.isWord c.before = before.getLast?.any Text.isWord := by
    rw [hbefore, List.getLastD_eq_getLast?]
    cases before.getLast? with
    | none => decide
    | some x => rfl
  rw [atEdge, IsWordEdge, drop_length h, htext, List.take_left, hlast, bne_iff_ne]

lemma index_stop_of_mem {p : Pattern} {m : Match} (h : (Cursor.start text).Reads before c) (hm : m ∈ p.matchesAt c) :
    m.stop.index = text.length - m.stop.rest.length := by
  obtain ⟨own, hown⟩ := reads_of_mem hm
  have htext : text = (before ++ own) ++ m.stop.rest := (h.trans hown).rest_eq
  have hlength := congrArg List.length htext
  rw [List.length_append] at hlength
  rw [index_of_reads (h.trans hown)]
  omega

lemma eq_of_index_eq {more : List Char} {d : Cursor} (h : (Cursor.start text).Reads before c)
    (h' : (Cursor.start text).Reads more d) (hindex : c.index = d.index) : c = d := by
  rw [index_of_reads h, index_of_reads h'] at hindex
  obtain rfl := List.append_inj_left (h.rest_eq.symm.trans h'.rest_eq) hindex
  exact h.unique h'

end Places

/-- A part of a text, from one place to another, and the texts that are remembered of it. -/
structure Stretch where
  start : Nat
  stop : Nat
  held : List (List Char)
deriving DecidableEq

namespace Stretch

def ofHit (hit : Cursor × Match) : Stretch := ⟨hit.1.index, hit.2.stop.index, hit.2.groupTexts⟩

def name (s : Stretch) : String := String.ofList (s.held.headD [])

def lineIn (text : List Char) (s : Stretch) : Nat := (text.take s.start).count '\n' + 1

/-- From `place` on, the leftmost of the stretches that fit, then the leftmost of those behind it, to the last. -/
inductive InTurn (Fits : Stretch → Prop) : Nat → List Stretch → Prop
  | done {place} : (∀ s, Fits s → s.start < place) → InTurn Fits place []
  | next {place s rest} : Fits s → place ≤ s.start → (∀ t, Fits t → place ≤ t.start → s.start ≤ t.start) →
      InTurn Fits s.stop rest → InTurn Fits place (s :: rest)

namespace InTurn

variable {Fits : Stretch → Prop} {place : Nat} {taken other : List Stretch} {s : Stretch}

lemma fits (h : InTurn Fits place taken) : ∀ s ∈ taken, Fits s := by
  induction h with
  | done => exact List.forall_mem_nil _
  | next hs _ _ _ ih => exact List.forall_mem_cons.mpr ⟨hs, ih⟩

lemma le_start (hlt : ∀ s, Fits s → s.start < s.stop) (h : InTurn Fits place taken) : ∀ s ∈ taken, place ≤ s.start := by
  induction h with
  | done => exact List.forall_mem_nil _
  | next hs hplace _ _ ih =>
    exact List.forall_mem_cons.mpr ⟨hplace, fun t ht => (hplace.trans (hlt _ hs).le).trans (ih t ht)⟩

lemma pairwise (hlt : ∀ s, Fits s → s.start < s.stop) (h : InTurn Fits place taken) :
    taken.Pairwise fun s later => s.stop ≤ later.start := by
  induction h with
  | done => exact .nil
  | next _ _ _ hrest ih => exact List.pairwise_cons.mpr ⟨hrest.le_start hlt, ih⟩

/-- Where a stretch reaches into another only if both stop at one place, the leftmost for each place is taken. -/
lemma mem_iff (hlt : ∀ s, Fits s → s.start < s.stop) (hone : ∀ s t, Fits s → Fits t → s.start = t.start → s = t)
    (hapart : ∀ s t, Fits s → Fits t → s.start ≤ t.start → t.start < s.stop → t.stop = s.stop)
    (h : InTurn Fits place taken) : s ∈ taken ↔
      Fits s ∧ place ≤ s.start ∧ ∀ t, Fits t → t.stop = s.stop → place ≤ t.start → s.start ≤ t.start := by
  induction h with
  | done hall => exact iff_of_false List.not_mem_nil fun ⟨hs, hplace, _⟩ => Nat.not_lt.mpr hplace (hall s hs)
  | @next place first rest hfirst hplace hleft _ ih =>
    rw [List.mem_cons, ih]
    constructor
    · rintro (rfl | ⟨hs, hbehind, hmin⟩)
      · exact ⟨hfirst, hplace, fun t ht _ hle => hleft t ht hle⟩
      · have hlong := hlt first hfirst
        refine ⟨hs, by omega, fun t ht hstop hle => ?_⟩
        rcases Nat.lt_or_ge t.start first.stop with hinside | hbehind'
        · -- what starts inside the first stretch stops where that does, before `s` starts
          have hsame := hapart first t hfirst ht (hleft t ht hle) hinside
          have hshort := hlt s hs
          omega
        · exact hmin t ht hstop hbehind'
    · rintro ⟨hs, hle, hmin⟩
      rcases Nat.lt_or_ge s.start first.stop with hinside | hbehind
      · have hsame := hapart first s hfirst hs (hleft s hs hle) hinside
        exact .inl (hone s first hs hfirst (Nat.le_antisymm (hmin first hfirst hsame.symm hplace) (hleft s hs hle)))
      · have hlong := hlt first hfirst
        exact .inr ⟨hs, hbehind, fun t ht hstop hle' => hmin t ht hstop (by omega)⟩

/-- Where no stretch reaches into another all of them are taken. -/
lemma mem_iff_of_apart (hlt : ∀ s, Fits s → s.start < s.stop)
    (hapart : ∀ s t, Fits s → Fits t → s.start ≤ t.start → t.start < s.stop → s = t) (h : InTurn Fits 0 taken) :
    s ∈ taken ↔ Fits s := by
  have hone : ∀ s t, Fits s → Fits t → s.start = t.start → s = t :=
    fun s t hs ht hstart => hapart s t hs ht hstart.le (hstart ▸ hlt s hs)
  rw [h.mem_iff hlt hone fun s t hs ht hle hinside => by rw [hapart s t hs ht hle hinside]]
  refine ⟨fun ⟨hs, _⟩ => hs, fun hs => ⟨hs, Nat.zero_le _, fun t ht hstop _ => Nat.le_of_not_lt fun hbefore => ?_⟩⟩
  have hinside : s.start < t.stop := hstop ▸ hlt s hs
  exact absurd (congrArg start (hapart t s ht hs hbefore.le hinside)) hbefore.ne

/-- What is not taken starts inside of something that is. -/
lemma exists_covering {t : Stretch} (h : InTurn Fits place taken) (ht : Fits t) (hplace : place ≤ t.start) :
    ∃ s ∈ taken, s.start ≤ t.start ∧ t.start < s.stop := by
  induction h with
  | done hall => exact absurd (hall t ht) hplace.not_gt
  | @next _ first rest _ _ hleft _ ih =>
    rcases Nat.lt_or_ge t.start first.stop with hinside | hbehind
    · exact ⟨first, List.mem_cons_self, hleft t ht hplace, hinside⟩
    · obtain ⟨s, hs, hcovers⟩ := ih hbehind
      exact ⟨s, List.mem_cons_of_mem first hs, hcovers⟩

lemma mem_of_start_eq (hone : ∀ s t, Fits s → Fits t → s.start = t.start → s = t) (h : InTurn Fits place taken)
    (hs : Fits s) (hstart : s.start = place) : s ∈ taken := by
  cases h with
  | done hall => exact absurd (hall s hs) hstart.not_lt
  | @next _ first rest hfirst hplace hleft _ =>
    have hle : first.start ≤ s.start := hleft s hs hstart.ge
    rw [hone s first hs hfirst (Nat.le_antisymm (hstart.trans_le hplace) hle)]
    exact List.mem_cons_self

lemma unique (hone : ∀ s t, Fits s → Fits t → s.start = t.start → s = t) (h : InTurn Fits place taken)
    (h' : InTurn Fits place other) : taken = other := by
  induction h generalizing other with
  | done hall =>
    cases h' with
    | done => rfl
    | next hs hplace => exact absurd (hall _ hs) (Nat.not_lt.mpr hplace)
  | next hs hplace hfirst _ ih =>
    cases h' with
    | done hall => exact absurd (hall _ hs) (Nat.not_lt.mpr hplace)
    | next ht hplace' hfirst' hrest =>
      obtain rfl := hone _ _ hs ht (Nat.le_antisymm (hfirst _ ht hplace') (hfirst' _ hs hplace))
      rw [ih hrest]

end InTurn

/-- The stretches that fit are the matches of the pattern, wherever in the text they start. -/
def Describe (p : Pattern) (text : List Char) (Fits : Stretch → Prop) : Prop :=
  ∀ s, Fits s ↔ ∃ before c m, (Cursor.start text).Reads before c ∧ m ∈ p.matchesAt c ∧ s = ofHit (c, m)

variable {p : Pattern} {text before : List Char} {Fits : Stretch → Prop} {hits : List (Cursor × Match)} {c : Cursor}

lemma Describe.start_ne (hfits : Describe p text Fits) (hr : (Cursor.start text).Reads before c)
    (hm : p.matchAt? c = none) {s : Stretch} (hs : Fits s) : s.start ≠ c.index := by
  obtain ⟨more, d, m, hr', hmem, rfl⟩ := (hfits s).mp hs
  intro hstart
  obtain rfl := eq_of_index_eq hr' hr hstart
  rw [matchAt?, List.head?_eq_none_iff] at hm
  rw [hm] at hmem
  cases hmem

lemma Describe.isSome_matchAt?_iff (hfits : Describe p text Fits) (hr : (Cursor.start text).Reads before c) :
    (p.matchAt? c).isSome ↔ ∃ s, Fits s ∧ s.start = before.length := by
  rw [← index_of_reads hr]
  cases hm : p.matchAt? c with
  | some m => exact iff_of_true rfl ⟨ofHit (c, m), (hfits _).mpr ⟨before, c, m, hr, mem_of_matchAt? hm, rfl⟩, rfl⟩
  | none => exact iff_of_false nofun fun ⟨s, hs, hstart⟩ => hfits.start_ne hr hm hs hstart

/-- Nothing starts behind the end of the text. -/
lemma Describe.start_le (hfits : Describe p text Fits) (hr : (Cursor.start text).Reads before c) (hc : c.rest = [])
    {s : Stretch} (hs : Fits s) : s.start ≤ c.index := by
  obtain ⟨more, d, m, hr', _, rfl⟩ := (hfits s).mp hs
  have htext := congrArg List.length (hr.rest_eq.symm.trans hr'.rest_eq)
  rw [hc, List.append_nil, List.length_append] at htext
  change d.index ≤ c.index
  rw [index_of_reads hr, index_of_reads hr']
  omega

lemma Describe.inTurn (hfits : Describe p text Fits) (h : Search p c hits)
    (hr : (Cursor.start text).Reads before c) : InTurn Fits c.index (hits.map ofHit) := by
  induction h generalizing before with
  | @found c m hits hm _ ih =>
    obtain ⟨own, hown⟩ := reads_of_mem (mem_of_matchAt? hm)
    refine .next ((hfits _).mpr ⟨before, c, m, hr, mem_of_matchAt? hm, rfl⟩) le_rfl (fun t _ ht => ht) ?_
    exact ih (hr.trans hown)
  | @passed c x later hits hm hx _ ih =>
    -- nothing that fits starts at the place that is passed
    have hindex : later.index = c.index + 1 := ((Cursor.next?_eq_some_iff _ _ _).mp hx).2.1
    have hbehind : ∀ s, Fits s → c.index ≤ s.start → later.index ≤ s.start := by
      intro s hs hle
      have hne := hfits.start_ne hr hm hs
      omega
    have hrest := ih (hr.trans (.step hx .refl))
    generalize hits.map ofHit = taken at hrest
    cases hrest with
    | done hall => exact .done fun s hs => Nat.lt_of_not_le fun hle => Nat.not_lt.mpr (hbehind s hs hle) (hall s hs)
    | next hs hplace hfirst hrest =>
      exact .next hs (by omega) (fun t ht hle => hfirst t ht (hbehind t ht hle)) hrest
  | @ended c hm hx =>
    refine .done fun s hs => ?_
    exact Nat.lt_of_le_of_ne (hfits.start_le hr ((Cursor.next?_eq_none_iff c).mp hx) hs) (hfits.start_ne hr hm hs)

def sighting (text : List Char) (s : Stretch) : Sighting := ⟨(s.lineIn text).toUInt32, s.held⟩

lemma sightingOf_eq (hr : (Cursor.start text).Reads before c) (m : Match) :
    sightingOf text (c, m) = (ofHit (c, m)).sighting text := by
  have htext : text = before ++ c.rest := hr.rest_eq
  have hcount : text.count '\n' - c.rest.count '\n' = before.count '\n' := count_newline_of_reads hr
  rw [sightingOf, sighting, hcount, lineIn, ofHit, index_of_reads hr, htext, List.take_left]

lemma sightings_of_search (hp : p.consumes = true) (h : Search p (Cursor.start text) hits) :
    (Source.ofText text).sightings p = (hits.map ofHit).map (sighting text) := by
  rw [sightings_eq hp h, List.map_map]
  refine List.map_congr_left fun hit hh => ?_
  obtain ⟨before, hr⟩ := h.reads hh
  exact sightingOf_eq hr hit.2

theorem exists_inTurn (hp : p.consumes = true) (hfits : Describe p text Fits) :
    ∃ taken, InTurn Fits 0 taken ∧ (Source.ofText text).sightings p = taken.map (sighting text) := by
  obtain ⟨hits, h⟩ := exists_search hp (Cursor.start text)
  exact ⟨hits.map ofHit, hfits.inTurn h .refl, sightings_of_search hp h⟩

end Stretch

/-! Functions that one pattern finds, kept once by name. -/

lemma eraseDupsBy_map {α β : Type} (f : α → β) (same : β → β → Bool) (as : List α) :
    (as.map f).eraseDupsBy same = (as.eraseDupsBy fun a b => same (f a) (f b)).map f := by
  obtain ⟨n, hn⟩ : ∃ n, as.length = n := ⟨_, rfl⟩
  induction n using Nat.strong_induction_on generalizing as with
  | _ n ih =>
    cases as with
    | nil => rfl
    | cons a as =>
      have hlt : (as.filter ((fun b => decide (same b (f a) = false)) ∘ f)).length < n :=
        Nat.lt_of_le_of_lt (List.length_filter_le _ _) (by simp [← hn])
      rw [List.map_cons, List.eraseDupsBy_cons, List.eraseDupsBy_cons, List.map_cons, List.filter_map]
      exact congrArg _ (ih _ hlt _ rfl)

lemma Stretch.toNat_lineIn {text : List Char} (hn : text.count '\n' < 2 ^ 32 - 1) (s : Stretch) :
    (s.lineIn text).toUInt32.toNat = s.lineIn text :=
  toNat_line (Nat.lt_of_le_of_lt ((List.take_sublist _ _).count_le '\n') hn)

namespace NameFilter

variable {language : Language} {reserved : List String} {p : Pattern} {content : String} {taken : List Stretch}

lemma functions_eq_of_sightings (hf : language.nameFilter? = some ⟨reserved, [p]⟩)
    (hn : content.toList.count '\n' < 2 ^ 32 - 1)
    (hs : (Source.ofText content.toList).sightings p = taken.map (·.sighting content.toList)) :
    (functionsOf (language.scan content)).map (fun e => (e.name, e.line.toNat)) =
      ((taken.filter (·.name ∉ reserved)).eraseDupsBy (·.name == ·.name)).map
        fun s => (s.name, s.lineIn content.toList) := by
  have hpairs : (Sighting.firstOfEachName reserved (taken.map (·.sighting content.toList))).map
      (fun s => (s.name, s.line)) = ((taken.filter (·.name ∉ reserved)).eraseDupsBy (·.name == ·.name)).map
        fun s => (s.name, (s.lineIn content.toList).toUInt32) := by
    rw [Sighting.map_firstOfEachName, List.map_map, List.filter_map, eraseDupsBy_map]
    rfl
  have hlines := congrArg (List.map fun pair : String × UInt32 => (pair.1, pair.2.toNat)) hpairs
  rw [List.map_map, List.map_map] at hlines
  rw [functionsOf_scan hf, List.flatMap_singleton, hs, List.map_map]
  refine hlines.trans (List.map_congr_left fun s _ => ?_)
  rw [Function.comp_apply, Stretch.toNat_lineIn hn]

end NameFilter

end CodeOutline
