import CodeOutline.Proofs.Recognition.Passes
import Mathlib.Data.List.Nodup

/-! Functions are kept once by name: where each comes from, and what else the scan of a text reports. -/

namespace CodeOutline

open Pattern Recognition

namespace Pattern.Occurrence

def name (o : Occurrence) : String := String.ofList (o.groups.headD [])

def lineIn (content : String) (o : Occurrence) : UInt32 :=
  (Text.LineIndex.ofText content.toList).lineAt o.position

end Pattern.Occurrence

/-- The patterns that find functions kept once by name, and the names that are passed over. -/
structure NameFilter where
  reserved : List String
  patterns : List Pattern

def Language.nameFilter? : Language → Option NameFilter
  | script => some ⟨Script.reserved, Script.functionPatterns⟩
  | java => some ⟨Java.reserved, [Java.methodPattern]⟩
  | c => some ⟨C.reserved, [C.functionPattern]⟩
  | python | go => none

def functionsOf (scanned : List Element) : List Element := scanned.filter (·.kind = .function)

/-- Every sighting of every pass, none left out. -/
def reportAll (passes : List Pass) (content : String) : List Element :=
  passes.flatMap fun pass => (pass.patterns.flatMap (Source.ofText content.toList).sightings).map pass.report

namespace NameFilter

variable (f : NameFilter) (language : Language) (content : String)

/-- The name and the line of every match, pattern by pattern, each from left to right. -/
def found : List (String × UInt32) :=
  f.patterns.flatMap fun p => (p.occurrences content.toList).map fun o => (o.name, o.lineIn content)

/-- What `scanned` holds when only functions pass the filter: of the names found that are not reserved, each
where it was found first, and all there is of other kinds. -/
structure Yields (scanned : List Element) : Prop where
  functions_eq : functionsOf scanned =
    (((f.found content).filter (·.1 ∉ f.reserved)).eraseDupsBy fun x y => x.1 == y.1).map
      fun (name, line) => ⟨.function, name, line⟩
  names_nodup : ((functionsOf scanned).map (·.name)).Nodup
  not_reserved : ∀ e ∈ functionsOf scanned, e.name ∉ f.reserved
  complete : ∀ x ∈ f.found content, x.1 ∉ f.reserved → ∃ e ∈ functionsOf scanned, e.name = x.1
  first : ∀ e ∈ functionsOf scanned, ∃ earlier p later, f.patterns = earlier ++ p :: later ∧
    (∀ q ∈ earlier, ∀ o ∈ q.occurrences content.toList, o.name ≠ e.name) ∧
    ∃ o ∈ p.occurrences content.toList, o.name = e.name ∧ e.line = o.lineIn content ∧
      ∀ other ∈ p.occurrences content.toList, other.name = e.name → o.position ≤ other.position
  others_eq : scanned.filter (·.kind ≠ .function) =
    if functionsOf scanned = [] ∧ reportAll (language.passes.filter (·.kind ≠ .function)) content = []
    then reportAll language.fallback content
    else reportAll (language.passes.filter (·.kind ≠ .function)) content

end NameFilter

namespace Sighting

variable {seen : List String} {found : List Sighting} {s : Sighting}

lemma map_firstOfEachName (seen : List String) (found : List Sighting) :
    (firstOfEachName seen found).map (fun s => (s.name, s.line)) =
      ((found.map fun s => (s.name, s.line)).filter (·.1 ∉ seen)).eraseDupsBy fun x y => x.1 == y.1 := by
  induction found generalizing seen with
  | nil => rfl
  | cons s rest ih =>
    unfold firstOfEachName
    split
    · next h =>
      rw [ih, List.map_cons, List.filter_cons_of_neg (by simpa using h)]
    · next h =>
      rw [List.map_cons, ih, List.map_cons, List.filter_cons_of_pos (by simpa using h), List.eraseDupsBy_cons,
        List.filter_filter]
      refine congrArg _ (congrArg _ (List.filter_congr fun x _ => ?_))
      simp only [List.mem_cons, not_or, Bool.decide_and, beq_eq_false_iff_ne, ne_eq]

/-- A sighting that is kept is the first of its name. -/
lemma exists_split_of_mem (hs : s ∈ firstOfEachName seen found) :
    s.name ∉ seen ∧ ∃ before after, found = before ++ s :: after ∧ ∀ t ∈ before, t.name ≠ s.name := by
  induction found generalizing seen with
  | nil => exact absurd hs List.not_mem_nil
  | cons t rest ih =>
    unfold firstOfEachName at hs
    split at hs
    · next h =>
      obtain ⟨hn, before, after, rfl, hb⟩ := ih hs
      exact ⟨hn, t :: before, after, rfl, List.forall_mem_cons.mpr ⟨fun he => hn (he ▸ h), hb⟩⟩
    · next h =>
      rcases List.mem_cons.mp hs with rfl | hs
      · exact ⟨h, [], rest, rfl, List.forall_mem_nil _⟩
      · obtain ⟨hn, before, after, rfl, hb⟩ := ih hs
        rw [List.mem_cons, not_or] at hn
        exact ⟨hn.2, t :: before, after, rfl, List.forall_mem_cons.mpr ⟨Ne.symm hn.1, hb⟩⟩

lemma mem_names_iff {name : String} :
    name ∈ (firstOfEachName seen found).map Sighting.name ↔ name ∉ seen ∧ name ∈ found.map Sighting.name := by
  induction found generalizing seen with
  | nil => simp [firstOfEachName]
  | cons s rest ih =>
    unfold firstOfEachName
    split
    · next h =>
      rw [ih, List.map_cons, List.mem_cons]
      exact ⟨fun ⟨hn, hr⟩ => ⟨hn, Or.inr hr⟩, fun ⟨hn, hr⟩ => ⟨hn, hr.resolve_left fun he => hn (he ▸ h)⟩⟩
    · next h =>
      rw [List.map_cons, List.mem_cons, ih, List.map_cons, List.mem_cons, List.mem_cons, not_or]
      by_cases he : name = s.name
      · simp [he, h]
      · simp [he]

lemma nodup_names (seen : List String) (found : List Sighting) :
    ((firstOfEachName seen found).map Sighting.name).Nodup := by
  induction found generalizing seen with
  | nil => exact .nil
  | cons s rest ih =>
    unfold firstOfEachName
    split
    · exact ih seen
    · rw [List.map_cons, List.nodup_cons, mem_names_iff]
      exact ⟨fun h => h.1 (List.mem_cons_self ..), ih _⟩

end Sighting

lemma exists_split_of_flatMap {α β : Type} {g : α → List β} {ps : List α} {before after : List β} {b : β}
    (h : ps.flatMap g = before ++ b :: after) : ∃ earlier p later pre post,
      ps = earlier ++ p :: later ∧ g p = pre ++ b :: post ∧ before = earlier.flatMap g ++ pre := by
  induction ps generalizing before with
  | nil => exact absurd h.symm (by simp)
  | cons p ps ih =>
    rw [List.flatMap_cons, List.append_eq_append_iff] at h
    rcases h with ⟨rest, rfl, h⟩ | ⟨_ | ⟨c, post⟩, hp, h⟩
    · obtain ⟨earlier, q, later, pre, post, rfl, hq, rfl⟩ := ih h
      exact ⟨p :: earlier, q, later, pre, post, rfl, hq, by rw [List.flatMap_cons, List.append_assoc]⟩
    · have hps : ps.flatMap g = [] ++ b :: after := h.symm
      obtain ⟨earlier, q, later, pre, post, rfl, hq, hb⟩ := ih hps
      refine ⟨p :: earlier, q, later, pre, post, rfl, hq, ?_⟩
      rw [List.flatMap_cons, List.append_assoc, ← hb, List.append_nil, hp, List.append_nil]
    · rw [List.cons_append, List.cons.injEq] at h
      exact ⟨[], p, ps, before, post, rfl, by rw [hp, h.1], rfl⟩

namespace Pass

lemma filter_flatMap_run (want : Element.Kind → Bool) (source : Source) (passes : List Pass) :
    (passes.flatMap (run source)).filter (fun e => want e.kind) =
      (passes.filter fun pass => want pass.kind).flatMap (run source) := by
  induction passes with
  | nil => rfl
  | cons pass passes ih =>
    have hall : ∀ e ∈ pass.run source, want e.kind = want pass.kind := by
      intro e he
      obtain ⟨s, _, rfl⟩ := List.mem_map.mp he
      rw [kind_report]
    rw [List.flatMap_cons, List.filter_append, ih, List.filter_cons]
    split
    · next hw =>
      rw [List.filter_eq_self.mpr fun e he => (hall e he).trans hw, List.flatMap_cons]
    · next hw =>
      rw [List.filter_eq_nil_iff.mpr fun e he => by rwa [hall e he], List.nil_append]

end Pass

namespace NameFilter

variable {f : NameFilter} {language : Language} {content : String} {s : Sighting}

lemma passes_of_nameFilter (hf : language.nameFilter? = some f) :
    language.passes.filter (fun pass => decide (pass.kind = .function)) = [.distinct f.reserved f.patterns] ∧
      language.fallback.filter (fun pass => decide (pass.kind = .function)) = [] := by
  cases language <;> simp only [Language.nameFilter?, Option.some.injEq, reduceCtorEq] at hf <;> subst hf <;>
    exact ⟨rfl, rfl⟩

lemma functionsOf_scan (hf : language.nameFilter? = some f) (content : String) :
    functionsOf (language.scan content) = (Sighting.firstOfEachName f.reserved
      (f.patterns.flatMap (Source.ofText content.toList).sightings)).map (·.element .function) := by
  obtain ⟨hp, hb⟩ := passes_of_nameFilter hf
  have hr := Pass.filter_flatMap_run (fun k => decide (k = .function)) (Source.ofText content.toList)
  rw [functionsOf, Language.scan, Language.recognize_eq]
  split
  · next h =>
    have hn := hr language.passes
    rw [h, hp, List.filter_nil, List.flatMap_singleton] at hn
    rw [hr, hb, List.flatMap_nil, hn]
    rfl
  · rw [hr, hp, List.flatMap_singleton]
    rfl

lemma names_functionsOf_scan (hf : language.nameFilter? = some f) (content : String) :
    (functionsOf (language.scan content)).map (·.name) = (Sighting.firstOfEachName f.reserved
      (f.patterns.flatMap (Source.ofText content.toList).sightings)).map Sighting.name := by
  rw [functionsOf_scan hf, List.map_map]
  rfl

lemma count_name_eq_one (hf : language.nameFilter? = some f) {p : Pattern} (hp : p ∈ f.patterns) {s : Sighting}
    (hs : s ∈ (Source.ofText content.toList).sightings p) (hname : s.name ∉ f.reserved) :
    ((functionsOf (language.scan content)).map (·.name)).count s.name = 1 := by
  rw [names_functionsOf_scan hf]
  refine List.count_eq_one_of_mem (Sighting.nodup_names _ _) (Sighting.mem_names_iff.mpr ⟨hname, ?_⟩)
  exact List.mem_map_of_mem (List.mem_flatMap.mpr ⟨p, hp, hs⟩)

lemma reportAll_eq (hf : language.nameFilter? = some f) (content : String) :
    reportAll (language.passes.filter fun pass => decide (pass.kind ≠ .function)) content =
        (language.passes.filter fun pass => decide (pass.kind ≠ .function)).flatMap
          (Pass.run (Source.ofText content.toList)) ∧
      reportAll language.fallback content =
        (language.fallback.filter fun pass => decide (pass.kind ≠ .function)).flatMap
          (Pass.run (Source.ofText content.toList)) := by
  cases language <;> simp only [Language.nameFilter?, reduceCtorEq] at hf <;> exact ⟨rfl, rfl⟩

lemma eq_nil_of_filters {scanned : List Element} (hf : functionsOf scanned = [])
    (ho : scanned.filter (·.kind ≠ .function) = []) : scanned = [] := by
  refine List.eq_nil_iff_forall_not_mem.mpr fun e he => ?_
  by_cases hk : e.kind = .function
  · exact List.filter_eq_nil_iff.mp hf e he (decide_eq_true hk)
  · exact List.filter_eq_nil_iff.mp ho e he (decide_eq_true hk)

lemma others_scan (hf : language.nameFilter? = some f) : (language.scan content).filter (·.kind ≠ .function) =
    if functionsOf (language.scan content) = [] ∧
      reportAll (language.passes.filter (·.kind ≠ .function)) content = []
    then reportAll language.fallback content
    else reportAll (language.passes.filter (·.kind ≠ .function)) content := by
  obtain ⟨hp, hb⟩ := reportAll_eq hf content
  have hr := Pass.filter_flatMap_run (fun k => decide (k ≠ .function)) (Source.ofText content.toList)
  have hfun := Pass.filter_flatMap_run (fun k => decide (k = .function)) (Source.ofText content.toList)
  rw [hp, hb, ← hr, ← hr, Language.scan, Language.recognize_eq]
  split
  · next h =>
    rw [h, functionsOf, hfun, (passes_of_nameFilter hf).2, if_pos ⟨rfl, rfl⟩]
  · next h =>
    rw [if_neg fun hn => h (eq_nil_of_filters hn.1 hn.2)]

lemma map_found : (f.patterns.flatMap (Source.ofText content.toList).sightings).map (fun s => (s.name, s.line)) =
    f.found content := by
  simp only [List.map_flatMap, Source.sightings, List.map_map, found]
  rfl

lemma first_of_mem (hc : ∀ p ∈ f.patterns, p.consumes = true)
    (hs : s ∈ Sighting.firstOfEachName f.reserved (f.patterns.flatMap (Source.ofText content.toList).sightings)) :
    ∃ earlier p later, f.patterns = earlier ++ p :: later ∧
      (∀ q ∈ earlier, ∀ o ∈ q.occurrences content.toList, o.name ≠ s.name) ∧
      ∃ o ∈ p.occurrences content.toList, o.name = s.name ∧ s.line = o.lineIn content ∧
        ∀ other ∈ p.occurrences content.toList, other.name = s.name → o.position ≤ other.position := by
  obtain ⟨_, before, after, hsplit, hfirst⟩ := Sighting.exists_split_of_mem hs
  obtain ⟨earlier, p, later, pre, post, hps, hp, rfl⟩ := exists_split_of_flatMap hsplit
  obtain ⟨opre, rest, ho, rfl, hrest⟩ := List.map_eq_append_iff.mp hp
  obtain ⟨o, opost, rfl, rfl, _⟩ := List.map_eq_cons_iff.mp hrest
  change p.occurrences content.toList = opre ++ o :: opost at ho
  refine ⟨earlier, p, later, hps, fun q hq other hother => ?_, o, ?_, rfl, rfl, fun other hother hname => ?_⟩
  · exact hfirst _ (List.mem_append_left _ (List.mem_flatMap.mpr ⟨q, hq, List.mem_map_of_mem hother⟩))
  · rw [ho]
    exact List.mem_append_right _ (List.mem_cons_self ..)
  · have hord := occurrences_pairwise (hc p (by rw [hps]; simp)) content.toList
    rw [ho] at hother hord
    rcases List.mem_append.mp hother with hpre | hother
    · exact absurd hname (hfirst _ (List.mem_append_right _ (List.mem_map_of_mem hpre)))
    · rcases List.mem_cons.mp hother with rfl | hpost
      · exact Nat.le_refl _
      · exact Nat.le_of_lt (List.rel_of_pairwise_cons (List.pairwise_append.mp hord).2.1 hpost)

/-- Functions are filtered by name as they are found, and nothing else is. -/
theorem yields_scan (hf : language.nameFilter? = some f) : f.Yields language content (language.scan content) := by
  have hc : ∀ p ∈ f.patterns, p.consumes = true := by
    intro p hp
    have hmem : Pass.distinct f.reserved f.patterns ∈ language.passes :=
      List.mem_of_mem_filter ((passes_of_nameFilter hf).1 ▸ List.mem_singleton_self _)
    exact (declares language _ (List.mem_append_left _ hmem) p hp).consumes
  have hfun := functionsOf_scan hf content
  have hnames : (functionsOf (language.scan content)).map (·.name) = (Sighting.firstOfEachName f.reserved
      (f.patterns.flatMap (Source.ofText content.toList).sightings)).map Sighting.name := by
    rw [hfun, List.map_map]
    rfl
  constructor
  case functions_eq =>
    rw [hfun, ← map_found, ← Sighting.map_firstOfEachName, List.map_map]
    rfl
  case names_nodup => exact hnames ▸ Sighting.nodup_names _ _
  case not_reserved =>
    intro e he
    exact (Sighting.mem_names_iff.mp (hnames ▸ List.mem_map_of_mem he)).1
  case complete =>
    intro x hx hn
    rw [← map_found] at hx
    obtain ⟨s, hs, rfl⟩ := List.mem_map.mp hx
    exact List.mem_map.mp (hnames ▸ Sighting.mem_names_iff.mpr ⟨hn, List.mem_map_of_mem hs⟩)
  case first =>
    intro e he
    rw [hfun] at he
    obtain ⟨s, hs, rfl⟩ := List.mem_map.mp he
    exact first_of_mem hc hs
  case others_eq => exact others_scan hf

theorem yields_declaration_first :
    let content := "const load = () => 1\nfunction load()\nrequire: function ()\nclass A\nclass A\n"
    Language.nameFilter? .script = some ⟨Script.reserved, Script.functionPatterns⟩ ∧
      Language.script.scan content =
        [⟨.function, "load", 2⟩, ⟨.classDecl, "A", 4⟩, ⟨.classDecl, "A", 5⟩] ∧
      (NameFilter.mk Script.reserved Script.functionPatterns).Yields .script content
        [⟨.function, "load", 2⟩, ⟨.classDecl, "A", 4⟩, ⟨.classDecl, "A", 5⟩] := by
  intro content
  have hs : Language.script.scan content =
      [⟨.function, "load", 2⟩, ⟨.classDecl, "A", 4⟩, ⟨.classDecl, "A", 5⟩] := by
    decide +kernel
  exact ⟨rfl, hs, hs ▸ yields_scan rfl⟩

end NameFilter

end CodeOutline
