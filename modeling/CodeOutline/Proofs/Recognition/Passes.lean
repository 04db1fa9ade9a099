import CodeOutline.Language
import CodeOutline.Proofs.Pattern.LineEnds
import CodeOutline.Proofs.Pattern.Trailing
import CodeOutline.Proofs.Recognition.Sightings

/-! Recognition as a list of passes over the text: which sightings each pass keeps and what it reports them as. -/

namespace CodeOutline

open Pattern Recognition

inductive Pass where
  | every (kind : Element.Kind) (p : Pattern)
  | distinct (reserved : List String) (ps : List Pattern)
  | routes (p : Pattern)
  | plainTypes (p : Pattern)

namespace Pass

def patterns : Pass → List Pattern
  | every _ p | routes p | plainTypes p => [p]
  | distinct _ ps => ps

def kind : Pass → Element.Kind
  | every kind _ => kind
  | distinct _ _ => .function
  | routes _ => .route
  | plainTypes _ => .typeDecl

def keep : Pass → List Sighting → List Sighting
  | every _ _, found | routes _, found => found
  | distinct reserved _, found => Sighting.firstOfEachName reserved found
  | plainTypes _, found => found.filter Go.definesPlainType

def report : Pass → Sighting → Element
  | routes _, s => Script.routeElement s
  | pass, s => s.element pass.kind

def run (source : Source) (pass : Pass) : List Element :=
  (pass.keep (pass.patterns.flatMap source.sightings)).map pass.report

variable (source : Source) (kind : Element.Kind) (p : Pattern)

@[simp] lemma run_every : run source (.every kind p) = source.elements kind p := by
  rw [run, patterns, List.flatMap_singleton]
  rfl

@[simp] lemma run_distinct (reserved : List String) (ps : List Pattern) :
    run source (.distinct reserved ps) = source.distinctElements .function reserved ps := rfl

@[simp] lemma run_routes : run source (.routes p) = (source.sightings p).map Script.routeElement := by
  rw [run, patterns, List.flatMap_singleton]
  rfl

@[simp] lemma run_plainTypes :
    run source (.plainTypes p) = ((source.sightings p).filter Go.definesPlainType).map (·.element .typeDecl) := by
  rw [run, patterns, List.flatMap_singleton]
  rfl

end Pass

namespace Language

def passes : Language → List Pass
  | script => [
      .distinct Script.reserved Script.functionPatterns, .routes (Script.routeOf "router"),
      .routes (Script.routeOf "app"), .every .classDecl (Script.declaration "class"),
      .every .interfaceDecl (Script.declaration "interface"), .every .typeDecl (Script.declaration "type")]
  | python => [.every .function Python.functionPattern, .every .classDecl Python.classPattern]
  | java => [
      .every .classDecl Java.classPattern, .every .interfaceDecl Java.interfacePattern,
      .distinct Java.reserved [Java.methodPattern]]
  | go => [
      .every .function Go.functionPattern, .every .classDecl Go.structPattern,
      .every .interfaceDecl Go.interfacePattern, .plainTypes Go.typePattern]
  | c => [
      .every .classDecl C.classPattern, .every .typeDecl C.structPattern,
      .distinct C.reserved [C.functionPattern]]

/-- The passes over a text in which the others find nothing. -/
def fallback : Language → List Pass
  | script => [.every .moduleExport Script.moduleExport]
  | python | java | go | c => []

lemma recognize_eq (language : Language) (source : Source) :
    language.recognize source =
      if language.passes.flatMap (Pass.run source) = [] then language.fallback.flatMap (Pass.run source)
      else language.passes.flatMap (Pass.run source) := by
  cases language with
  | script =>
    have hd : script.passes.flatMap (Pass.run source) = Script.declarations source := by
      simp [passes, Script.declarations, Script.routes]
    rw [hd]
    simp only [recognize, Script.scan]
    split
    · next h => simp [h, fallback]
    · next h => rw [if_neg h]
  | python => simp [recognize, Python.scan, passes, fallback]
  | java => simp [recognize, Java.scan, passes, fallback]
  | go => simp [recognize, Go.scan, passes, fallback]
  | c => simp [recognize, C.scan, passes, fallback]

lemma exists_pass_of_mem {language : Language} {source : Source} {e : Element}
    (he : e ∈ language.recognize source) :
    ∃ pass ∈ language.passes ++ language.fallback, e ∈ pass.run source := by
  rw [recognize_eq] at he
  split at he
  · obtain ⟨pass, hp, he⟩ := List.mem_flatMap.mp he
    exact ⟨pass, List.mem_append_right _ hp, he⟩
  · obtain ⟨pass, hp, he⟩ := List.mem_flatMap.mp he
    exact ⟨pass, List.mem_append_left _ hp, he⟩

end Language

structure Pattern.Declares (p : Pattern) : Prop where
  consumes : p.consumes = true
  steady : p.steady = true
  refuses : p.margin = .refuses
  settled : p.settled = true
  demands : p.demands = true
  blind : p.blind = true

instance (p : Pattern) : Decidable p.Declares :=
  decidable_of_iff (p.consumes = true ∧ p.steady = true ∧ p.margin = .refuses ∧ p.settled = true ∧
      p.demands = true ∧ p.blind = true)
    ⟨fun ⟨hc, hs, hr, ht, hd, hb⟩ => ⟨hc, hs, hr, ht, hd, hb⟩,
      fun ⟨hc, hs, hr, ht, hd, hb⟩ => ⟨hc, hs, hr, ht, hd, hb⟩⟩

lemma declares (language : Language) :
    ∀ pass ∈ language.passes ++ language.fallback, ∀ p ∈ pass.patterns, p.Declares := by
  cases language <;> decide

namespace Sighting

lemma firstOfEachName_sublist (seen : List String) (sightings : List Sighting) :
    (firstOfEachName seen sightings).Sublist sightings := by
  induction sightings generalizing seen with
  | nil => exact .slnil
  | cons s rest ih =>
    unfold firstOfEachName
    split
    · exact .cons _ (ih _)
    · exact .cons_cons _ (ih _)

end Sighting

namespace Pass

lemma keep_sublist (pass : Pass) (found : List Sighting) : (pass.keep found).Sublist found := by
  cases pass with
  | every | routes => exact .refl _
  | distinct reserved => exact Sighting.firstOfEachName_sublist reserved found
  | plainTypes => exact List.filter_sublist

lemma kind_report (pass : Pass) (s : Sighting) : (pass.report s).kind = pass.kind := by
  cases pass <;> rfl

lemma line_report (pass : Pass) (s : Sighting) : (pass.report s).line = s.line := by
  cases pass <;> rfl

lemma report_of_ne_route {pass : Pass} (hk : pass.kind ≠ .route) (s : Sighting) :
    pass.report s = s.element pass.kind := by
  cases pass with
  | routes => exact absurd rfl hk
  | every | distinct | plainTypes => rfl

lemma exists_sighting_of_mem {pass : Pass} {source : Source} {e : Element} (he : e ∈ pass.run source) :
    ∃ p ∈ pass.patterns, ∃ s ∈ source.sightings p, pass.report s = e := by
  obtain ⟨s, hs, rfl⟩ := List.mem_map.mp he
  obtain ⟨p, hp, hs⟩ := List.mem_flatMap.mp ((pass.keep_sublist _).subset hs)
  exact ⟨p, hp, s, hs, rfl⟩

end Pass

lemma Language.line_bounds_of_mem {language : Language} {text : List Char} {e : Element}
    (hn : text.count '\n' < 2 ^ 32 - 1) (he : e ∈ language.recognize (Source.ofText text)) :
    1 ≤ e.line.toNat ∧ e.line.toNat ≤ text.count '\n' + 1 := by
  obtain ⟨pass, hpass, he⟩ := exists_pass_of_mem he
  obtain ⟨p, hp, s, hs, rfl⟩ := Pass.exists_sighting_of_mem he
  rw [pass.line_report s]
  exact line_bounds (declares language pass hpass p hp).consumes hn hs

end CodeOutline
