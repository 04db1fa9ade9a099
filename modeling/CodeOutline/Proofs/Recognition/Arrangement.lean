import CodeOutline.Proofs.Recognition.Distinct

/-! Recognition reports by kind, and within a kind from the top of the text to its end as far as one pattern
finds what is reported. -/

namespace CodeOutline

open Pattern Recognition

variable {language : Language} {pass : Pass} {p : Pattern} {text : List Char} {kind : Element.Kind}

namespace Pattern

/-- Every match starts on a line of its own. -/
def anchored : Pattern → Bool
  | lineStart => true
  | seq first _ => first.anchored
  | _ => false

lemma before_of_anchored {c : Cursor} {m : Match} (hp : p.anchored = true) (hm : m ∈ p.matchesAt c) :
    c.before = '\n' := by
  induction p generalizing m with
  | lineStart => exact (mem_lineStart.mp hm).2
  | seq first _ ih _ =>
    obtain ⟨a, ha, _⟩ := mem_seq.mp hm
    exact ih hp ha
  | literal | one | run | either | optional | star | group | edge => cases hp

end Pattern

section Lines

variable {hits : List (Cursor × Match)}

lemma count_newline_pos_of_before {c d : Cursor} {mid : List Char} (hne : mid ≠ []) (hr : c.Reads mid d)
    (hd : d.before = '\n') : 0 < mid.count '\n' := by
  rw [hr.before_eq] at hd
  have hl : mid.getLastD c.before = mid.getLast hne := by
    rw [List.getLastD_eq_getLast?, List.getLast?_eq_some_getLast hne, Option.getD_some]
  apply List.count_pos_iff.mpr
  rw [← hd, hl]
  exact List.getLast_mem hne

lemma toNat_sightingOf_line {c : Cursor} {m : Match} {before : List Char} (hn : text.count '\n' < 2 ^ 32 - 1)
    (hr : (Cursor.start text).Reads before c) : (sightingOf text (c, m)).line.toNat = before.count '\n' + 1 := by
  have ht : text = before ++ c.rest := hr.rest_eq
  have hc : text.count '\n' - c.rest.count '\n' = before.count '\n' := count_newline_of_reads hr
  have hle : before.count '\n' ≤ text.count '\n' := by simp [ht]
  simp only [sightingOf, hc]
  exact toNat_line (by omega)

lemma exists_lines_of_hits (hp : p.consumes = true) (hn : text.count '\n' < 2 ^ 32 - 1)
    (h : Search p (Cursor.start text) hits) :
    hits.Pairwise fun hit later => ∃ mid, mid ≠ [] ∧ hit.1.Reads mid later.1 ∧
      (sightingOf text later).line.toNat = (sightingOf text hit).line.toNat + mid.count '\n' := by
  refine (h.starts_pairwise hp).imp_of_mem fun {hit later} hh _ hr => ?_
  obtain ⟨mid, hne, hr⟩ := hr
  obtain ⟨before, hb⟩ := h.reads hh
  refine ⟨mid, hne, hr, ?_⟩
  rw [toNat_sightingOf_line hn hb, toNat_sightingOf_line hn (hb.trans hr), List.count_append]
  omega

lemma lines_nondecreasing (hp : p.consumes = true) (hn : text.count '\n' < 2 ^ 32 - 1) :
    ((Source.ofText text).sightings p).Pairwise fun s later => s.line ≤ later.line := by
  obtain ⟨hits, h⟩ := exists_search hp (Cursor.start text)
  rw [sightings_eq hp h, List.pairwise_map]
  refine (exists_lines_of_hits hp hn h).imp fun ⟨_, _, _, hl⟩ => ?_
  apply UInt32.le_iff_toNat_le.mpr
  omega

lemma lines_increasing (hp : p.consumes = true) (ha : p.anchored = true) (hn : text.count '\n' < 2 ^ 32 - 1) :
    ((Source.ofText text).sightings p).Pairwise fun s later => s.line < later.line := by
  obtain ⟨hits, h⟩ := exists_search hp (Cursor.start text)
  rw [sightings_eq hp h, List.pairwise_map]
  refine (exists_lines_of_hits hp hn h).imp_of_mem fun {hit later} _ hlater hr => ?_
  obtain ⟨mid, hne, hr, hl⟩ := hr
  have hd := before_of_anchored ha (mem_of_matchAt? (h.matchAt?_eq hlater))
  have hpos := count_newline_pos_of_before hne hr hd
  apply UInt32.lt_iff_toNat_lt.mpr
  omega

end Lines

namespace Pass

lemma run_pairwise {source : Source} {R : UInt32 → UInt32 → Prop} (hp : pass.patterns = [p])
    (h : (source.sightings p).Pairwise fun s later => R s.line later.line) :
    (pass.run source).Pairwise fun e later => R e.line later.line := by
  rw [run, hp, List.flatMap_singleton, List.pairwise_map]
  refine (h.sublist (pass.keep_sublist _)).imp fun hR => ?_
  simpa only [line_report] using hR

end Pass

/-- The kinds in the order in which a language reports them. -/
def Language.order : Language → List Element.Kind
  | script => [.function, .route, .classDecl, .interfaceDecl, .typeDecl]
  | python => [.function, .classDecl]
  | java => [.classDecl, .interfaceDecl, .function]
  | go => [.function, .classDecl, .interfaceDecl, .typeDecl]
  | c => [.classDecl, .typeDecl, .function]

/-- Kinds of which no two declarations start on one line. -/
def Language.separates : Language → Element.Kind → Bool
  | python, _ | go, _ | c, .classDecl | c, .function => true
  | _, _ => false

/-- Kinds that several patterns look for. -/
def Language.restarts : Language → Element.Kind → Bool
  | script, .function | script, .route => true
  | _, _ => false

def blockOf (kind : Element.Kind) (scanned : List Element) : List Element := scanned.filter (·.kind = kind)

namespace Pattern.Occurrence

variable (content : String) (o : Occurrence)

def element (kind : Element.Kind) : Element := ⟨kind, o.name, o.lineIn content⟩

def route : Element := ⟨.route, o.name.toUpper ++ " " ++ String.ofList (o.groups.getD 1 []), o.lineIn content⟩

end Pattern.Occurrence

def elementsIn (content : String) (kind : Element.Kind) (p : Pattern) : List Element :=
  (p.occurrences content.toList).map (·.element content kind)

def routesIn (content object : String) : List Element :=
  ((Script.routeOf object).occurrences content.toList).map (·.route content)

/-- There is something to report other than exports. A function with a reserved name is nothing to report. -/
def HasDeclarations (content : String) : Prop :=
  (∃ p ∈ Script.functionPatterns, ∃ o ∈ p.occurrences content.toList, o.name ∉ Script.reserved) ∨
    ∃ p ∈ [Script.routeOf "router", Script.routeOf "app", Script.declaration "class", Script.declaration "interface",
      Script.declaration "type"], p.occurrences content.toList ≠ []

def Nondecreasing (block : List Element) : Prop := block.Pairwise fun e later => e.line ≤ later.line

/-- How what is recognized in a text is laid out. -/
structure Language.Arranges (language : Language) (content : String) (scanned : List Element) : Prop where
  blocks_eq : scanned = language.order.flatMap (blockOf · scanned) ++ blockOf .moduleExport scanned
  exports_of_script : language = .script → ¬ HasDeclarations content →
    scanned = elementsIn content .moduleExport Script.moduleExport
  no_exports : language ≠ .script ∨ HasDeclarations content → blockOf .moduleExport scanned = []
  declared_iff : language = .script → ((∃ e ∈ scanned, e.kind ≠ .moduleExport) ↔ HasDeclarations content)
  nondecreasing : ∀ kind, language.restarts kind = false → Nondecreasing (blockOf kind scanned)
  increasing : ∀ kind, language.separates kind = true →
    (blockOf kind scanned).Pairwise fun e later => e.line < later.line
  function_runs : language = .script → ∃ runs, blockOf .function scanned = runs.flatten ∧
    List.Forall₂ (fun p run => run.Sublist (elementsIn content .function p)) Script.functionPatterns runs ∧
    ∀ run ∈ runs, Nondecreasing run
  route_runs : language = .script → blockOf .route scanned = routesIn content "router" ++ routesIn content "app" ∧
    Nondecreasing (routesIn content "router") ∧ Nondecreasing (routesIn content "app")

section Blocks

variable (source : Source)

lemma blockOf_flatMap_run (kind : Element.Kind) (passes : List Pass) :
    blockOf kind (passes.flatMap (Pass.run source)) =
      (passes.filter fun pass => decide (pass.kind = kind)).flatMap (Pass.run source) :=
  Pass.filter_flatMap_run (fun k => decide (k = kind)) source passes

lemma passes_eq_flatMap_order (language : Language) :
    (language.order.flatMap fun kind => language.passes.filter fun pass => decide (pass.kind = kind)) =
      language.passes := by
  cases language <;> rfl

lemma filter_exports_eq (language : Language) :
    language.passes.filter (fun pass => decide (pass.kind = .moduleExport)) = [] ∧
      language.fallback.filter (fun pass => decide (pass.kind = .moduleExport)) = language.fallback := by
  cases language <;> exact ⟨rfl, rfl⟩

lemma filter_fallback_eq_nil (hk : kind ≠ .moduleExport) :
    language.fallback.filter (fun pass => decide (pass.kind = kind)) = [] := by
  cases language with
  | script =>
    have hne : ¬ Element.Kind.moduleExport = kind := Ne.symm hk
    simp [Language.fallback, Pass.kind, hne]
  | python | java | go | c => rfl

lemma ne_moduleExport_of_mem_order (hk : kind ∈ language.order) : kind ≠ .moduleExport := by
  rintro rfl
  cases language <;> exact absurd hk (by decide)

lemma blockOf_recognize (hk : kind ≠ .moduleExport) :
    blockOf kind (language.recognize source) =
      (language.passes.filter fun pass => decide (pass.kind = kind)).flatMap (Pass.run source) := by
  rw [← blockOf_flatMap_run, Language.recognize_eq]
  split
  · next h => rw [h, blockOf_flatMap_run, filter_fallback_eq_nil hk, List.flatMap_nil, blockOf, List.filter_nil]
  · rfl

lemma exports_recognize (language : Language) :
    blockOf .moduleExport (language.recognize source) =
      if language.passes.flatMap (Pass.run source) = [] then language.fallback.flatMap (Pass.run source) else [] := by
  rw [Language.recognize_eq]
  split
  · rw [blockOf_flatMap_run, (filter_exports_eq language).2]
  · rw [blockOf_flatMap_run, (filter_exports_eq language).1, List.flatMap_nil]

lemma recognize_eq_blocks (language : Language) :
    language.recognize source = language.order.flatMap (blockOf · (language.recognize source)) ++
      blockOf .moduleExport (language.recognize source) := by
  have hblocks : language.order.flatMap (blockOf · (language.recognize source)) =
      language.passes.flatMap (Pass.run source) := by
    rw [← passes_eq_flatMap_order language, List.flatMap_assoc]
    exact List.flatMap_congr fun kind hk => blockOf_recognize source (ne_moduleExport_of_mem_order hk)
  rw [hblocks, exports_recognize, Language.recognize_eq]
  split
  · next h => rw [h, List.nil_append]
  · rw [List.append_nil]

lemma sole_pass (hk : language.restarts kind = false) :
    language.passes.filter (fun pass => decide (pass.kind = kind)) = [] ∨
      ∃ pass p, language.passes.filter (fun pass => decide (pass.kind = kind)) = [pass] ∧
        pass.patterns = [p] ∧ p.consumes = true ∧ (language.separates kind = true → p.anchored = true) := by
  cases language <;> cases kind <;> first
    | exact absurd hk (by decide)
    | exact Or.inl rfl
    | exact Or.inr ⟨_, _, rfl, rfl, by decide⟩

lemma blockOf_pairwise {R : UInt32 → UInt32 → Prop} (hk : language.restarts kind = false) (hne : kind ≠ .moduleExport)
    (h : ∀ p : Pattern, p.consumes = true → (language.separates kind = true → p.anchored = true) →
      (source.sightings p).Pairwise fun s later => R s.line later.line) :
    (blockOf kind (language.recognize source)).Pairwise fun e later => R e.line later.line := by
  rw [blockOf_recognize source hne]
  rcases sole_pass hk with hnil | ⟨pass, p, hpass, hp, hc, ha⟩
  · rw [hnil, List.flatMap_nil]
    exact .nil
  · rw [hpass, List.flatMap_singleton]
    exact Pass.run_pairwise hp (h p hc ha)

end Blocks

section Runs

variable {α β : Type}

lemma exists_runs_of_sublist {g : α → List β} {R : β → β → Prop} {ps : List α} {found : List β}
    (hR : ∀ p ∈ ps, (g p).Pairwise R) (h : found.Sublist (ps.flatMap g)) :
    ∃ runs : List (List β), found = runs.flatten ∧ List.Forall₂ (fun p run => run.Sublist (g p)) ps runs ∧
      ∀ run ∈ runs, run.Pairwise R := by
  induction ps generalizing found with
  | nil => exact ⟨[], List.sublist_nil.mp h, .nil, List.forall_mem_nil _⟩
  | cons p ps ih =>
    rw [List.flatMap_cons] at h
    obtain ⟨hp, hps⟩ := List.forall_mem_cons.mp hR
    obtain ⟨run, rest, rfl, hrun, hrest⟩ := List.sublist_append_iff.mp h
    obtain ⟨runs, rfl, hruns, hpair⟩ := ih hps hrest
    exact ⟨run :: runs, rfl, .cons hrun hruns, List.forall_mem_cons.mpr ⟨hp.sublist hrun, hpair⟩⟩

end Runs

variable {content : String}

lemma blockOf_scan_of_every (hne : kind ≠ .moduleExport)
    (hpasses : language.passes.filter (fun pass => decide (pass.kind = kind)) = [.every kind p]) (content : String) :
    blockOf kind (language.scan content) = (Source.ofText content.toList).elements kind p := by
  rw [Language.scan, blockOf_recognize _ hne, hpasses, List.flatMap_singleton, Pass.run_every]

lemma nondecreasing_elementsIn (hp : p.consumes = true) (hn : content.toList.count '\n' < 2 ^ 32 - 1) :
    Nondecreasing (elementsIn content kind p) := by
  have h := lines_nondecreasing hp hn
  rw [Source.sightings, List.pairwise_map] at h
  exact List.pairwise_map.mpr h

lemma nondecreasing_routesIn {object : String} (hp : (Script.routeOf object).consumes = true)
    (hn : content.toList.count '\n' < 2 ^ 32 - 1) : Nondecreasing (routesIn content object) := by
  have h := lines_nondecreasing hp hn
  rw [Source.sightings, List.pairwise_map] at h
  exact List.pairwise_map.mpr h

lemma functions_in_runs (hn : content.toList.count '\n' < 2 ^ 32 - 1) :
    ∃ runs, blockOf .function (Language.script.scan content) = runs.flatten ∧
      List.Forall₂ (fun p run => run.Sublist (elementsIn content .function p)) Script.functionPatterns runs ∧
      ∀ run ∈ runs, Nondecreasing run := by
  have hf : Language.script.nameFilter? = some ⟨Script.reserved, Script.functionPatterns⟩ := rfl
  have hc : ∀ p ∈ Script.functionPatterns, p.consumes = true := by decide
  have hblock : blockOf .function (Language.script.scan content) = _ := NameFilter.functionsOf_scan hf content
  have hall : (Script.functionPatterns.flatMap (Source.ofText content.toList).sightings).map
      (Sighting.element .function) = Script.functionPatterns.flatMap (elementsIn content .function) := by
    simp only [List.map_flatMap, Source.sightings, List.map_map]
    rfl
  apply exists_runs_of_sublist
  · exact fun p hp => nondecreasing_elementsIn (hc p hp) hn
  · rw [hblock, ← hall]
    exact (Sighting.firstOfEachName_sublist _ _).map _

lemma blockOf_route_scan (content : String) :
    blockOf .route (Language.script.scan content) = Script.routes (Source.ofText content.toList) := by
  have hpasses : Language.script.passes.filter (fun pass => decide (pass.kind = .route)) =
      [.routes (Script.routeOf "router"), .routes (Script.routeOf "app")] := rfl
  rw [Language.scan, blockOf_recognize _ (by decide), hpasses, List.flatMap_cons, List.flatMap_singleton, Pass.run_routes,
    Pass.run_routes, Script.routes, List.flatMap_cons, List.flatMap_singleton]

lemma routes_in_runs : blockOf .route (Language.script.scan content) =
    routesIn content "router" ++ routesIn content "app" := by
  have hroutes : ∀ object, ((Source.ofText content.toList).sightings (Script.routeOf object)).map Script.routeElement =
      routesIn content object := by
    intro object
    rw [Source.sightings, List.map_map]
    rfl
  rw [blockOf_route_scan, Script.routes, List.flatMap_cons, List.flatMap_singleton, hroutes, hroutes]

lemma firstOfEachName_eq_nil_iff (seen : List String) (found : List Sighting) :
    Sighting.firstOfEachName seen found = [] ↔ ∀ s ∈ found, s.name ∈ seen := by
  induction found with
  | nil => simp [Sighting.firstOfEachName]
  | cons s rest ih => by_cases hs : s.name ∈ seen <;> simp [Sighting.firstOfEachName, hs, ih]

lemma sightings_eq_nil_iff (content : String) (p : Pattern) :
    (Source.ofText content.toList).sightings p = [] ↔ p.occurrences content.toList = [] := List.map_eq_nil_iff

lemma forall_sightings_iff (content : String) (p : Pattern) {P : String → Prop} :
    (∀ s ∈ (Source.ofText content.toList).sightings p, P s.name) ↔ ∀ o ∈ p.occurrences content.toList, P o.name := by
  rw [Source.sightings, List.forall_mem_map]
  rfl

lemma hasDeclarations_iff : HasDeclarations content ↔
    Language.script.passes.flatMap (Pass.run (Source.ofText content.toList)) ≠ [] := by
  have hfun : (Source.ofText content.toList).distinctElements .function Script.reserved Script.functionPatterns = [] ↔
      ∀ p ∈ Script.functionPatterns, ∀ o ∈ p.occurrences content.toList, o.name ∈ Script.reserved := by
    rw [Source.distinctElements, List.map_eq_nil_iff, firstOfEachName_eq_nil_iff]
    simp only [List.forall_mem_flatMap, forall_sightings_iff content _]
  rw [iff_not_comm]
  simp only [HasDeclarations, Language.passes, List.flatMap_cons, List.flatMap_nil, List.append_eq_nil_iff,
    Pass.run_distinct, Pass.run_routes, Pass.run_every, Source.elements, List.map_eq_nil_iff, sightings_eq_nil_iff, hfun]
  simp

lemma exports_of_script (h : ¬ HasDeclarations content) :
    Language.script.scan content = elementsIn content .moduleExport Script.moduleExport := by
  have hnil := not_not.mp (mt hasDeclarations_iff.mpr h)
  rw [Language.scan, Language.recognize_eq, if_pos hnil, Language.fallback, List.flatMap_singleton, Pass.run_every,
    Source.elements, Source.sightings, List.map_map]
  rfl

lemma no_exports (h : language ≠ .script ∨ HasDeclarations content) :
    blockOf .moduleExport (language.scan content) = [] := by
  rw [Language.scan, exports_recognize]
  cases language with
  | script =>
    have hd := h.resolve_left fun hne => hne rfl
    rw [if_neg (hasDeclarations_iff.mp hd)]
  | python | java | go | c => exact ite_self _

lemma nondecreasing_exports (hn : content.toList.count '\n' < 2 ^ 32 - 1) :
    Nondecreasing (blockOf .moduleExport (language.scan content)) := by
  by_cases h : language ≠ .script ∨ HasDeclarations content
  · rw [no_exports h]
    exact .nil
  · rw [not_or, not_not] at h
    obtain ⟨rfl, h⟩ := h
    rw [exports_of_script h]
    exact (nondecreasing_elementsIn (by decide) hn).sublist List.filter_sublist

lemma exists_declared_iff :
    (∃ e ∈ Language.script.scan content, e.kind ≠ .moduleExport) ↔ HasDeclarations content := by
  constructor
  · rintro ⟨e, he, hk⟩
    by_contra h
    rw [exports_of_script h] at he
    obtain ⟨o, _, rfl⟩ := List.mem_map.mp he
    exact hk rfl
  · intro h
    have hne : Language.script.scan content ≠ [] := by
      rw [Language.scan, Language.recognize_eq, if_neg (hasDeclarations_iff.mp h)]
      exact hasDeclarations_iff.mp h
    obtain ⟨e, he⟩ := List.exists_mem_of_ne_nil _ hne
    refine ⟨e, he, fun hk => ?_⟩
    have hmem : e ∈ blockOf .moduleExport (Language.script.scan content) := List.mem_filter.mpr ⟨he, by simpa using hk⟩
    rw [no_exports (Or.inr h)] at hmem
    exact List.not_mem_nil hmem

lemma restarts_of_separates (h : language.separates kind = true) : language.restarts kind = false := by
  cases language <;> cases kind <;> first | rfl | exact absurd h (by decide)

lemma ne_script_of_separates (h : language.separates kind = true) : language ≠ .script := by
  rintro rfl
  cases h

/-- What a text is recognized to hold is laid out by kind, each block in the order of the lines. -/
theorem arranges_scan (language : Language) (content : String) (hn : content.toList.count '\n' < 2 ^ 32 - 1) :
    language.Arranges content (language.scan content) where
  blocks_eq := recognize_eq_blocks _ language
  exports_of_script := by
    rintro rfl h
    exact exports_of_script h
  no_exports := no_exports
  declared_iff := by
    rintro rfl
    exact exists_declared_iff
  nondecreasing kind hk := by
    by_cases hne : kind = .moduleExport
    · subst hne
      exact nondecreasing_exports hn
    · exact blockOf_pairwise _ hk hne fun p hp _ => lines_nondecreasing hp hn
  increasing kind hk := by
    by_cases hne : kind = .moduleExport
    · subst hne
      rw [no_exports (Or.inl (ne_script_of_separates hk))]
      exact .nil
    · exact blockOf_pairwise _ (restarts_of_separates hk) hne fun p hp ha => lines_increasing hp (ha hk) hn
  function_runs := by
    rintro rfl
    exact functions_in_runs hn
  route_runs := by
    rintro rfl
    exact ⟨routes_in_runs, nondecreasing_routesIn (by decide) hn, nondecreasing_routesIn (by decide) hn⟩

theorem arranges_routes_and_functions :
    let content := "app.get('/', home)\nconst home = () => 1\nrouter.put('/item', store)\nfunction store() \x7b\x7d"
    content.toList.count '\n' < 2 ^ 32 - 1 ∧
      Language.script.scan content = [⟨.function, "store", 4⟩, ⟨.function, "home", 2⟩, ⟨.route, "PUT /item", 3⟩,
        ⟨.route, "GET /", 1⟩] ∧
      Language.script.Arranges content (Language.script.scan content) := by
  intro content
  have hn : content.toList.count '\n' < 2 ^ 32 - 1 := by decide
  exact ⟨hn, by decide +kernel, arranges_scan .script content hn⟩

/-- A function with a reserved name does not keep exports from being reported. -/
example : Language.script.scan "function require() \x7b\x7d\nmodule.exports = run" = [⟨.moduleExport, "run", 2⟩] := by
  decide +kernel

end CodeOutline
