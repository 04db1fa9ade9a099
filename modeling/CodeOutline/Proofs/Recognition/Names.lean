import CodeOutline.Proofs.Recognition.Passes

/-! What recognition reports stands in the text: lines, names, routes and kinds of the elements found. -/

namespace CodeOutline

open Pattern Recognition

def IsPlainName (name : String) : Prop := name ≠ "" ∧ ∀ x ∈ name.toList, x.isAlphanum = true ∨ x = '_'

/-- `part` stands in `content`, beginning on line `line` or later. -/
def StandsIn (content part : String) (line : Nat) : Prop :=
  ∃ before after, content.toList = before ++ (part.toList ++ after) ∧ line ≤ before.count '\n' + 1

def Language.kinds : Language → List Element.Kind
  | script => Element.Kind.every
  | python => [.function, .classDecl]
  | java => [.classDecl, .interfaceDecl, .function]
  | go => [.function, .classDecl, .interfaceDecl, .typeDecl]
  | c => [.classDecl, .typeDecl, .function]

/-- What a reader of `content` may rely on for an element of it. -/
structure Element.Grounded (language : Language) (content : String) (e : Element) : Prop where
  line_pos : 1 ≤ e.line.toNat
  line_le : e.line.toNat ≤ content.toList.count '\n' + 1
  kind_mem : e.kind ∈ language.kinds
  name_of_ne_route : e.kind ≠ .route → StandsIn content e.name e.line.toNat ∧
    (IsPlainName e.name ∨
      language = .c ∧ e.kind = .function ∧ ∃ name, IsPlainName name ∧ e.name = "~" ++ name)
  name_of_route : e.kind = .route → ∃ verb ∈ ["GET", "POST", "PUT", "DELETE", "PATCH"], ∃ path,
    e.name = verb ++ " " ++ path ∧ path ≠ "" ∧ (∀ x ∈ path.toList, x ≠ '\'' ∧ x ≠ '"' ∧ x ≠ '`') ∧
      StandsIn content path e.line.toNat

variable {language : Language} {text held : List Char} {s : Sighting}

lemma isPlainName_of_spells (h : word.Spells held) : IsPlainName (String.ofList held) := by
  obtain ⟨hne, hall⟩ := spells_atLeastOne h
  refine ⟨fun he => hne ?_, fun x hx => ?_⟩
  · simpa using congrArg String.toList he
  · rw [String.toList_ofList] at hx
    simpa [Text.isAsciiWord] using hall x hx

def markedWord : Pattern := seq (optional (Pattern.text "~")) word

lemma name_of_spells_markedWord (h : markedWord.Spells held) :
    IsPlainName (String.ofList held) ∨ ∃ name, IsPlainName name ∧ String.ofList held = "~" ++ name := by
  obtain ⟨mark, letters, rfl, hm, hw⟩ := spells_seq h
  rcases spells_optional hm with hm | rfl
  · refine Or.inr ⟨String.ofList letters, isPlainName_of_spells hw, ?_⟩
    rw [spells_literal _ _ hm, String.ofList_append, String.ofList_toList]
  · exact Or.inl (isPlainName_of_spells hw)

lemma standsIn_of_holdsText {content : String} {body : Pattern} (h : s.HoldsText content.toList held body) :
    StandsIn content (String.ofList held) s.line.toNat := by
  obtain ⟨_, before, after, ht, hl⟩ := h
  exact ⟨before, after, by rw [ht, String.toList_ofList], hl⟩

lemma mem_kinds_of_mem_passes : ∀ pass ∈ language.passes ++ language.fallback, pass.kind ∈ language.kinds := by
  cases language <;> decide

/-- The first group of each pattern of a pass has this body. -/
def Pass.NamedBy (body : Pattern) (pass : Pass) : Prop := ∀ p ∈ pass.patterns, ∃ rest, p.bodies = body :: rest

lemma Pass.namedBy_singleton {pass : Pass} {p body : Pattern} {rest : List Pattern} (hp : pass.patterns = [p])
    (hb : p.bodies = body :: rest) : pass.NamedBy body := by
  intro q hq
  rw [hp, List.mem_singleton] at hq
  exact ⟨rest, hq ▸ hb⟩

lemma functionPatterns_bodies : ∀ p ∈ Script.functionPatterns, p.bodies = [word] := by
  simp only [Script.functionPatterns, List.forall_mem_cons]
  exact ⟨rfl, rfl, rfl, rfl, rfl, rfl, rfl, nofun⟩

lemma named_or_routes {pass : Pass} (hp : pass ∈ language.passes ++ language.fallback) :
    pass.kind ≠ .route ∧ pass.NamedBy word ∨
      (language = .c ∧ pass.kind = .function ∧ pass.NamedBy markedWord) ∨
      ∃ object, pass = .routes (Script.routeOf object) := by
  cases language <;> simp only [Language.passes, Language.fallback, List.cons_append, List.nil_append,
    List.append_nil, List.mem_cons, List.not_mem_nil, or_false] at hp
  case script =>
    rcases hp with rfl | rfl | rfl | rfl | rfl | rfl | rfl
    · exact Or.inl ⟨by decide, fun p hp => ⟨[], functionPatterns_bodies p hp⟩⟩
    · exact Or.inr (Or.inr ⟨_, rfl⟩)
    · exact Or.inr (Or.inr ⟨_, rfl⟩)
    all_goals exact Or.inl ⟨by decide, Pass.namedBy_singleton rfl rfl⟩
  case python => rcases hp with rfl | rfl <;> exact Or.inl ⟨by decide, Pass.namedBy_singleton rfl rfl⟩
  case java => rcases hp with rfl | rfl | rfl <;> exact Or.inl ⟨by decide, Pass.namedBy_singleton rfl rfl⟩
  case go => rcases hp with rfl | rfl | rfl | rfl <;> exact Or.inl ⟨by decide, Pass.namedBy_singleton rfl rfl⟩
  case c =>
    rcases hp with rfl | rfl | rfl
    · exact Or.inl ⟨by decide, Pass.namedBy_singleton rfl rfl⟩
    · exact Or.inl ⟨by decide, Pass.namedBy_singleton rfl rfl⟩
    · exact Or.inr (Or.inl ⟨rfl, rfl, Pass.namedBy_singleton rfl rfl⟩)

def routeBodies : List Pattern := [anyOf (Script.verbs.map Pattern.text), atLeastOne fun x => !Script.isQuote x]

lemma bodies_routeOf (object : String) : (Script.routeOf object).bodies = routeBodies := rfl

lemma mem_verbs_of_spells (h : (anyOf (Script.verbs.map Pattern.text)).Spells held) :
    String.ofList held ∈ Script.verbs := by
  obtain ⟨p, hp, h⟩ := spells_anyOf h
  obtain ⟨verb, hv, rfl⟩ := List.mem_map.mp hp
  rw [spells_literal _ _ h, String.ofList_toList]
  exact hv

lemma toUpper_mem_of_mem_verbs : ∀ verb ∈ Script.verbs, verb.toUpper ∈ ["GET", "POST", "PUT", "DELETE", "PATCH"] := by
  decide +kernel

lemma not_quote_of_spells (h : (atLeastOne fun x => !Script.isQuote x).Spells held) :
    String.ofList held ≠ "" ∧ ∀ x ∈ (String.ofList held).toList, x ≠ '\'' ∧ x ≠ '"' ∧ x ≠ '`' := by
  obtain ⟨hne, hall⟩ := spells_atLeastOne h
  refine ⟨fun he => hne (by simpa using congrArg String.toList he), fun x hx => ?_⟩
  rw [String.toList_ofList] at hx
  simpa [Script.isQuote] using hall x hx

lemma name_of_namedBy {pass : Pass} {p body : Pattern} (hd : p.Declares) (hn : pass.NamedBy body)
    (hp : p ∈ pass.patterns) (hs : s ∈ (Source.ofText text).sightings p) :
    ∃ held, s.name = String.ofList held ∧ s.HoldsText text held body := by
  have h := groups_hold_text hd.consumes hd.steady hs
  obtain ⟨rest, hb⟩ := hn p hp
  rw [hb, List.forall₂_cons_right_iff] at h
  obtain ⟨held, _, hh, _, hg⟩ := h
  exact ⟨held, by rw [Sighting.name, hg, List.headD_cons], hh⟩

lemma groups_of_route {object : String} (hd : (Script.routeOf object).Declares)
    (hs : s ∈ (Source.ofText text).sightings (Script.routeOf object)) :
    ∃ verb path, s.groups = [verb, path] ∧ (anyOf (Script.verbs.map Pattern.text)).Spells verb ∧
      s.HoldsText text path (atLeastOne fun x => !Script.isQuote x) := by
  have h := groups_hold_text hd.consumes hd.steady hs
  rw [bodies_routeOf, routeBodies, List.forall₂_cons_right_iff] at h
  obtain ⟨verb, more, hv, h, hg⟩ := h
  rw [List.forall₂_cons_right_iff] at h
  obtain ⟨path, none, hp, h, rfl⟩ := h
  rw [List.forall₂_nil_right_iff.mp h] at hg
  exact ⟨verb, path, hg, hv.1, hp⟩

section Sighted

variable {pass : Pass} {p : Pattern} {content : String}

lemma exists_object_of_route (hpass : pass ∈ language.passes ++ language.fallback) (hk : pass.kind = .route) :
    ∃ object, pass = .routes (Script.routeOf object) := by
  rcases named_or_routes hpass with ⟨hk', _⟩ | ⟨_, hf, _⟩ | h
  · exact absurd hk hk'
  · cases hk.symm.trans hf
  · exact h

lemma name_of_mem_sightings (hpass : pass ∈ language.passes ++ language.fallback) (hp : p ∈ pass.patterns)
    (hk : pass.kind ≠ .route) (hs : s ∈ (Source.ofText content.toList).sightings p) :
    StandsIn content s.name s.line.toNat ∧ (IsPlainName s.name ∨
      language = .c ∧ pass.kind = .function ∧ ∃ name, IsPlainName name ∧ s.name = "~" ++ name) := by
  have hd := declares language pass hpass p hp
  rcases named_or_routes hpass with ⟨_, hw⟩ | ⟨hc, hf, hw⟩ | ⟨object, rfl⟩
  · obtain ⟨held, hname, hh⟩ := name_of_namedBy hd hw hp hs
    rw [hname]
    exact ⟨standsIn_of_holdsText hh, Or.inl (isPlainName_of_spells hh.1)⟩
  · obtain ⟨held, hname, hh⟩ := name_of_namedBy hd hw hp hs
    rw [hname]
    exact ⟨standsIn_of_holdsText hh, (name_of_spells_markedWord hh.1).imp_right fun hm => ⟨hc, hf, hm⟩⟩
  · exact absurd rfl hk

lemma route_of_mem_sightings {object : String} (hd : (Script.routeOf object).Declares)
    (hs : s ∈ (Source.ofText content.toList).sightings (Script.routeOf object)) :
    ∃ verb ∈ ["GET", "POST", "PUT", "DELETE", "PATCH"], ∃ path, (Script.routeElement s).name = verb ++ " " ++ path ∧
      path ≠ "" ∧ (∀ x ∈ path.toList, x ≠ '\'' ∧ x ≠ '"' ∧ x ≠ '`') ∧ StandsIn content path s.line.toNat := by
  obtain ⟨verb, path, hg, hv, hh⟩ := groups_of_route hd hs
  obtain ⟨hne, hq⟩ := not_quote_of_spells hh.1
  have hverb := toUpper_mem_of_mem_verbs _ (mem_verbs_of_spells hv)
  refine ⟨_, hverb, String.ofList path, ?_, hne, hq, standsIn_of_holdsText hh⟩
  simp only [Script.routeElement, Sighting.name, hg]
  rfl

end Sighted

/-- Every element of a text with fewer newlines than lines can be told from one another is grounded in it. -/
theorem grounded_of_mem_scan (language : Language) (content : String)
    (hn : content.toList.count '\n' < 2 ^ 32 - 1) :
    ∀ e ∈ language.scan content, e.Grounded language content := by
  intro e he
  have hlines := Language.line_bounds_of_mem hn he
  obtain ⟨pass, hpass, he⟩ := Language.exists_pass_of_mem he
  obtain ⟨p, hp, s, hs, rfl⟩ := Pass.exists_sighting_of_mem he
  refine ⟨hlines.1, hlines.2, ?_, fun hk => ?_, fun hk => ?_⟩
  · exact pass.kind_report s ▸ mem_kinds_of_mem_passes pass hpass
  · rw [pass.kind_report] at hk
    rw [Pass.report_of_ne_route hk, Sighting.element]
    exact name_of_mem_sightings hpass hp hk hs
  · rw [pass.kind_report] at hk
    obtain ⟨object, rfl⟩ := exists_object_of_route hpass hk
    obtain rfl := List.mem_singleton.mp hp
    exact route_of_mem_sightings (declares language _ hpass _ hp) hs

theorem grounded_of_route :
    let content := "\nclass Shape\nrouter.get('/shapes', list)\n"
    content.toList.count '\n' < 2 ^ 32 - 1 ∧
      Language.script.scan content = [⟨.route, "GET /shapes", 3⟩, ⟨.classDecl, "Shape", 2⟩] ∧
      Element.Grounded .script content ⟨.route, "GET /shapes", 3⟩ := by
  intro content
  have hn : content.toList.count '\n' < 2 ^ 32 - 1 := by decide
  have hs : Language.script.scan content = [⟨.route, "GET /shapes", 3⟩, ⟨.classDecl, "Shape", 2⟩] := by
    decide +kernel
  exact ⟨hn, hs, grounded_of_mem_scan .script content hn _ (by rw [hs]; exact List.mem_cons_self ..)⟩

end CodeOutline
