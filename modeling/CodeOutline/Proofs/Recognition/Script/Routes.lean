import CodeOutline.Proofs.Recognition.Arrangement
import CodeOutline.Proofs.Recognition.Heads
import CodeOutline.Proofs.Text.Pieces

/-! The routes that are recognized in a script are the calls of the two objects with a verb, object by object, each the
leftmost one behind the one before. -/

namespace CodeOutline

namespace Recognition.Script

open Pattern Text

def isUnquoted (x : Char) : Bool := !isQuote x

/-- The quotes need not be alike. -/
def IsQuoted (text path : List Char) : Prop :=
  ∃ opening closing, isQuote opening = true ∧ IsRun isUnquoted path ∧ isQuote closing = true ∧
    text = opening :: (path ++ [closing])

/-- A parenthesis, with blanks on both sides or not, and a path in quotes. -/
def IsCall (text path : List Char) : Prop :=
  ∃ before behind quoted, IsBlanks before ∧ IsBlanks behind ∧ IsQuoted quoted path ∧
    text = before ++ '(' :: (behind ++ quoted)

def IsRouteHead (object : String) (head _rest : List Char) (held : List (List Char)) : Prop :=
  ∃ verb ∈ verbs, ∃ call path, IsCall call path ∧ head = object.toList ++ '.' :: (verb.toList ++ call) ∧
    held = [verb.toList, path]

variable {c d : Cursor} {object verb : String} {text other path path' rest rest' : List Char} {held : List (List Char)}
  {x : Char} {content : String}

lemma isBlank_of_isQuote (h : isQuote x = true) : isBlank x = false := by
  have hquotes : "'\"`".toList.all (!isBlank ·) = true := by decide
  have hink := List.all_eq_true.mp hquotes x (List.contains_iff_mem.mp h)
  simpa using hink

lemma clear_isUnquoted (h : isQuote x = true) : Clear isUnquoted (x :: rest) := by
  rw [clear_cons, isUnquoted, h]
  rfl

lemma isRun_of_mem_verbs (h : verb ∈ verbs) : IsRun isAsciiWord verb.toList := by
  have hall : ∀ verb ∈ verbs, IsRun isAsciiWord verb.toList := by decide
  exact hall verb h

/-! A text begins with one of them at most. -/

lemma IsQuoted.clear (h : IsQuoted text path) : Clear isBlank (text ++ rest) := by
  obtain ⟨opening, closing, hopening, -, -, rfl⟩ := h
  exact isBlank_of_isQuote hopening

lemma IsQuoted.unique (h : IsQuoted text path) (h' : IsQuoted other path') (heq : text ++ rest = other ++ rest') :
    text = other ∧ path = path' := by
  obtain ⟨opening, closing, -, hpath, hclosing, rfl⟩ := h
  obtain ⟨opening', closing', -, hpath', hclosing', rfl⟩ := h'
  simp only [List.cons_append, List.append_assoc] at heq
  obtain ⟨rfl, hnamed⟩ := List.cons.inj heq
  obtain ⟨rfl, hclosed⟩ := eq_of_append_eq_of_clear hpath.2 hpath'.2 (clear_isUnquoted hclosing)
    (clear_isUnquoted hclosing') hnamed
  obtain ⟨rfl, -⟩ := List.cons.inj hclosed
  exact ⟨rfl, rfl⟩

lemma IsCall.clear (h : IsCall text path) : Clear isAsciiWord (text ++ rest) := by
  obtain ⟨before, behind, quoted, hbefore, -, -, rfl⟩ := h
  rw [List.append_assoc]
  exact hbefore.clear (clear_cons.mpr (by decide))

lemma IsCall.unique (h : IsCall text path) (h' : IsCall other path') (heq : text ++ rest = other ++ rest') :
    text = other ∧ path = path' := by
  obtain ⟨before, behind, quoted, hbefore, hbehind, hquoted, rfl⟩ := h
  obtain ⟨before', behind', quoted', hbefore', hbehind', hquoted', rfl⟩ := h'
  simp only [List.cons_append, List.append_assoc] at heq
  obtain ⟨rfl, hopened⟩ := eq_of_append_eq_of_clear hbefore hbefore' (clear_cons.mpr (by decide))
    (clear_cons.mpr (by decide)) heq
  obtain ⟨rfl, hspaced⟩ := eq_of_append_eq_of_clear hbehind hbehind' hquoted.clear hquoted'.clear
    (List.cons.inj hopened).2
  obtain ⟨rfl, rfl⟩ := hquoted.unique hquoted' hspaced
  exact ⟨rfl, rfl⟩

lemma settles_isRouteHead (object : String) : Settles (IsRouteHead object) where
  ne_nil := by
    rintro _ _ _ ⟨verb, -, call, path, -, rfl, -⟩
    simp
  unique := by
    rintro _ rest _ _ rest' _ ⟨verb, hverb, call, path, hcall, rfl, rfl⟩ ⟨verb', hverb', call', path', hcall', rfl, rfl⟩ heq
    simp only [List.append_assoc, List.cons_append] at heq
    have hnamed := (List.cons.inj (List.append_cancel_left heq)).2
    obtain ⟨hsame, hcalled⟩ := eq_of_append_eq_of_clear (isRun_of_mem_verbs hverb).2 (isRun_of_mem_verbs hverb').2
      hcall.clear hcall'.clear hnamed
    obtain ⟨rfl, rfl⟩ := hcall.unique hcall' hcalled
    rw [hsame]
    exact ⟨rfl, rfl⟩

/-! The patterns read them. -/

def quotedPath : Pattern := all [one isQuote, group (atLeastOne isUnquoted), one isQuote]

def call : Pattern := all [blanks, Pattern.text "(", blanks, quotedPath]

lemma spans_quotedPath :
    quotedPath.Spans c d held ↔ ∃ text path, IsQuoted text path ∧ c.Reads text d ∧ held = [path] := by
  have hquote : (one isQuote).bodies = [] := rfl
  have hpath : (atLeastOne isUnquoted).bodies = [] := rfl
  simp only [quotedPath, all, spans_seq_of_bodies_eq_nil hquote, spans_seq_group hpath, spans_of_bodies_eq_nil hquote,
    leads_one, leads_atLeastOne]
  constructor
  · rintro ⟨e, ⟨opening, hopening, hr⟩, f, path, _, ⟨_, hpath, hrpath, -⟩, hread, ⟨⟨closing, hclosing, hr'⟩, rfl⟩, rfl⟩
    obtain rfl := hread.mid_unique hrpath
    exact ⟨_, path, ⟨opening, closing, hopening, hpath, hclosing, rfl⟩, hr.trans (hrpath.trans hr'), rfl⟩
  · rintro ⟨_, path, ⟨opening, closing, hopening, hpath, hclosing, rfl⟩, hr, rfl⟩
    obtain ⟨e, hropening, hr⟩ := hr.split_head
    obtain ⟨f, hrpath, hrclosing⟩ := hr.split
    have hclear : Clear isUnquoted f.rest := by
      rw [hrclosing.rest_eq]
      exact clear_isUnquoted hclosing
    exact ⟨e, ⟨opening, hopening, hropening⟩, f, path, [], ⟨path, hpath, hrpath, hclear⟩, hrpath,
      ⟨⟨closing, hclosing, hrclosing⟩, rfl⟩, rfl⟩

lemma spans_call : call.Spans c d held ↔ ∃ text path, IsCall text path ∧ c.Reads text d ∧ held = [path] := by
  have hblanks : (run isBlank).bodies = [] := rfl
  have hparen : (literal ['(']).bodies = [] := rfl
  have hseq : call = seq (run isBlank) (seq (literal ['(']) (seq (run isBlank) quotedPath)) := rfl
  simp only [hseq, spans_seq_of_bodies_eq_nil hblanks, spans_seq_of_bodies_eq_nil hparen, spans_quotedPath, leads_run,
    leads_literal]
  constructor
  · rintro ⟨e, ⟨before, hbefore, hr, -⟩, f, hparen, g, ⟨behind, hbehind, hr', -⟩, quoted, path, hquoted, hrquoted, rfl⟩
    exact ⟨_, path, ⟨before, behind, quoted, hbefore, hbehind, hquoted, rfl⟩,
      hr.trans (hparen.trans (hr'.trans hrquoted)), rfl⟩
  · rintro ⟨_, path, ⟨before, behind, quoted, hbefore, hbehind, hquoted, rfl⟩, hr, rfl⟩
    obtain ⟨e, hrbefore, hr⟩ := hr.split
    obtain ⟨f, hrparen, hr⟩ := hr.split_head
    obtain ⟨g, hrbehind, hrquoted⟩ := hr.split
    have hspaced : Clear isBlank e.rest := by
      rw [hrparen.rest_eq]
      exact clear_cons.mpr (by decide)
    have hcleared : Clear isBlank g.rest := by
      rw [hrquoted.rest_eq]
      exact hquoted.clear
    exact ⟨e, ⟨before, hbefore, hrbefore, hspaced⟩, f, hrparen, g, ⟨behind, hbehind, hrbehind, hcleared⟩, quoted, path,
      hquoted, hrquoted, rfl⟩

lemma leads_verb : (anyOf (verbs.map Pattern.text)).Leads c d ↔ ∃ verb ∈ verbs, c.Reads verb.toList d := by
  simp only [leads_anyOf, List.mem_map, exists_exists_and_eq_and, Pattern.text, leads_literal]

lemma readsAnywhere_routeOf (object : String) : ReadsAnywhere (routeOf object) (IsRouteHead object) := by
  intro c d held
  have hliteral (text : List Char) : (literal text).bodies = [] := rfl
  have hverb : (anyOf (verbs.map Pattern.text)).bodies = [] := rfl
  have hseq : routeOf object = seq (literal object.toList) (seq (literal ['.'])
    (seq (group (anyOf (verbs.map Pattern.text))) call)) := rfl
  simp only [hseq, spans_seq_of_bodies_eq_nil (hliteral _), spans_seq_group hverb, leads_literal, leads_verb, spans_call]
  constructor
  · rintro ⟨e, hobject, f, hdot, g, _, _, ⟨verb, hverb, hrverb⟩, hread, ⟨call, path, hcall, hrcall, rfl⟩, rfl⟩
    obtain rfl := hread.mid_unique hrverb
    exact ⟨_, hobject.trans (hdot.trans (hrverb.trans hrcall)), verb, hverb, call, path, hcall, rfl, rfl⟩
  · rintro ⟨_, hr, verb, hverb, call, path, hcall, rfl, rfl⟩
    obtain ⟨e, hobject, hr⟩ := hr.split
    obtain ⟨f, hdot, hr⟩ := hr.split_head
    obtain ⟨g, hrverb, hrcall⟩ := hr.split
    exact ⟨e, hobject, f, hdot, g, verb.toList, [path], ⟨verb, hverb, hrverb⟩, hrverb, ⟨call, path, hcall, hrcall, rfl⟩,
      rfl⟩

/-! What is found in a text. -/

def IsRoute (object : String) (text : List Char) (s : Stretch) : Prop := Occurs (IsRouteHead object) text s

def routeName (s : Stretch) : String := s.name.toUpper ++ " " ++ String.ofList (s.held.getD 1 [])

variable {s t : Stretch} {taken : List Stretch}

lemma IsRoute.eq_of_start_eq (hs : IsRoute object text s) (ht : IsRoute object text t) (hstart : s.start = t.start) :
    s = t := Occurs.eq_of_start_eq (settles_isRouteHead object) hs ht hstart

lemma IsRoute.exists_name_eq (hs : IsRoute object text s) : ∃ verb ∈ verbs, ∃ path,
    s.held = [verb.toList, path] ∧ routeName s = verb.toUpper ++ " " ++ String.ofList path := by
  obtain ⟨-, verb, hverb, call, path, -, rfl, rfl⟩ := hs
  refine ⟨verb, hverb, path, rfl, ?_⟩
  rw [routeName, Stretch.name, List.headD_cons, String.ofList_toList]
  rfl

lemma exists_routes (object : String) (hp : (routeOf object).consumes = true) (hn : text.count '\n' < 2 ^ 32 - 1) :
    ∃ taken, Stretch.InTurn (IsRoute object text) 0 taken ∧
      (((Source.ofText text).sightings (routeOf object)).map routeElement).map (fun e => (e.name, e.line.toNat)) =
        taken.map fun s => (routeName s, s.lineIn text) := by
  have hdescribe : Stretch.Describe (routeOf object) text (IsRoute object text) :=
    describe_occurs (readsAnywhere_routeOf object) (settles_isRouteHead object).ne_nil text
  obtain ⟨taken, hturn, hs⟩ := Stretch.exists_inTurn hp hdescribe
  refine ⟨taken, hturn, ?_⟩
  rw [hs, List.map_map, List.map_map]
  refine List.map_congr_left fun s _ => ?_
  rw [Function.comp_apply, Function.comp_apply, ← Stretch.toNat_lineIn hn]
  rfl

/-- What the routes of a text are: first the calls of the one object, then those of the other, with the line on which each
begins. -/
structure ReportsRoutes (content : String) (router app : List Stretch) : Prop where
  eq_of_start_eq : ∀ object s t, IsRoute object content.toList s → IsRoute object content.toList t →
    s.start = t.start → s = t
  router_inTurn : Stretch.InTurn (IsRoute "router" content.toList) 0 router
  app_inTurn : Stretch.InTurn (IsRoute "app" content.toList) 0 app
  name_eq : ∀ s ∈ router ++ app, ∃ verb ∈ verbs, ∃ path,
    s.held = [verb.toList, path] ∧ routeName s = verb.toUpper ++ " " ++ String.ofList path
  routes_eq : (blockOf .route (Language.script.scan content)).map (fun e => (e.name, e.line.toNat)) =
    (router ++ app).map fun s => (routeName s, s.lineIn content.toList)

theorem existsUnique_reportsRoutes (hn : content.toList.count '\n' < 2 ^ 32 - 1) :
    ∃! taken : List Stretch × List Stretch, ReportsRoutes content taken.1 taken.2 := by
  obtain ⟨router, hrouter, hrouted⟩ := exists_routes "router" (by decide) hn
  obtain ⟨app, happ, happed⟩ := exists_routes "app" (by decide) hn
  refine ⟨(router, app), ⟨fun object s t => IsRoute.eq_of_start_eq, hrouter, happ, ?_, ?_⟩, ?_⟩
  · intro s hs
    rcases List.mem_append.mp hs with hs | hs
    · exact (hrouter.fits s hs).exists_name_eq
    · exact (happ.fits s hs).exists_name_eq
  · rw [blockOf_route_scan, routes, List.flatMap_cons, List.flatMap_singleton, List.map_append, hrouted, happed,
      List.map_append]
  · rintro ⟨router', app'⟩ h
    have hone := h.eq_of_start_eq
    exact Prod.ext (h.router_inTurn.unique (hone _) hrouter) (h.app_inTurn.unique (hone _) happ)

/-- A path that goes on into the call of the other object, and a call on three lines. -/
theorem existsUnique_reportsRoutes_entangled :
    let content := "app.get('/ router.put('b')\napp.delete (\n`/c\"\n)"
    (∃! taken : List Stretch × List Stretch, ReportsRoutes content taken.1 taken.2) ∧
      Language.script.scan content =
        [⟨.route, "PUT b", 1⟩, ⟨.route, "GET / router.put(", 1⟩, ⟨.route, "DELETE /c", 2⟩] := by
  intro content
  exact ⟨existsUnique_reportsRoutes (by decide), by decide +kernel⟩

end Recognition.Script

end CodeOutline
