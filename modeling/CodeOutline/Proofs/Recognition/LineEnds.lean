import CodeOutline.Proofs.Recognition.Names
import CodeOutline.Proofs.Recognition.Recast
import Mathlib.Data.List.GetD

/-! The way lines end makes no difference to what is recognized, save in the path of a route. -/

namespace CodeOutline

open Pattern Recognition Text

/-- The path of a route may go over the end of a line. -/
def Element.withCrlf (e : Element) : Element :=
  if e.kind = .route then { e with name := String.ofList (crlf e.name.toList) } else e

namespace Text

lemma isPrefixOf_crlf {start : List Char} (hs : ∀ x ∈ start, x ≠ '\n' ∧ x ≠ '\r') (text : List Char) :
    start.isPrefixOf (crlf text) = start.isPrefixOf text := by
  refine Bool.eq_iff_iff.mpr ?_
  rw [List.isPrefixOf_iff_prefix, List.isPrefixOf_iff_prefix]
  constructor
  · rintro ⟨more, h⟩
    obtain ⟨after, rfl⟩ := eq_append_of_crlf hs h.symm
    exact List.prefix_append _ _
  · rintro ⟨more, rfl⟩
    rw [crlf_append, crlf_of_not_mem fun hn => (hs _ hn).1 rfl]
    exact List.prefix_append _ _

end Text

namespace Sighting

variable {s : Sighting}

lemma name_recast_crlf (h : '\n' ∉ s.name.toList) : (s.recast id crlf).name = s.name := by
  have hd : (s.groups.map crlf).headD [] = crlf (s.groups.headD []) := by
    cases s.groups <;> rfl
  rw [name, String.toList_ofList] at h
  rw [name, name, recast, hd, crlf_of_not_mem h]

lemma second_recast_crlf (s : Sighting) : (s.recast id crlf).groups.getD 1 [] = crlf (s.groups.getD 1 []) :=
  List.getD_map s.groups [] crlf

lemma definesPlainType_recast_crlf (s : Sighting) :
    Go.definesPlainType (s.recast id crlf) = Go.definesPlainType s := by
  simp only [Go.definesPlainType, second_recast_crlf]
  rw [isPrefixOf_crlf (by simp), isPrefixOf_crlf (by simp)]

end Sighting

lemma IsPlainName.no_newline {name : String} (h : IsPlainName name) : '\n' ∉ name.toList := by
  intro hn
  rcases h.2 _ hn with h | h <;> exact absurd h (by decide)

section Routes

variable {text : List Char} {s : Sighting} {object : String}

lemma verb_of_route (hd : (Script.routeOf object).Declares)
    (hs : s ∈ (Source.ofText text).sightings (Script.routeOf object)) : s.name ∈ Script.verbs := by
  obtain ⟨verb, path, hg, hv, _⟩ := groups_of_route hd hs
  rw [Sighting.name, hg, List.headD_cons]
  exact mem_verbs_of_spells hv

lemma routeElement_recast_crlf (hv : s.name ∈ Script.verbs) :
    Script.routeElement (s.recast id crlf) = (Script.routeElement s).withCrlf := by
  have hall : ∀ verb ∈ Script.verbs, '\n' ∉ verb.toList ∧ '\n' ∉ (verb.toUpper ++ " ").toList := by decide +kernel
  obtain ⟨hn, hu⟩ := hall _ hv
  simp only [Script.routeElement, Element.withCrlf, if_pos, Sighting.name_recast_crlf hn,
    Sighting.second_recast_crlf]
  rw [String.toList_append, crlf_append, crlf_of_not_mem hu, String.ofList_append, String.ofList_toList,
    String.toList_ofList]
  rfl

end Routes

variable {language : Language} {pass : Pass} {p : Pattern} {content : String} {s : Sighting}

lemma no_newline_of_mem_sightings (hpass : pass ∈ language.passes ++ language.fallback) (hp : p ∈ pass.patterns)
    (hs : s ∈ (Source.ofText content.toList).sightings p) : '\n' ∉ s.name.toList := by
  by_cases hk : pass.kind = .route
  · obtain ⟨object, rfl⟩ := exists_object_of_route hpass hk
    obtain rfl := List.mem_singleton.mp hp
    have hall : ∀ verb ∈ Script.verbs, '\n' ∉ verb.toList := by decide
    exact hall _ (verb_of_route (declares language _ hpass _ hp) hs)
  · rcases (name_of_mem_sightings hpass hp hk hs).2 with h | ⟨_, _, name, h, hm⟩
    · exact h.no_newline
    · rw [hm, String.toList_append, List.mem_append, not_or]
      exact ⟨by decide, h.no_newline⟩

lemma report_recast_crlf (hpass : pass ∈ language.passes ++ language.fallback) (hp : p ∈ pass.patterns)
    (hs : s ∈ (Source.ofText content.toList).sightings p) :
    pass.report (s.recast id crlf) = (pass.report s).withCrlf := by
  by_cases hk : pass.kind = .route
  · obtain ⟨object, rfl⟩ := exists_object_of_route hpass hk
    obtain rfl := List.mem_singleton.mp hp
    exact routeElement_recast_crlf (verb_of_route (declares language _ hpass _ hp) hs)
  · rw [Pass.report_of_ne_route hk, Pass.report_of_ne_route hk, Sighting.element, Sighting.element,
      Sighting.name_recast_crlf (no_newline_of_mem_sightings hpass hp hs), Element.withCrlf, if_neg hk]
    rfl

lemma sightings_crlf (hp : p.Declares) (text : List Char) : (Source.ofText (crlf text)).sightings p =
    ((Source.ofText text).sightings p).map (Sighting.recast id crlf) := by
  obtain ⟨hits, h⟩ := exists_search hp.consumes (Cursor.start text)
  obtain ⟨others, ho, hh⟩ := Search.crlf (d := Cursor.start (crlf text)) hp.blind hp.refuses h ⟨rfl, rfl⟩
  refine sightings_recast crlf_append (fun before rest ht => ?_) hp h ho hh
  rw [count_newline_crlf, count_newline_crlf, ht, List.count_append, Nat.add_sub_cancel]
  rfl

/-- A text is recognized alike whether its lines end in newlines or in carriage returns and newlines. -/
theorem scan_crlf (language : Language) (content : String) :
    language.scan (String.ofList (crlf content.toList)) = (language.scan content).map Element.withCrlf := by
  rw [Language.scan, Language.scan, String.toList_ofList]
  refine Language.recognize_map fun pass hpass => Pass.run_map (g := Sighting.recast id crlf) ?_ ?_ ?_ ?_
  · intro p hp
    exact sightings_crlf (declares language pass hpass p hp) _
  · intro p hp s hs
    exact Sighting.name_recast_crlf (no_newline_of_mem_sightings hpass hp hs)
  · exact Sighting.definesPlainType_recast_crlf
  · intro p hp s hs
    exact report_recast_crlf hpass hp hs

example : Language.script.scan "app.get('/list\r\n', send)" = [⟨.route, "GET /list\r\n", 1⟩] := by decide +kernel

end CodeOutline
