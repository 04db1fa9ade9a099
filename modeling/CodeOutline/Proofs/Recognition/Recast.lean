import CodeOutline.Proofs.Pattern.Following
import CodeOutline.Proofs.Recognition.Passes

/-! Two texts whose sightings agree up to lines and the texts of groups are recognized alike. -/

namespace CodeOutline

open Pattern Recognition

lemma map_eq_map_of_forall₂ {α β γ : Type} {R : α → β → Prop} {f : α → γ} {g : β → γ} {as : List α} {bs : List β}
    (h : List.Forall₂ R as bs) (hfg : ∀ a ∈ as, ∀ b ∈ bs, R a b → g b = f a) : bs.map g = as.map f := by
  induction h with
  | nil => rfl
  | cons hab _ ih =>
    rw [List.map_cons, List.map_cons, hfg _ List.mem_cons_self _ List.mem_cons_self hab]
    rw [ih fun a ha b hb => hfg a (List.mem_cons_of_mem _ ha) b (List.mem_cons_of_mem _ hb)]

namespace Pattern

variable {p : Pattern} {c d : Cursor} {m n : Match} {change held : List Char → List Char}

lemma reads_of_mem_groups (hp : p.steady = true) (hm : m ∈ p.matchesAt c) :
    ∀ g ∈ m.groups, ∃ mid, g.1.Reads mid g.2 := by
  have h := groups_hold hp hm
  generalize m.groups = gs at h
  generalize p.bodies = bodies at h
  induction h with
  | nil => exact nofun
  | cons hg _ ih =>
    refine List.forall_mem_cons.mpr ⟨?_, ih⟩
    obtain ⟨_, n, hn, hs⟩ := hg
    exact hs ▸ reads_of_mem hn

lemma groupTexts_alike (hch : ∀ mid rest, change (mid ++ rest) = held mid ++ change rest) (hp : p.steady = true)
    (hm : m ∈ p.matchesAt c) (hn : n ∈ p.matchesAt d) (h : m.Alike change n) :
    n.groupTexts = m.groupTexts.map held := by
  rw [Match.groupTexts, Match.groupTexts, List.map_map]
  refine map_eq_map_of_forall₂ h.1 fun g hg g' hg' ⟨hstart, hstop⟩ => ?_
  obtain ⟨mid, hr⟩ := reads_of_mem_groups hp hm g hg
  obtain ⟨mid', hr'⟩ := reads_of_mem_groups hp hn g' hg'
  rw [Function.comp_apply, hr.textTo_eq, hr'.textTo_eq]
  have he := hstart.rest
  rw [hr.rest_eq, hr'.rest_eq, hstop.rest, hch] at he
  exact List.append_cancel_right he

end Pattern

namespace Sighting

def recast (line : UInt32 → UInt32) (held : List Char → List Char) (s : Sighting) : Sighting :=
  ⟨line s.line, s.groups.map held⟩

variable {g : Sighting → Sighting} {found : List Sighting}

lemma firstOfEachName_map (hn : ∀ s ∈ found, (g s).name = s.name) (seen : List String) :
    firstOfEachName seen (found.map g) = (firstOfEachName seen found).map g := by
  induction found generalizing seen with
  | nil => rfl
  | cons s rest ih =>
    obtain ⟨hs, hrest⟩ := List.forall_mem_cons.mp hn
    rw [List.map_cons, firstOfEachName, firstOfEachName, hs]
    split
    · exact ih hrest seen
    · rw [List.map_cons, ih hrest]

end Sighting

section Sightings

variable {p : Pattern} {text other : List Char} {hits others : List (Cursor × Match)}
  {change held : List Char → List Char} {line : UInt32 → UInt32}

lemma sightings_recast (hch : ∀ mid rest, change (mid ++ rest) = held mid ++ change rest)
    (hl : ∀ before rest, text = before ++ rest →
      (other.count '\n' - (change rest).count '\n' + 1).toUInt32 = line (before.count '\n' + 1).toUInt32)
    (hp : p.Declares) (h : Search p (Cursor.start text) hits) (ho : Search p (Cursor.start other) others)
    (hh : List.Forall₂ (HitAlike change) hits others) :
    (Source.ofText other).sightings p = ((Source.ofText text).sightings p).map (Sighting.recast line held) := by
  rw [sightings_eq hp.consumes h, sightings_eq hp.consumes ho, List.map_map]
  refine map_eq_map_of_forall₂ hh fun hit hhit hit' hhit' ⟨hplace, hmatch⟩ => ?_
  obtain ⟨before, hr⟩ := h.reads hhit
  have hc : text.count '\n' - hit.1.rest.count '\n' = before.count '\n' := count_newline_of_reads hr
  have hg := groupTexts_alike hch hp.steady (mem_of_matchAt? (h.matchAt?_eq hhit))
    (mem_of_matchAt? (ho.matchAt?_eq hhit')) hmatch
  simp only [Function.comp_apply, sightingOf, Sighting.recast, hg, hc, hplace.rest,
    hl before hit.1.rest hr.rest_eq]

end Sightings

section Passes

variable {source other : Source} {g : Sighting → Sighting} {report : Element → Element}

namespace Pass

variable {pass : Pass}

lemma keep_map {found : List Sighting} (hn : ∀ s ∈ found, (g s).name = s.name)
    (ht : ∀ s ∈ found, Go.definesPlainType (g s) = Go.definesPlainType s) :
    pass.keep (found.map g) = (pass.keep found).map g := by
  cases pass with
  | every | routes => rfl
  | distinct reserved => exact Sighting.firstOfEachName_map hn reserved
  | plainTypes =>
    rw [keep, keep, List.filter_map]
    exact congrArg _ (List.filter_congr ht)

lemma run_map (hs : ∀ p ∈ pass.patterns, other.sightings p = (source.sightings p).map g)
    (hn : ∀ p ∈ pass.patterns, ∀ s ∈ source.sightings p, (g s).name = s.name)
    (ht : ∀ s, Go.definesPlainType (g s) = Go.definesPlainType s)
    (hr : ∀ p ∈ pass.patterns, ∀ s ∈ source.sightings p, pass.report (g s) = report (pass.report s)) :
    pass.run other = (pass.run source).map report := by
  have hfound : pass.patterns.flatMap other.sightings = (pass.patterns.flatMap source.sightings).map g := by
    rw [List.map_flatMap]
    exact List.flatMap_congr hs
  rw [run, run, hfound, keep_map ?_ fun s _ => ht s, List.map_map, List.map_map]
  · refine List.map_congr_left fun s hk => ?_
    obtain ⟨p, hp, hs⟩ := List.mem_flatMap.mp ((pass.keep_sublist _).subset hk)
    exact hr p hp s hs
  · intro s hk
    obtain ⟨p, hp, hs⟩ := List.mem_flatMap.mp hk
    exact hn p hp s hs

end Pass

lemma Language.recognize_map {language : Language}
    (h : ∀ pass ∈ language.passes ++ language.fallback, pass.run other = (pass.run source).map report) :
    language.recognize other = (language.recognize source).map report := by
  have hp : language.passes.flatMap (Pass.run other) = (language.passes.flatMap (Pass.run source)).map report := by
    rw [List.map_flatMap]
    exact List.flatMap_congr fun pass hm => h pass (List.mem_append_left _ hm)
  have hb : language.fallback.flatMap (Pass.run other) =
      (language.fallback.flatMap (Pass.run source)).map report := by
    rw [List.map_flatMap]
    exact List.flatMap_congr fun pass hm => h pass (List.mem_append_right _ hm)
  rw [recognize_eq, recognize_eq, hp, hb, apply_ite (List.map report)]
  simp only [List.map_eq_nil_iff]

end Passes

end CodeOutline
