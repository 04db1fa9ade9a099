import CodeOutline.Proofs.Pattern.Groups
import CodeOutline.Proofs.Pattern.Search
import CodeOutline.Proofs.Text.LineIndex
import CodeOutline.Recognition.Source

/-! The sightings of a pattern, told from the search that finds them. -/

namespace CodeOutline

open Pattern Text

variable {p : Pattern} {text : List Char} {hits : List (Cursor × Match)}

/-- The line of a place: one more than the newlines of the text that do not come after it. -/
def sightingOf (text : List Char) (hit : Cursor × Match) : Sighting :=
  ⟨(text.count '\n' - hit.1.rest.count '\n' + 1).toUInt32, hit.2.groupTexts⟩

lemma count_newline_of_reads {c d : Cursor} {mid : List Char} (h : c.Reads mid d) :
    c.rest.count '\n' - d.rest.count '\n' = mid.count '\n' := by
  rw [h.rest_eq, List.count_append, Nat.add_sub_cancel]

lemma lineAt_position {c : Cursor} {mid : List Char} (h : (Cursor.start text).Reads mid c) :
    (LineIndex.ofText text).lineAt c.position = (text.count '\n' - c.rest.count '\n' + 1).toUInt32 := by
  have hp : c.position = String.utf8Len mid := by simpa [Cursor.start] using h.position_eq
  have ht : text = mid ++ c.rest := h.rest_eq
  have hc : text.count '\n' - c.rest.count '\n' = mid.count '\n' := count_newline_of_reads h
  rw [hp, hc, ht, LineIndex.lineAt_append]

lemma sightings_eq (hp : p.consumes = true) (h : Search p (Cursor.start text) hits) :
    (Source.ofText text).sightings p = hits.map (sightingOf text) := by
  rw [Source.sightings]
  simp only [Source.ofText, h.occurrences_eq hp, List.map_map]
  refine List.map_congr_left fun hit hh => ?_
  obtain ⟨mid, hr⟩ := h.reads hh
  simp only [Function.comp_apply, sightingOf, lineAt_position hr]

lemma exists_match_of_mem (hp : p.consumes = true) {s : Sighting} (hs : s ∈ (Source.ofText text).sightings p) :
    ∃ before c m, (Cursor.start text).Reads before c ∧ m ∈ p.matchesAt c ∧
      s.line = (before.count '\n' + 1).toUInt32 ∧ s.groups = m.groupTexts := by
  obtain ⟨hits, h⟩ := exists_search hp (Cursor.start text)
  rw [sightings_eq hp h] at hs
  obtain ⟨hit, hh, rfl⟩ := List.mem_map.mp hs
  obtain ⟨before, hr⟩ := h.reads hh
  have hc : text.count '\n' - hit.1.rest.count '\n' = before.count '\n' := count_newline_of_reads hr
  exact ⟨before, hit.1, hit.2, hr, mem_of_matchAt? (h.matchAt?_eq hh), by rw [sightingOf, hc], rfl⟩

/-- What a group holds is spelled by its body and stands in the text on the line of the match or later. -/
def Sighting.HoldsText (text : List Char) (s : Sighting) (held : List Char) (body : Pattern) : Prop :=
  body.Spells held ∧ ∃ before after, text = before ++ (held ++ after) ∧ s.line.toNat ≤ before.count '\n' + 1

lemma toNat_line {n : Nat} (hn : n < 2 ^ 32 - 1) : (n + 1).toUInt32.toNat = n + 1 :=
  Nat.mod_eq_of_lt (by omega)

lemma line_bounds (hp : p.consumes = true) (hn : text.count '\n' < 2 ^ 32 - 1) {s : Sighting}
    (hs : s ∈ (Source.ofText text).sightings p) : 1 ≤ s.line.toNat ∧ s.line.toNat ≤ text.count '\n' + 1 := by
  obtain ⟨before, c, m, hr, _, hline, _⟩ := exists_match_of_mem hp hs
  have ht : text.count '\n' = before.count '\n' + c.rest.count '\n' := by
    rw [← List.count_append]
    exact congrArg _ hr.rest_eq
  rw [hline, toNat_line (by omega)]
  omega

lemma toNat_line_le (n : Nat) : (n + 1).toUInt32.toNat ≤ n + 1 := Nat.mod_le _ _

lemma groups_hold_text (hp : p.consumes = true) (hst : p.steady = true) {s : Sighting}
    (hs : s ∈ (Source.ofText text).sightings p) : List.Forall₂ (s.HoldsText text) s.groups p.bodies := by
  obtain ⟨before, c, m, hr, hm, hline, hgroups⟩ := exists_match_of_mem hp hs
  rw [hgroups]
  refine (groupTexts_spelled hst hm).imp fun held body h => ⟨h.1, ?_⟩
  obtain ⟨mid, after, hc⟩ := h.2
  refine ⟨before ++ mid, after, ?_, ?_⟩
  · rw [List.append_assoc, ← hc]
    exact hr.rest_eq
  · rw [hline, List.count_append]
    have := toNat_line_le (before.count '\n')
    omega

end CodeOutline
