import CodeOutline.Proofs.Recognition.Recast

/-! Blank lines before a text move what is recognized in it, and blanks after it change nothing. -/

namespace CodeOutline

open Pattern Recognition

/-- The same element `k` lines further down. -/
structure Element.MovedBy (k : Nat) (e moved : Element) : Prop where
  kind_eq : moved.kind = e.kind
  name_eq : moved.name = e.name
  line_eq : moved.line.toNat = e.line.toNat + k

def Element.move (k : UInt32) (e : Element) : Element := { e with line := e.line + k }

def Sighting.move (k : UInt32) : Sighting → Sighting := recast (· + k) id

section Sighting

variable (k : UInt32) (s : Sighting)

lemma groups_move : (s.move k).groups = s.groups := List.map_id _

lemma name_move : (s.move k).name = s.name := by
  rw [Sighting.name, groups_move, Sighting.name]

lemma definesPlainType_move : Go.definesPlainType (s.move k) = Go.definesPlainType s := by
  simp only [Go.definesPlainType, groups_move]

lemma report_move (pass : Pass) : pass.report (s.move k) = (pass.report s).move k := by
  cases pass with
  | routes =>
    simp only [Pass.report, Script.routeElement, groups_move, name_move]
    rfl
  | every | distinct | plainTypes =>
    simp only [Pass.report, Sighting.element, name_move]
    rfl

end Sighting

section Texts

variable {lines : List (List Char)} {text tail : List Char} {p : Pattern}

def blankLines (lines : List (List Char)) : List Char := lines.flatMap (· ++ ['\n'])

lemma count_newline_blankLines (hl : ∀ line ∈ lines, ∀ x ∈ line, isTabOrSpace x = true) :
    (blankLines lines).count '\n' = lines.length := by
  induction lines with
  | nil => rfl
  | cons line lines ih =>
    obtain ⟨hline, hlines⟩ := List.forall_mem_cons.mp hl
    have hn : line.count '\n' = 0 := List.count_eq_zero.mpr fun h => absurd (hline _ h) (by decide)
    rw [blankLines, List.flatMap_cons, List.count_append, List.count_append, hn, ← blankLines, ih hlines]
    simp [Nat.add_comm]

lemma getLastD_blankLines (lines : List (List Char)) : (blankLines lines).getLastD '\n' = '\n' := by
  rcases List.eq_nil_or_concat lines with rfl | ⟨before, last, rfl⟩
  · rfl
  · simp [blankLines]

lemma sightings_translated (hp : p.Declares) (hl : ∀ line ∈ lines, ∀ x ∈ line, isTabOrSpace x = true)
    (ht : ∀ x ∈ tail, isMargin x = true) :
    (Source.ofText (blankLines lines ++ (text ++ tail))).sightings p =
      ((Source.ofText text).sightings p).map (Sighting.move lines.length.toUInt32) := by
  obtain ⟨hits, h⟩ := exists_search hp.consumes (Cursor.start text)
  obtain ⟨c, hc, hrest⟩ :=
    (Cursor.start (blankLines lines ++ (text ++ tail))).exists_reads (blankLines lines) (text ++ tail) rfl
  have hplace : (Cursor.start text).Alike (· ++ tail) c :=
    ⟨hc.before_eq.trans (getLastD_blankLines lines), hrest⟩
  obtain ⟨others, ho, hh⟩ := Search.appended ht hp.settled hp.demands h hplace
  refine sightings_recast (fun mid rest => List.append_assoc ..) (fun before rest hr => ?_) hp h
    (.of_blank_lines hp.refuses hl hc ho) hh
  have hcount : (blankLines lines ++ (text ++ tail)).count '\n' - (rest ++ tail).count '\n' =
      before.count '\n' + lines.length := by
    simp only [hr, List.count_append, count_newline_blankLines hl]
    omega
  rw [hcount, Nat.add_right_comm]
  exact UInt32.ofNat_add ..

lemma recognize_translated (language : Language) (hl : ∀ line ∈ lines, ∀ x ∈ line, isTabOrSpace x = true)
    (ht : ∀ x ∈ tail, isMargin x = true) :
    language.recognize (Source.ofText (blankLines lines ++ (text ++ tail))) =
      (language.recognize (Source.ofText text)).map (Element.move lines.length.toUInt32) := by
  refine Language.recognize_map fun pass hpass => Pass.run_map (g := Sighting.move lines.length.toUInt32) ?_ ?_ ?_ ?_
  · intro p hp
    exact sightings_translated (declares language pass hpass p hp) hl ht
  · intro _ _ s _
    exact name_move _ s
  · exact definesPlainType_move _
  · intro _ _ s _
    exact report_move _ s pass

end Texts

lemma Element.movedBy_move {k : Nat} {e : Element} (h : e.line.toNat + k < 2 ^ 32) :
    e.MovedBy k (e.move k.toUInt32) := by
  refine ⟨rfl, rfl, ?_⟩
  have hk : k.toUInt32.toNat = k := Nat.mod_eq_of_lt (by omega)
  rw [move, UInt32.toNat_add, hk, Nat.mod_eq_of_lt h]

lemma toList_blankLines (lines : List String) :
    (String.join (lines.map (· ++ "\n"))).toList = blankLines (lines.map String.toList) := by
  rw [String.toList_join, blankLines, List.flatMap_map, List.flatMap_map]
  simp

/-- Between blank lines and blanks a text is recognized as it is alone, further down. -/
theorem scan_between_blanks (language : Language) (lines : List String) (content tail : String)
    (hl : ∀ line ∈ lines, ∀ x ∈ line.toList, x = ' ' ∨ x = '\t')
    (ht : ∀ x ∈ tail.toList, x = ' ' ∨ x = '\t' ∨ x = '\n')
    (hn : (String.join (lines.map (· ++ "\n")) ++ content ++ tail).toList.count '\n' < 2 ^ 32 - 1) :
    List.Forall₂ (Element.MovedBy lines.length) (language.scan content)
      (language.scan (String.join (lines.map (· ++ "\n")) ++ content ++ tail)) := by
  have hlines : ∀ line ∈ lines.map String.toList, ∀ x ∈ line, isTabOrSpace x = true := by
    intro _ hline x hx
    obtain ⟨line, hmem, rfl⟩ := List.mem_map.mp hline
    simpa [isTabOrSpace] using hl line hmem x hx
  have htext : (String.join (lines.map (· ++ "\n")) ++ content ++ tail).toList =
      blankLines (lines.map String.toList) ++ (content.toList ++ tail.toList) := by
    rw [String.toList_append, String.toList_append, toList_blankLines, List.append_assoc]
  rw [htext, List.count_append, List.count_append, count_newline_blankLines hlines, List.length_map] at hn
  rw [Language.scan, Language.scan, htext,
    recognize_translated language hlines fun x hx => (isMargin_iff x).mpr (ht x hx), List.length_map]
  refine List.forall₂_map_right_iff.mpr (List.forall₂_same.mpr fun e he => Element.movedBy_move ?_)
  have hle := (Language.line_bounds_of_mem (by omega) he).2
  omega

theorem scan_between_blanks_struct :
    let lines := ["", " \t"]
    let content := "struct node\nclass Edge"
    let tail := "\n  \n"
    (∀ line ∈ lines, ∀ x ∈ line.toList, x = ' ' ∨ x = '\t') ∧
      (∀ x ∈ tail.toList, x = ' ' ∨ x = '\t' ∨ x = '\n') ∧
      (String.join (lines.map (· ++ "\n")) ++ content ++ tail).toList.count '\n' < 2 ^ 32 - 1 ∧
      Language.c.scan content = [⟨.classDecl, "Edge", 2⟩, ⟨.typeDecl, "node", 1⟩] ∧
      List.Forall₂ (Element.MovedBy 2) (Language.c.scan content)
        (Language.c.scan (String.join (lines.map (· ++ "\n")) ++ content ++ tail)) := by
  intro lines content tail
  have hl : ∀ line ∈ lines, ∀ x ∈ line.toList, x = ' ' ∨ x = '\t' := by simp [lines]
  have ht : ∀ x ∈ tail.toList, x = ' ' ∨ x = '\t' ∨ x = '\n' := by simp [tail]
  have hn : (String.join (lines.map (· ++ "\n")) ++ content ++ tail).toList.count '\n' < 2 ^ 32 - 1 := by
    decide +kernel
  exact ⟨hl, ht, hn, by decide +kernel, scan_between_blanks .c lines content tail hl ht hn⟩

end CodeOutline
