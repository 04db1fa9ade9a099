import CodeOutline.Proofs.Recognition.Heads
import CodeOutline.Proofs.Text.Trim

/-! Functions that a script declares with the word for them. Each is reported once, whatever stands around it. -/

namespace CodeOutline

namespace Recognition.Script

open Pattern Text

def IsMark (word : String) (text : List Char) : Prop :=
  text = [] ∨ ∃ gap, IsRun isBlank gap ∧ text = word.toList ++ gap

/-- What the declaration of a function begins with. The name is the whole of the word at its place. -/
def IsDeclarationHead (head rest : List Char) (held : List (List Char)) : Prop :=
  ∃ exported async gap name, IsMark "export" exported ∧ IsMark "async" async ∧ IsRun isBlank gap ∧
    IsRun isAsciiWord name ∧ Clear isAsciiWord rest ∧
    head = exported ++ (async ++ ("function".toList ++ (gap ++ name))) ∧ held = [name]

variable {c d : Cursor} {word : String} {text name rest before behind more : List Char} {x : Char} {place : Nat}
  {s : Stretch} {content : String}

/-! The pattern reads what declarations begin with. -/

def marked (word : String) : Pattern := optional (all [Pattern.text word, someBlanks])

lemma leads_marked (hclear : Clear isBlank d.rest) :
    (marked word).Leads c d ↔ ∃ text, IsMark word text ∧ c.Reads text d := by
  rw [marked, leads_optional, Pattern.text, someBlanks, leads_literal_atLeastOne]
  constructor
  · rintro (⟨gap, hgap, hr, -⟩ | rfl)
    · exact ⟨_, .inr ⟨gap, hgap, rfl⟩, hr⟩
    · exact ⟨[], .inl rfl, .refl⟩
  · rintro ⟨_, rfl | ⟨gap, hgap, rfl⟩, hr⟩
    · cases hr
      exact .inr rfl
    · exact .inl ⟨gap, hgap, hr, hclear⟩

lemma IsMark.clear (hword : IsRun isAsciiWord word.toList) (h : IsMark word text) (hrest : Clear isBlank rest) :
    Clear isBlank (text ++ rest) := by
  rcases h with rfl | ⟨gap, -, rfl⟩
  · exact hrest
  · rw [List.append_assoc]
    exact hword.clear fun _ => isBlank_of_isAsciiWord

lemma readsAnywhere_functionDeclaration : ReadsAnywhere functionDeclaration IsDeclarationHead := by
  intro c d held
  have hmarked (word : String) : (marked word).bodies = [] := rfl
  have hkeyword : (literal "function".toList).bodies = [] := rfl
  have hgaps : (atLeastOne isBlank).bodies = [] := rfl
  have hword : (atLeastOne isAsciiWord).bodies = [] := rfl
  have hseq : functionDeclaration = seq (marked "export") (seq (marked "async") (seq (literal "function".toList)
    (seq (atLeastOne isBlank) (group (atLeastOne isAsciiWord))))) := rfl
  -- the blanks of a mark are taken as far as they go, so what follows it has to begin with something else
  have hkeyed {e f : Cursor} (hr : e.Reads "function".toList f) : Clear isBlank e.rest := by
    rw [hr.rest_eq]
    exact (by decide : isBlank 'f' = false)
  have hexported {e f : Cursor} {async : List Char} (hasync : IsMark "async" async) (hr : e.Reads async f)
      (hclear : Clear isBlank f.rest) : Clear isBlank e.rest := by
    rw [hr.rest_eq]
    exact hasync.clear (by decide) hclear
  simp only [hseq, spans_seq_of_bodies_eq_nil (hmarked _), spans_seq_of_bodies_eq_nil hkeyword,
    spans_seq_of_bodies_eq_nil hgaps, spans_group hword, leads_literal, leads_atLeastOne]
  constructor
  · rintro ⟨e, hexport, f, hasync, g, hkeyword, h, ⟨gap, hgap, hrgap, -⟩, name, ⟨_, hname, hrname, hclear⟩, hread, rfl⟩
    obtain rfl := hread.mid_unique hrname
    obtain ⟨async, hasync, hrasync⟩ := (leads_marked (hkeyed hkeyword)).mp hasync
    obtain ⟨exported, hexported, hrexported⟩ := (leads_marked (hexported hasync hrasync (hkeyed hkeyword))).mp hexport
    exact ⟨_, hrexported.trans (hrasync.trans (hkeyword.trans (hrgap.trans hrname))),
      exported, async, gap, name, hexported, hasync, hgap, hname, hclear, rfl, rfl⟩
  · rintro ⟨_, hr, exported, async, gap, name, hexport, hasync, hgap, hname, hclear, rfl, rfl⟩
    obtain ⟨e, hrexported, hr⟩ := hr.split
    obtain ⟨f, hrasync, hr⟩ := hr.split
    obtain ⟨g, hrkeyword, hr⟩ := hr.split
    obtain ⟨h, hrgap, hrname⟩ := hr.split
    have hgapped : Clear isBlank h.rest := hname.clear_of_reads hrname fun _ => isBlank_of_isAsciiWord
    exact ⟨e, (leads_marked (hexported hasync hrasync (hkeyed hrkeyword))).mpr ⟨exported, hexport, hrexported⟩,
      f, (leads_marked (hkeyed hrkeyword)).mpr ⟨async, hasync, hrasync⟩, g, hrkeyword, h, ⟨gap, hgap, hrgap, hgapped⟩,
      name, ⟨name, hname, hrname, hclear⟩, hrname, rfl⟩

lemma IsDeclarationHead.ne_nil {head : List Char} {held : List (List Char)} (h : IsDeclarationHead head rest held) :
    head ≠ [] := by
  obtain ⟨exported, async, gap, name, -, -, -, -, -, rfl, -⟩ := h
  simp

/-! A declaration is not hidden by another. -/

/-- At the place stands the word for a function and behind it a name. No word goes on into it, and it is not itself the
name behind another such word. -/
structure DeclaresFunction (text : List Char) (place : Nat) (name : List Char) : Prop where
  goes_on : ∃ gap rest, IsRun isBlank gap ∧ IsRun isAsciiWord name ∧ Clear isAsciiWord rest ∧
    text.drop place = "function".toList ++ (gap ++ (name ++ rest))
  apart : (text.take place).getLast?.any isAsciiWord = false
  not_name : ∀ before gap, IsRun isBlank gap → text.take place ≠ before ++ ("function".toList ++ gap)

lemma exists_append_of_notMem (hx : x ∉ before) (heq : before ++ rest = text ++ x :: more) :
    ∃ behind, text = before ++ behind ∧ rest = behind ++ x :: more := by
  rcases List.append_eq_append_iff.mp heq with ⟨behind, rfl, rfl⟩ | ⟨behind, rfl, hbehind⟩
  · exact ⟨behind, rfl, rfl⟩
  · cases behind with
    | nil => exact ⟨[], by simp, hbehind.symm⟩
    | cons y behind =>
      obtain ⟨rfl, -⟩ := List.cons.inj hbehind
      exact absurd (List.mem_append_right _ List.mem_cons_self) hx

lemma notMem_of_isRun_isBlank (h : IsRun isBlank text) (hx : isBlank x = false) : x ∉ text :=
  fun hmem => absurd (h.2 x hmem) (Bool.eq_false_iff.mp hx)

lemma IsMark.notMem (h : IsMark word text) (hword : x ∉ word.toList) (hx : isBlank x = false) : x ∉ text := by
  rcases h with rfl | ⟨gap, hgap, rfl⟩
  · exact List.not_mem_nil
  · rw [List.mem_append, not_or]
    exact ⟨hword, notMem_of_isRun_isBlank hgap hx⟩

/-- The word for a function that stands in a declaration is its own, or it begins behind the blanks of that. -/
lemma keyword_cases {exported async gap between : List Char} (hexported : IsMark "export" exported)
    (hasync : IsMark "async" async) (hgap : IsRun isBlank gap)
    (heq : exported ++ (async ++ ("function".toList ++ (gap ++ rest))) = between ++ ("function".toList ++ more)) :
    gap ++ rest = more ∨ ∃ front, between = exported ++ (async ++ ("function".toList ++ (gap ++ front))) ∧
      rest = front ++ ("function".toList ++ more) := by
  have hkeyword : "function".toList = 'f' :: "unction".toList := rfl
  have hlead : 'f' ∉ exported ++ async := by
    rw [List.mem_append, not_or]
    exact ⟨hexported.notMem (by decide) (by decide), hasync.notMem (by decide) (by decide)⟩
  have htail : 'f' ∉ "unction".toList ++ gap := by
    rw [List.mem_append, not_or]
    exact ⟨by decide, notMem_of_isRun_isBlank hgap (by decide)⟩
  rw [hkeyword] at heq ⊢
  simp only [← List.append_assoc exported, List.cons_append] at heq
  obtain ⟨own, rfl, hown⟩ := exists_append_of_notMem hlead heq
  cases own with
  | nil => exact .inl (List.append_cancel_left (List.cons.inj hown).2)
  | cons y own =>
    obtain ⟨rfl, hrest⟩ := List.cons.inj hown
    rw [← List.append_assoc] at hrest
    obtain ⟨front, rfl, hfront⟩ := exists_append_of_notMem htail hrest
    exact .inr ⟨front, by simp, hfront⟩

lemma held_eq_of_inside (h : DeclaresFunction text place name) (hs : Occurs IsDeclarationHead text s)
    (hle : s.start ≤ place) (hinside : place < s.stop) : s.held = [name] := by
  obtain ⟨⟨gap, rest, hgap, hname, hclear, hdrop⟩, hapart, hnotname⟩ := h
  obtain @⟨start, _, rest', _, hdrop', exported, async, gap', name', hexported, hasync, hgap', hname', hclear', rfl,
    rfl⟩ := hs
  change start ≤ place at hle
  obtain ⟨between, hbetween, htake, hlength⟩ := exists_between hle text
  rw [hbetween, hdrop] at hdrop'
  simp only [List.append_assoc] at hdrop'
  rcases keyword_cases hexported hasync hgap' hdrop'.symm with hsame | ⟨front, rfl, hfront⟩
  · obtain ⟨rfl, hnamed⟩ := eq_of_append_eq_of_clear hgap'.2 hgap.2 (hname'.clear fun _ => isBlank_of_isAsciiWord)
      (hname.clear fun _ => isBlank_of_isAsciiWord) hsame
    obtain ⟨rfl, -⟩ := eq_of_append_eq_of_clear hname'.2 hname.2 hclear' hclear hnamed
    rfl
  · exfalso
    rcases List.eq_nil_or_concat' front with rfl | ⟨earlier, x, rfl⟩
    · refine hnotname (text.take start ++ (exported ++ async)) gap' hgap' ?_
      simp [htake]
    · -- the name of the declaration goes on into the word
      have hshort : (earlier ++ [x]).length ≤ name'.length := by
        simp only [List.length_append] at hinside hlength ⊢
        omega
      have hbegins : earlier ++ [x] <+: name' :=
        List.prefix_of_prefix_length_le ⟨_, hfront.symm⟩ (List.prefix_append _ _) hshort
      have hx : isAsciiWord x = true := hname'.2 x (hbegins.subset (List.mem_append_right _ (List.mem_singleton_self x)))
      have hlast : (text.take place).getLast? = some x := by
        rw [htake]
        simp only [← List.append_assoc, List.getLast?_concat]
      rw [hlast] at hapart
      exact absurd hx (Bool.eq_false_iff.mp hapart)

lemma DeclaresFunction.exists_occurs (h : DeclaresFunction text place name) :
    ∃ s, Occurs IsDeclarationHead text s ∧ s.start = place := by
  obtain ⟨gap, rest, hgap, hname, hclear, hdrop⟩ := h.goes_on
  exact ⟨_, .intro (by simpa using hdrop)
    ⟨[], [], gap, name, .inl rfl, .inl rfl, hgap, hname, hclear, rfl, rfl⟩, rfl⟩

lemma DeclaresFunction.exists_sighting (h : DeclaresFunction text place name) :
    ∃ seen ∈ (Source.ofText text).sightings functionDeclaration, seen.name = String.ofList name := by
  have hdescribe := describe_occurs readsAnywhere_functionDeclaration IsDeclarationHead.ne_nil text
  obtain ⟨taken, hturn, hs⟩ := Stretch.exists_inTurn (p := functionDeclaration) rfl hdescribe
  obtain ⟨t, ht, rfl⟩ := h.exists_occurs
  obtain ⟨s, hmem, hle, hinside⟩ := hturn.exists_covering ht (Nat.zero_le _)
  refine ⟨s.sighting text, hs ▸ List.mem_map_of_mem hmem, ?_⟩
  change String.ofList (s.held.headD []) = _
  rw [held_eq_of_inside h (hturn.fits s hmem) hle hinside, List.headD_cons]

theorem count_eq_one_of_declaresFunction (h : DeclaresFunction content.toList place name)
    (hname : String.ofList name ∉ reserved) :
    ((functionsOf (Language.script.scan content)).map (·.name)).count (String.ofList name) = 1 := by
  obtain ⟨seen, hseen, hsame⟩ := h.exists_sighting
  have hf : Language.script.nameFilter? = some ⟨reserved, functionPatterns⟩ := rfl
  have hpattern : functionDeclaration ∈ functionPatterns := List.mem_cons_self
  rw [← hsame] at hname ⊢
  exact NameFilter.count_name_eq_one hf hpattern hseen hname

/-- The name of a callback that a constant has already been given. -/
theorem count_eq_one_of_declaresFunction_callback :
    let content := "const step = function(e) \x7b\x7d\nrun(function step(e) \x7b\x7d)"
    DeclaresFunction content.toList 32 "step".toList ∧
      ((functionsOf (Language.script.scan content)).map (·.name)).count "step" = 1 := by
  intro content
  have hdeclares : DeclaresFunction content.toList 32 "step".toList := by
    refine ⟨⟨[' '], "(e) \x7b\x7d)".toList, by decide, by decide, rfl, by decide⟩, by decide, ?_⟩
    intro before gap hgap heq
    obtain ⟨front, x, rfl⟩ := (List.eq_nil_or_concat' gap).resolve_left hgap.1
    have hlast := congrArg List.getLast? heq
    rw [← List.append_assoc, ← List.append_assoc, List.getLast?_concat] at hlast
    have hx : isBlank x = true := hgap.2 x (List.mem_append_right _ (List.mem_singleton_self x))
    have hparen : (content.toList.take 32).getLast? = some '(' := by decide
    obtain rfl := Option.some.inj (hparen.symm.trans hlast)
    exact absurd hx (by decide)
  exact ⟨hdeclares, count_eq_one_of_declaresFunction hdeclares (by decide)⟩

end Recognition.Script

end CodeOutline
