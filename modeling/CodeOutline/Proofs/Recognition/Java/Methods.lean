import CodeOutline.Proofs.Recognition.Java.Grammar
import Mathlib.Data.Nat.Find

/-! The functions that are recognized in Java are the methods of the grammar, with or without modifiers in the
pattern. -/

namespace CodeOutline

namespace Recognition.Java

open Pattern Text

def typePart : Pattern := all [atLeastOne isTypeChar, someBlanks]

def closing : Pattern := all [blanks, Pattern.text "("]

/-- Any of the modifiers may stand before the parts of the type. -/
def typedName : List String → Pattern
  | [] => seq (oneOrMore typePart) (seq name closing)
  | modifier :: modifiers => seq (optional (all [Pattern.text modifier, someBlanks])) (typedName modifiers)

def methodPatternWith (modifiers : List String) : Pattern :=
  seq wordEdge (seq (anyOf (visibilities.map Pattern.text)) (seq someBlanks (typedName modifiers)))

lemma methodPatternWith_eq : methodPatternWith ["static", "final"] = methodPattern := rfl

def IsTypePart (text : List Char) : Prop :=
  ∃ letters blanks, IsRun isTypeChar letters ∧ IsRun isBlank blanks ∧ text = letters ++ blanks

variable {c d : Cursor} {m : Match} {modifiers : List String} {text name rest heading : List Char} {x : Char}

/-! Characters. -/

lemma isBlank_of_isTypeChar (h : isTypeChar x = true) : isBlank x = false := by
  rcases Bool.or_eq_true _ _ |>.mp h with hword | hmark
  · exact isBlank_of_isAsciiWord hword
  · have hmarks : IsRun isInk "<>[],.?".toList := by decide
    exact (Bool.not_eq_true' _).mp (hmarks.2 x (List.contains_iff_mem.mp hmark))

lemma isTypeChar_of_isBlank (h : isBlank x = true) : isTypeChar x = false :=
  Bool.eq_false_iff.mpr fun htype => by simp [isBlank_of_isTypeChar htype] at h

lemma isTypeChar_of_isAsciiWord (h : isAsciiWord x = true) : isTypeChar x = true := by rw [isTypeChar, h, Bool.true_or]

lemma isInk_of_isTypeChar (h : isTypeChar x = true) : isInk x = true := by rw [isInk, isBlank_of_isTypeChar h]; rfl

lemma isTypeChar_of_isInk (hink : isInk x = true) (h : isChunkChar x = true) : isTypeChar x = true := by
  rw [isInk, Bool.not_eq_true'] at hink
  rwa [isChunkChar, hink, Bool.or_false] at h

lemma isRun_of_mem_visibilities : ∀ visibility ∈ visibilities, IsRun isTypeChar visibility.toList := by
  simp only [visibilities, List.forall_mem_cons]
  exact ⟨by decide, by decide, by decide, nofun⟩

/-! The parts of a heading. -/

lemma IsTypePart.clear (h : IsTypePart text) (rest : List Char) : Clear isBlank (text ++ rest) := by
  obtain ⟨letters, blanks, hletters, _, rfl⟩ := h
  rw [List.append_assoc]
  exact hletters.clear fun _ => isBlank_of_isTypeChar

lemma IsTypePart.isChunkChar_of_mem (h : IsTypePart text) : ∀ x ∈ text, isChunkChar x = true := by
  obtain ⟨letters, blanks, hletters, hblanks, rfl⟩ := h
  refine List.forall_mem_append.mpr ⟨fun x hx => ?_, fun x hx => ?_⟩
  · rw [isChunkChar, hletters.2 x hx, Bool.true_or]
  · rw [isChunkChar, hblanks.2 x hx, Bool.or_true]

lemma IsTypePart.exists_pieces (h : IsTypePart text) : ∃ letters, ∀ rest, pieces (text ++ rest) = letters :: pieces rest := by
  obtain ⟨letters, blanks, hletters, hblanks, rfl⟩ := h
  refine ⟨letters, fun rest => ?_⟩
  have hink : IsRun isInk letters := ⟨hletters.1, fun x hx => isInk_of_isTypeChar (hletters.2 x hx)⟩
  have hclear : Clear isInk (blanks ++ rest) := hblanks.clear fun x hx => by rw [isInk, hx]; rfl
  rw [List.append_assoc, pieces_append_of_clear hink hclear, pieces_blanks_append hblanks.2]

lemma exists_pieces_of_repeats (h : Repeats IsTypePart text) :
    ∃ before, ∀ rest, pieces (text ++ rest) = before ++ pieces rest := by
  induction h with
  | nil => exact ⟨[], fun _ => rfl⟩
  | cons hpart _ ih =>
    obtain ⟨letters, hletters⟩ := hpart.exists_pieces
    obtain ⟨before, hbefore⟩ := ih
    exact ⟨letters :: before, fun rest => by rw [List.append_assoc, hletters, hbefore, List.cons_append]⟩

lemma isTypePart_of_isSpaced (h : IsSpaced text) (hall : ∀ x ∈ text, isChunkChar x = true) : IsTypePart text := by
  obtain ⟨piece, blanks, hpiece, hblanks, rfl⟩ := h
  exact ⟨piece, blanks, ⟨hpiece.1, fun x hx =>
    isTypeChar_of_isInk (hpiece.2 x hx) (hall x (List.mem_append_left _ hx))⟩, hblanks, rfl⟩

/-! Where the pattern leads. -/

lemma leads_typePart : typePart.Leads c d ↔ ∃ part, IsTypePart part ∧ c.Reads part d ∧ Clear isBlank d.rest := by
  rw [typePart, someBlanks, leads_atLeastOne_atLeastOne fun _ => isTypeChar_of_isBlank]
  constructor
  · rintro ⟨letters, blanks, hletters, hblanks, hr, hclear⟩
    exact ⟨_, ⟨letters, blanks, hletters, hblanks, rfl⟩, hr, hclear⟩
  · rintro ⟨_, ⟨letters, blanks, hletters, hblanks, rfl⟩, hr, hclear⟩
    exact ⟨letters, blanks, hletters, hblanks, hr, hclear⟩

lemma leads_closing : closing.Leads c d ↔ ∃ tail, (∀ x ∈ tail, isBlank x = true) ∧ c.Reads (tail ++ ['(']) d := by
  simp only [closing, all, blanks, Pattern.text, leads_seq, leads_run, leads_literal]
  constructor
  · rintro ⟨e, ⟨tail, htail, hr, -⟩, hr'⟩
    exact ⟨tail, htail, hr.trans hr'⟩
  · rintro ⟨tail, htail, hr⟩
    obtain ⟨e, hr, hr'⟩ := hr.split
    refine ⟨e, ⟨tail, htail, hr, ?_⟩, hr'⟩
    rw [hr'.rest_eq]
    exact (by decide : isBlank '(' = false)

lemma leads_wordEdge : wordEdge.Leads c d ↔ d = c ∧ atEdge isWord c = true := leads_edge

lemma leads_visibility : (anyOf (visibilities.map Pattern.text)).Leads c d ↔
    ∃ visibility ∈ visibilities, c.Reads visibility.toList d := by
  simp only [leads_anyOf, List.mem_map, exists_exists_and_eq_and, Pattern.text, leads_literal]

lemma mem_typedName_nil : m ∈ (typedName []).matchesAt c ↔ ∃ a b, (oneOrMore typePart).Leads c a ∧ word.Leads a b ∧
    closing.Leads b m.stop ∧ m.groups = [(a, b)] := by
  simp only [typedName, Pattern.name, mem_seq_of_bodies_eq_nil (show (oneOrMore typePart).bodies = [] from rfl),
    mem_seq_group (show word.bodies = [] from rfl) (show closing.bodies = [] from rfl)]
  constructor
  · rintro ⟨a, ha, b, hb, hclosing, hgroups⟩
    exact ⟨a, b, ha, hb, hclosing, hgroups⟩
  · rintro ⟨a, b, ha, hb, hclosing, hgroups⟩
    exact ⟨a, ha, b, hb, hclosing, hgroups⟩

/-- A modifier is a part of a type as well, so that the pattern finds no more with it than without. -/
lemma mem_typedName (h : ∀ modifier ∈ modifiers, IsRun isTypeChar modifier.toList) :
    m ∈ (typedName modifiers).matchesAt c ↔ m ∈ (typedName []).matchesAt c := by
  induction modifiers generalizing c with
  | nil => rfl
  | cons modifier modifiers ih =>
    obtain ⟨hmodifier, hmodifiers⟩ := List.forall_mem_cons.mp h
    change m ∈ (seq (optional _) (typedName modifiers)).matchesAt c ↔ _
    rw [mem_seq_of_bodies_eq_nil rfl]
    constructor
    · rintro ⟨d, hd, hm⟩
      rw [ih hmodifiers] at hm
      rcases leads_optional.mp hd with hd | rfl
      · obtain ⟨e, he, hblanks⟩ := leads_seq.mp hd
        obtain ⟨gap, hgap, hr, -⟩ := leads_atLeastOne.mp hblanks
        have hclear : Clear isTypeChar e.rest := hgap.clear_of_reads hr fun _ => isTypeChar_of_isBlank
        have hpart : typePart.Leads c d :=
          leads_seq.mpr ⟨e, leads_atLeastOne.mpr ⟨_, hmodifier, leads_literal.mp he, hclear⟩, hblanks⟩
        obtain ⟨a, b, ha, hb, hclosing, hgroups⟩ := mem_typedName_nil.mp hm
        obtain ⟨f, hf, hmore⟩ := leads_seq.mp ha
        refine mem_typedName_nil.mpr ⟨a, b, leads_seq.mpr ⟨d, hpart, ?_⟩, hb, hclosing, hgroups⟩
        exact (leads_star rfl).mpr (.head hf ((leads_star rfl).mp hmore))
      · exact hm
    · exact fun hm => ⟨c, leads_optional.mpr (.inr rfl), (ih hmodifiers).mpr hm⟩

lemma leads_oneOrMore {first more : List Char} (hfirst : IsTypePart first) (hmore : Repeats IsTypePart more)
    (hr : c.Reads (first ++ more) d) (hd : Clear isBlank d.rest) : (oneOrMore typePart).Leads c d := by
  obtain ⟨e, hr, hr'⟩ := hr.split
  refine leads_seq.mpr ⟨e, leads_typePart.mpr ⟨first, hfirst, hr, ?_⟩, (leads_star rfl).mpr ?_⟩
  · rw [hr'.rest_eq]
    exact hmore.ends_append (fun _ rest hpart => hpart.clear rest) hd
  · exact hmore.reflTransGen (fun c d part hpart hr hd => leads_typePart.mpr ⟨part, hpart, hr, hd⟩)
      (fun _ rest hpart => hpart.clear rest) hr' hd

lemma exists_parts (h : (oneOrMore typePart).Leads c d) :
    ∃ first more, IsTypePart first ∧ Repeats IsTypePart more ∧ c.Reads (first ++ more) d := by
  obtain ⟨e, hfirst, hmore⟩ := leads_seq.mp h
  obtain ⟨first, hfirst, hr, -⟩ := leads_typePart.mp hfirst
  have hpart : ∀ c d, typePart.Leads c d → ∃ part, IsTypePart part ∧ c.Reads part d :=
    fun _ _ h => (leads_typePart.mp h).imp fun _ h => ⟨h.1, h.2.1⟩
  obtain ⟨more, hmore, hr'⟩ := Repeats.of_reflTransGen hpart ((leads_star rfl).mp hmore)
  exact ⟨first, more, hfirst, hmore, hr.trans hr'⟩

/-! Headings in parts. -/

lemma isHeading_of_parts {visibility : String} {gap first more tail : List Char} (hvisibility : visibility ∈ visibilities)
    (hgap : IsRun isBlank gap) (hfirst : IsTypePart first) (hmore : Repeats IsTypePart more)
    (hname : IsRun isAsciiWord name) (htail : ∀ x ∈ tail, isBlank x = true) :
    IsHeading (visibility.toList ++ (gap ++ ((first ++ more) ++ (name ++ tail)))) name := by
  obtain ⟨x, gap, rfl, hx⟩ := hgap.exists_cons
  have hgap' : ∀ y ∈ gap, isBlank y = true := fun y hy => hgap.2 y (List.mem_cons_of_mem _ hy)
  have hlast : pieces (name ++ tail) = [name] := by
    have hink : IsRun isInk name := ⟨hname.1, fun y hy => isInk_of_isTypeChar (isTypeChar_of_isAsciiWord (hname.2 y hy))⟩
    have hclear : Clear isInk tail := by
      cases tail with
      | nil => rfl
      | cons y tail => exact clear_cons.mpr (by rw [isInk, htail y List.mem_cons_self]; rfl)
    rw [pieces_append_of_clear hink hclear, pieces_blanks htail]
  obtain ⟨letters, hletters⟩ := hfirst.exists_pieces
  obtain ⟨before, hbefore⟩ := exists_pieces_of_repeats hmore
  have hpieces : pieces (gap ++ ((first ++ more) ++ (name ++ tail))) = letters :: (before ++ [name]) := by
    rw [pieces_blanks_append hgap', List.append_assoc, hletters, hbefore, hlast]
  refine ⟨visibility, hvisibility, x, gap ++ ((first ++ more) ++ (name ++ tail)), rfl, hx, ?_, ?_, hname.2⟩
  · rw [hpieces, List.length_cons, List.length_append, List.length_singleton]
    omega
  · rw [hpieces, ← List.cons_append, List.getLast?_concat]

lemma IsHeading.exists_parts (h : IsHeading heading name) (hall : ∀ x ∈ heading, isChunkChar x = true) :
    ∃ visibility ∈ visibilities, ∃ gap first more tail, IsRun isBlank gap ∧ IsTypePart first ∧ Repeats IsTypePart more ∧
      IsRun isAsciiWord name ∧ (∀ x ∈ tail, isBlank x = true) ∧
      heading = visibility.toList ++ (gap ++ ((first ++ more) ++ (name ++ tail))) := by
  obtain ⟨visibility, hvisibility, x, rest, rfl, hx, hlength, hlast, hname⟩ := h
  obtain ⟨before, hpieces⟩ : ∃ before, pieces rest = before ++ [name] := List.getLast?_eq_some_iff.mp hlast
  obtain ⟨gap, spaced, tail, rfl, hgap, hspaced, hne, hink, htail⟩ := exists_spaced_of_pieces hpieces
  have hparts : Repeats IsTypePart spaced := by
    refine hspaced.imp_of_forall_mem (fun _ => isTypePart_of_isSpaced) fun y hy => hall y ?_
    simp [hy]
  have hbefore : before ≠ [] := by
    rintro rfl
    simp [hpieces] at hlength
  -- there are two pieces or more, so the spaced ones are not none
  cases hparts with
  | nil => exact absurd rfl (hne hbefore)
  | @cons first more hfirst hmore =>
    exact ⟨visibility, hvisibility, x :: gap, first, more, tail,
      ⟨List.cons_ne_nil _ _, List.forall_mem_cons.mpr ⟨hx, hgap⟩⟩, hfirst, hmore, ⟨hink.1, hname⟩, htail, rfl⟩

lemma mem_methodPatternWith (h : ∀ modifier ∈ modifiers, IsRun isTypeChar modifier.toList) :
    m ∈ (methodPatternWith modifiers).matchesAt c ↔ atEdge isWord c = true ∧ ∃ d e a b,
      (∃ visibility ∈ visibilities, c.Reads visibility.toList d) ∧ someBlanks.Leads d e ∧
      (oneOrMore typePart).Leads e a ∧ word.Leads a b ∧ closing.Leads b m.stop ∧ m.groups = [(a, b)] := by
  simp only [methodPatternWith, mem_seq_of_bodies_eq_nil (show wordEdge.bodies = [] from rfl),
    mem_seq_of_bodies_eq_nil (show (anyOf (visibilities.map Pattern.text)).bodies = [] from rfl),
    mem_seq_of_bodies_eq_nil (show someBlanks.bodies = [] from rfl), leads_wordEdge, leads_visibility,
    mem_typedName h, mem_typedName_nil]
  constructor
  · rintro ⟨_, ⟨rfl, hedge⟩, d, hd, e, he, a, b, ha, hb, hclosing, hgroups⟩
    exact ⟨hedge, d, e, a, b, hd, he, ha, hb, hclosing, hgroups⟩
  · rintro ⟨hedge, d, e, a, b, hd, he, ha, hb, hclosing, hgroups⟩
    exact ⟨c, ⟨rfl, hedge⟩, d, hd, e, he, a, b, ha, hb, hclosing, hgroups⟩

lemma exists_match_iff (h : ∀ modifier ∈ modifiers, IsRun isTypeChar modifier.toList) :
    (∃ m ∈ (methodPatternWith modifiers).matchesAt c, m.groupTexts = [name] ∧ m.stop.rest = rest) ↔
      atEdge isWord c = true ∧ ∃ heading, c.rest = heading ++ '(' :: rest ∧ (∀ x ∈ heading, isChunkChar x = true) ∧
        IsHeading heading name := by
  constructor
  · rintro ⟨m, hm, hgroups, rfl⟩
    obtain ⟨hedge, d, e, a, b, ⟨visibility, hvisibility, hrd⟩, he, ha, hb, hclosing, hm⟩ := (mem_methodPatternWith h).mp hm
    obtain ⟨gap, hgap, hre, -⟩ := leads_atLeastOne.mp he
    obtain ⟨first, more, hfirst, hmore, hra⟩ := exists_parts ha
    obtain ⟨word, hword, hrb, -⟩ := leads_atLeastOne.mp hb
    obtain ⟨tail, htail, hrtail⟩ := leads_closing.mp hclosing
    obtain rfl : word = name := by simpa [Match.groupTexts, hm, hrb.textTo_eq] using hgroups
    refine ⟨hedge, _, ?_, ?_, isHeading_of_parts hvisibility hgap hfirst hmore hword htail⟩
    · simpa using (hrd.trans (hre.trans (hra.trans (hrb.trans hrtail)))).rest_eq
    · simp only [List.forall_mem_append]
      refine ⟨fun x hx => ?_, fun x hx => ?_, ⟨hfirst.isChunkChar_of_mem, hmore.forall_mem fun _ =>
        IsTypePart.isChunkChar_of_mem⟩, fun x hx => ?_, fun x hx => ?_⟩
      · rw [isChunkChar, (isRun_of_mem_visibilities _ hvisibility).2 x hx, Bool.true_or]
      · rw [isChunkChar, hgap.2 x hx, Bool.or_true]
      · rw [isChunkChar, isTypeChar_of_isAsciiWord (hword.2 x hx), Bool.true_or]
      · rw [isChunkChar, htail x hx, Bool.or_true]
  · rintro ⟨hedge, heading, hrest, hall, hheading⟩
    obtain ⟨visibility, hvisibility, gap, first, more, tail, hgap, hfirst, hmore, hname, htail, rfl⟩ :=
      hheading.exists_parts hall
    obtain ⟨stop, hr, hstop⟩ := c.exists_reads (visibility.toList ++ (gap ++ ((first ++ more) ++ (name ++ (tail ++ ['('])))))
      rest (by simpa using hrest)
    obtain ⟨d, hrd, hr⟩ := hr.split
    obtain ⟨e, hre, hr⟩ := hr.split
    obtain ⟨a, hra, hr⟩ := hr.split
    obtain ⟨b, hrb, hrtail⟩ := hr.split
    -- each run ends where the next one begins
    have hblank : Clear isBlank e.rest := by
      rw [hra.rest_eq, List.append_assoc]
      exact hfirst.clear _
    have hparts : Clear isBlank a.rest := hname.clear_of_reads hrb fun _ => isBlank_of_isAsciiWord
    have hword : Clear isAsciiWord b.rest := by
      rw [hrtail.rest_eq, List.append_assoc]
      exact IsBlanks.clear htail (clear_cons.mpr (by decide))
    refine ⟨⟨[(a, b)], stop⟩, (mem_methodPatternWith h).mpr ⟨hedge, d, e, a, b, ⟨visibility, hvisibility, hrd⟩,
      leads_atLeastOne.mpr ⟨gap, hgap, hre, hblank⟩, leads_oneOrMore hfirst hmore hra hparts,
      leads_atLeastOne.mpr ⟨name, hname, hrb, hword⟩, leads_closing.mpr ⟨tail, htail, hrtail⟩, rfl⟩, ?_, hstop⟩
    simp [Match.groupTexts, hrb.textTo_eq]

lemma drop_eq_of_paren {start place : Nat} (hparen : text[place]? = some '(') (hle : start ≤ place) :
    text.drop start = (text.take place).drop start ++ '(' :: text.drop (place + 1) := by
  obtain ⟨hlt, hget⟩ := List.getElem?_eq_some_iff.mp hparen
  have hdrop : text.drop place = '(' :: text.drop (place + 1) := by rw [List.drop_eq_getElem_cons hlt, hget]
  have htake : start ≤ (text.take place).length := by
    rw [List.length_take]
    omega
  rw [← hdrop, ← List.drop_append_of_le_length htake, List.take_append_drop]

lemma heads_of_append {before : List Char} (htext : text = before ++ (heading ++ '(' :: rest))
    (hall : ∀ x ∈ heading, isChunkChar x = true) (hedge : IsWordEdge text before.length) (hheading : IsHeading heading name) :
    Heads text before.length (before ++ heading).length name := by
  have htake : text.take (before ++ heading).length = before ++ heading := by
    rw [htext, ← List.append_assoc, List.take_left]
  have hdrop : (text.take (before ++ heading).length).drop before.length = heading := by rw [htake, List.drop_left]
  refine ⟨?_, ?_, hedge, hdrop.symm ▸ hheading⟩
  · rw [htext, ← List.append_assoc, List.getElem?_append_right le_rfl, Nat.sub_self]
    rfl
  · exact drop_take_suffix_iff.mpr (hdrop.symm ▸ hall)

/-- With modifiers or without, the matches of the pattern are the methods. -/
theorem describe_isMethod (h : ∀ modifier ∈ modifiers, IsRun isTypeChar modifier.toList) (text : List Char) :
    Stretch.Describe (methodPatternWith modifiers) text (IsMethod text) := by
  intro s
  constructor
  · intro hs
    obtain @⟨start, place, name, hheads⟩ := hs
    have hlt := hheads.start_lt
    have hplace := (List.getElem?_eq_some_iff.mp hheads.paren).1
    have hle : start ≤ text.length := by omega
    obtain ⟨c, hr, hc, hlength⟩ := exists_reads_take hle
    obtain ⟨m, hm, hgroups, hrest⟩ := (exists_match_iff h).mpr ⟨(atEdge_iff hr).mpr (hlength.symm ▸ hheads.isWordEdge), _,
      hc.trans (drop_eq_of_paren hheads.paren hlt.le), hheads.isChunkChar_of_mem, hheads.isHeading⟩
    have hstop : text.length - (text.drop (place + 1)).length = place + 1 := by
      rw [List.length_drop]
      omega
    refine ⟨_, c, m, hr, hm, ?_⟩
    rw [Stretch.ofHit, index_of_reads hr, hlength, index_stop_of_mem hr hm, hgroups, hrest, hstop]
  · rintro ⟨before, c, m, hr, hm, rfl⟩
    obtain ⟨name, hname⟩ : ∃ name, m.groupTexts = [name] := by
      obtain ⟨-, d, e, a, b, -, -, -, -, -, hgroups⟩ := (mem_methodPatternWith h).mp hm
      exact ⟨a.textTo b, by rw [Match.groupTexts, hgroups]; rfl⟩
    obtain ⟨hedge, heading, hrest, hall, hheading⟩ := (exists_match_iff h).mp ⟨m, hm, hname, rfl⟩
    have htext : text = before ++ (heading ++ '(' :: m.stop.rest) := hr.rest_eq.trans (congrArg _ hrest)
    have hstop : m.stop.index = (before ++ heading).length + 1 := by
      have hlength := congrArg List.length htext
      simp only [List.length_append, List.length_cons] at hlength ⊢
      rw [index_stop_of_mem hr hm]
      omega
    rw [Stretch.ofHit, index_of_reads hr, hstop, hname]
    exact .intro (heads_of_append htext hall ((atEdge_iff hr).mp hedge) hheading)

lemma isRun_of_sublist (h : modifiers.Sublist ["static", "final"]) :
    ∀ modifier ∈ modifiers, IsRun isTypeChar modifier.toList := by
  have hall : ∀ modifier ∈ ["static", "final"], IsRun isTypeChar modifier.toList := by
    simp only [List.forall_mem_cons]
    exact ⟨by decide, by decide, nofun⟩
  exact fun modifier hmem => hall modifier (h.subset hmem)

/-- What is found in a text by parentheses: before each, the leftmost place of its chunk from which a method is declared.
It is found with any of the modifiers in the pattern. -/
structure Finds (content : String) (taken : List Stretch) : Prop where
  exists_search : ∀ modifiers, modifiers.Sublist ["static", "final"] → ∃ hits,
    Search (methodPatternWith modifiers) (Cursor.start content.toList) hits ∧ hits.map Stretch.ofHit = taken
  stops_increase : taken.Pairwise fun s later => s.stop < later.stop
  stops_iff : ∀ place, content.toList[place]? = some '(' →
    ((∃ s ∈ taken, s.stop = place + 1) ↔ ∃ start name, Heads content.toList start place name)
  leftmost : ∀ s ∈ taken, ∃ place name, s = ⟨s.start, place + 1, [name]⟩ ∧ Heads content.toList s.start place name ∧
    ∀ start other, Heads content.toList start place other → s.start ≤ start
  functions_eq : (functionsOf (Language.java.scan content)).map (fun e => (e.name, e.line.toNat)) =
    ((taken.filter (·.name ∉ reserved)).eraseDupsBy (·.name == ·.name)).map fun s => (s.name, s.lineIn content.toList)
  functions_of_modifiers : ∀ modifiers, modifiers.Sublist ["static", "final"] →
    (Source.ofText content.toList).distinctElements .function reserved [methodPatternWith modifiers] =
      functionsOf (Language.java.scan content)

section Found

variable {content : String} {taken : List Stretch} {hits : List (Cursor × Match)} {start place : Nat}

lemma inTurn_of_search (h : modifiers.Sublist ["static", "final"])
    (hs : Search (methodPatternWith modifiers) (Cursor.start text) hits) :
    Stretch.InTurn (IsMethod text) 0 (hits.map Stretch.ofHit) :=
  (describe_isMethod (isRun_of_sublist h) text).inTurn hs .refl

/-- Any two patterns describe the same stretches, and only one row of them is taken in turn. -/
lemma exists_search_of_inTurn (h : modifiers.Sublist ["static", "final"]) (hturn : Stretch.InTurn (IsMethod text) 0 taken) :
    ∃ hits, Search (methodPatternWith modifiers) (Cursor.start text) hits ∧ hits.map Stretch.ofHit = taken := by
  obtain ⟨hits, hs⟩ := exists_search (p := methodPatternWith modifiers) rfl (Cursor.start text)
  exact ⟨hits, hs, (inTurn_of_search h hs).unique (fun _ _ => IsMethod.eq_of_start_eq) hturn⟩

lemma sightings_of_inTurn (h : modifiers.Sublist ["static", "final"]) (hturn : Stretch.InTurn (IsMethod text) 0 taken) :
    (Source.ofText text).sightings (methodPatternWith modifiers) = taken.map (·.sighting text) := by
  obtain ⟨hits, hs, rfl⟩ := exists_search_of_inTurn h hturn
  exact Stretch.sightings_of_search rfl hs

lemma mem_iff_of_inTurn (hturn : Stretch.InTurn (IsMethod text) 0 taken) {s : Stretch} :
    s ∈ taken ↔ IsMethod text s ∧ ∀ t, IsMethod text t → t.stop = s.stop → s.start ≤ t.start := by
  rw [hturn.mem_iff (fun _ => IsMethod.start_lt_stop) (fun _ _ => IsMethod.eq_of_start_eq) fun _ _ => IsMethod.stop_eq]
  simp only [Nat.zero_le, forall_true_left, true_and]

lemma stops_increase (hturn : Stretch.InTurn (IsMethod text) 0 taken) :
    taken.Pairwise fun s later => s.stop < later.stop := by
  refine (hturn.pairwise fun _ => IsMethod.start_lt_stop).imp_of_mem fun {s later} _ hlater hle => ?_
  exact Nat.lt_of_le_of_lt hle (hturn.fits later hlater).start_lt_stop

lemma exists_leftmost (h : Heads text start place name) : ∃ start name, Heads text start place name ∧
    ∀ other, IsMethod text other → other.stop = place + 1 → start ≤ other.start := by
  classical
  have hex : ∃ start name, Heads text start place name := ⟨start, name, h⟩
  obtain ⟨name, hleft⟩ := Nat.find_spec hex
  refine ⟨Nat.find hex, name, hleft, fun other hother hstop => ?_⟩
  obtain @⟨start, place, name, hheads⟩ := hother
  obtain rfl := Nat.succ.inj hstop
  exact Nat.find_min' hex ⟨name, hheads⟩

lemma exists_mem_iff_exists_heads (hturn : Stretch.InTurn (IsMethod text) 0 taken) (place : Nat) :
    (∃ s ∈ taken, s.stop = place + 1) ↔ ∃ start name, Heads text start place name := by
  constructor
  · rintro ⟨s, hs, hstop⟩
    obtain @⟨start, place', name, hheads⟩ := hturn.fits s hs
    obtain rfl := Nat.succ.inj hstop
    exact ⟨start, name, hheads⟩
  · rintro ⟨start, name, hheads⟩
    obtain ⟨start, name, hleft, hmin⟩ := exists_leftmost hheads
    exact ⟨_, (mem_iff_of_inTurn hturn).mpr ⟨.intro hleft, hmin⟩, rfl⟩

lemma leftmost_of_mem (hturn : Stretch.InTurn (IsMethod text) 0 taken) {s : Stretch} (hs : s ∈ taken) :
    ∃ place name, s = ⟨s.start, place + 1, [name]⟩ ∧ Heads text s.start place name ∧
      ∀ start other, Heads text start place other → s.start ≤ start := by
  obtain ⟨hmethod, hmin⟩ := (mem_iff_of_inTurn hturn).mp hs
  obtain @⟨start, place, name, hheads⟩ := hmethod
  exact ⟨place, name, rfl, hheads, fun start other h => hmin _ (.intro h) rfl⟩

theorem existsUnique_finds (hn : content.toList.count '\n' < 2 ^ 32 - 1) : ∃! taken, Finds content taken := by
  have hf : Language.java.nameFilter? = some ⟨reserved, [methodPattern]⟩ := rfl
  obtain ⟨hits, hs⟩ := exists_search (p := methodPatternWith ["static", "final"]) rfl (Cursor.start content.toList)
  have hturn := inTurn_of_search (.refl _) hs
  have hsightings := sightings_of_inTurn (.refl _) hturn
  rw [methodPatternWith_eq] at hsightings
  refine ⟨hits.map Stretch.ofHit, ?_, fun other hother => ?_⟩
  · constructor
    case exists_search => exact fun modifiers h => exists_search_of_inTurn h hturn
    case stops_increase => exact stops_increase hturn
    case stops_iff => exact fun place _ => exists_mem_iff_exists_heads hturn place
    case leftmost => exact fun s => leftmost_of_mem hturn
    case functions_eq => exact NameFilter.functions_eq_of_sightings hf hn hsightings
    case functions_of_modifiers =>
      intro modifiers h
      rw [NameFilter.functionsOf_scan hf, Source.distinctElements, List.flatMap_singleton, List.flatMap_singleton,
        sightings_of_inTurn h hturn]
      exact congrArg _ (congrArg _ hsightings.symm)
  · obtain ⟨others, hothers, rfl⟩ := hother.exists_search _ (.refl _)
    exact (inTurn_of_search (.refl _) hothers).unique (fun _ _ => IsMethod.eq_of_start_eq) hturn

/-- Two visibilities before one name, a type with blanks in it, a constructor, a call, and a name for the second time. -/
theorem existsUnique_finds_methods :
    let content := "public static private Map<K,\n  V> index(int a) \x7b\x7d\npublic Box() \x7b run(1); \x7d\nprotected final void index()"
    (∃! taken, Finds content taken) ∧
      functionsOf (Language.java.scan content) = [⟨.function, "index", 1⟩] := by
  intro content
  exact ⟨existsUnique_finds (by decide), by decide +kernel⟩

end Found

end Recognition.Java

end CodeOutline
