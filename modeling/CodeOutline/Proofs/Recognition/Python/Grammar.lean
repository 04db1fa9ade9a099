import CodeOutline.Proofs.Recognition.Heads
import CodeOutline.Recognition.Python

/-! The heads of Python's definitions. The head of a function stands on one line; the bases of a class may reach over
several. -/

namespace CodeOutline.Recognition.Python

open Pattern Text

def IsIndent (text : List Char) : Prop := ∀ x ∈ text, isTabOrSpace x = true

/-- A keyword and the name behind it. -/
def IsNamed (keyword : String) (text name : List Char) : Prop :=
  ∃ gap space, IsRun isTabOrSpace gap ∧ IsRun isAsciiWord name ∧ IsIndent space ∧
    text = keyword.toList ++ (gap ++ (name ++ space))

def IsLead (text : List Char) : Prop := text = [] ∨ ∃ gap, IsRun isTabOrSpace gap ∧ text = "async".toList ++ gap

def IsFunctionHead (head name : List Char) : Prop :=
  ∃ indent lead named, IsIndent indent ∧ IsLead lead ∧ IsNamed "def" named name ∧
    head = indent ++ (lead ++ (named ++ ['(']))

/-- A colon, or parentheses up to the first that closes and a colon behind it. -/
def IsBases (text : List Char) : Prop :=
  text = [':'] ∨ ∃ inner space, ')' ∉ inner ∧ IsIndent space ∧ text = '(' :: (inner ++ ')' :: (space ++ [':']))

def IsClassHead (head name : List Char) : Prop :=
  ∃ indent named bases, IsIndent indent ∧ IsNamed "class" named name ∧ IsBases bases ∧ head = indent ++ (named ++ bases)

variable {text name name' head head' rest rest' : List Char} {keyword : String} {x : Char}

lemma isAsciiWord_of_isTabOrSpace (h : isTabOrSpace x = true) : isAsciiWord x = false := by
  have hcases : x = ' ' ∨ x = '\t' := by simpa only [isTabOrSpace, Bool.or_eq_true, beq_iff_eq] using h
  rcases hcases with rfl | rfl <;> decide

lemma isTabOrSpace_of_isAsciiWord (h : isAsciiWord x = true) : isTabOrSpace x = false :=
  Bool.eq_false_iff.mpr fun hspace => by simp [isAsciiWord_of_isTabOrSpace hspace] at h

lemma IsIndent.clear (h : IsIndent text) (hrest : Clear isAsciiWord rest) : Clear isAsciiWord (text ++ rest) :=
  hrest.append fun x hx => isAsciiWord_of_isTabOrSpace (h x hx)

/-- Neither a name nor the blanks behind it go on with a mark. -/
def IsMark (rest : List Char) : Prop := Clear isTabOrSpace rest ∧ Clear isAsciiWord rest

lemma IsNamed.unique {other : List Char} (h : IsNamed keyword text name) (h' : IsNamed keyword other name')
    (hrest : IsMark rest) (hrest' : IsMark rest') (heq : text ++ rest = other ++ rest') :
    text = other ∧ name = name' ∧ rest = rest' := by
  obtain ⟨gap, space, hgap, hname, hspace, rfl⟩ := h
  obtain ⟨gap', space', hgap', hname', hspace', rfl⟩ := h'
  simp only [List.append_assoc] at heq
  have hgapped := List.append_cancel_left heq
  obtain ⟨rfl, hnamed⟩ := eq_of_append_eq_of_clear hgap.2 hgap'.2 (hname.clear fun _ => isTabOrSpace_of_isAsciiWord)
    (hname'.clear fun _ => isTabOrSpace_of_isAsciiWord) hgapped
  obtain ⟨rfl, hspaced⟩ := eq_of_append_eq_of_clear hname.2 hname'.2 (hspace.clear hrest.2) (hspace'.clear hrest'.2)
    hnamed
  obtain ⟨rfl, hrest⟩ := eq_of_append_eq_of_clear hspace hspace' hrest.1 hrest'.1 hspaced
  exact ⟨rfl, rfl, hrest⟩

lemma IsNamed.clear (h : IsNamed keyword text name) (hkeyword : Clear isTabOrSpace keyword.toList)
    (hne : keyword.toList ≠ []) : Clear isTabOrSpace (text ++ rest) := by
  obtain ⟨gap, space, -, -, -, rfl⟩ := h
  obtain ⟨x, letters, hletters⟩ := List.exists_cons_of_ne_nil hne
  rw [hletters] at hkeyword ⊢
  exact hkeyword

lemma IsNamed.newline_notMem (h : IsNamed keyword text name) (hkeyword : '\n' ∉ keyword.toList) : '\n' ∉ text := by
  obtain ⟨gap, space, hgap, hname, hspace, rfl⟩ := h
  simp only [List.mem_append, not_or]
  exact ⟨hkeyword, fun hmem => absurd (hgap.2 _ hmem) (by decide), fun hmem => absurd (hname.2 _ hmem) (by decide),
    fun hmem => absurd (hspace _ hmem) (by decide)⟩

/-! A text begins with one head of a function at most, and so with one of a class. -/

lemma IsLead.unique {lead lead' named named' : List Char} (h : IsLead lead) (h' : IsLead lead')
    (hnamed : IsNamed "def" named name) (hnamed' : IsNamed "def" named' name')
    (heq : lead ++ (named ++ rest) = lead' ++ (named' ++ rest')) : lead = lead' ∧ named ++ rest = named' ++ rest' := by
  have hclear : Clear isTabOrSpace (named ++ rest) := hnamed.clear rfl (by decide)
  have hclear' : Clear isTabOrSpace (named' ++ rest') := hnamed'.clear rfl (by decide)
  obtain ⟨_, _, -, -, -, rfl⟩ := hnamed
  obtain ⟨_, _, -, -, -, rfl⟩ := hnamed'
  rcases h with rfl | ⟨gap, hgap, rfl⟩ <;> rcases h' with rfl | ⟨gap', hgap', rfl⟩
  · exact ⟨rfl, heq⟩
  · exact absurd (List.cons.inj heq).1 (by decide)
  · exact absurd (List.cons.inj heq).1 (by decide)
  · rw [List.append_assoc, List.append_assoc] at heq
    obtain ⟨rfl, hrest⟩ := eq_of_append_eq_of_clear hgap.2 hgap'.2 hclear hclear' (List.append_cancel_left heq)
    exact ⟨rfl, hrest⟩

lemma IsLead.clear {lead named : List Char} (h : IsLead lead) (hnamed : IsNamed "def" named name) :
    Clear isTabOrSpace (lead ++ (named ++ rest)) := by
  rcases h with rfl | ⟨gap, -, rfl⟩
  · exact hnamed.clear rfl (by decide)
  · exact (by decide : isTabOrSpace 'a' = false)

lemma isMark_parenthesis (rest : List Char) : IsMark ('(' :: rest) := ⟨rfl, rfl⟩

lemma settles_isFunctionHead : Settles (Naming IsFunctionHead) where
  ne_nil := by
    rintro _ rest _ ⟨name, ⟨indent, lead, named, -, -, -, rfl⟩, rfl⟩
    simp
  unique := by
    rintro _ rest _ _ rest' _ ⟨name, ⟨indent, lead, named, hindent, hlead, hnamed, rfl⟩, rfl⟩
      ⟨name', ⟨indent', lead', named', hindent', hlead', hnamed', rfl⟩, rfl⟩ heq
    simp only [List.append_assoc, List.singleton_append] at heq
    obtain ⟨rfl, hled⟩ := eq_of_append_eq_of_clear hindent hindent' (hlead.clear hnamed) (hlead'.clear hnamed') heq
    obtain ⟨rfl, hopened⟩ := hlead.unique hlead' hnamed hnamed' hled
    obtain ⟨rfl, rfl, -⟩ := hnamed.unique hnamed' (isMark_parenthesis rest) (isMark_parenthesis rest') hopened
    exact ⟨rfl, rfl⟩

lemma IsFunctionHead.newline_notMem (h : IsFunctionHead head name) : '\n' ∉ head := by
  obtain ⟨indent, lead, named, hindent, hlead, hnamed, rfl⟩ := h
  simp only [List.mem_append, not_or]
  refine ⟨fun hmem => absurd (hindent _ hmem) (by decide), ?_, hnamed.newline_notMem (by decide), by decide⟩
  rcases hlead with rfl | ⟨gap, hgap, rfl⟩
  · exact List.not_mem_nil
  · rw [List.mem_append, not_or]
    exact ⟨by decide, fun hmem => absurd (hgap.2 _ hmem) (by decide)⟩

lemma IsBases.isMark (h : IsBases text) : IsMark (text ++ rest) := by
  rcases h with rfl | ⟨inner, space, -, -, rfl⟩
  · exact ⟨rfl, rfl⟩
  · exact isMark_parenthesis _

lemma IsBases.unique {other : List Char} (h : IsBases text) (h' : IsBases other) (heq : text ++ rest = other ++ rest') :
    text = other := by
  rcases h with rfl | ⟨inner, space, hinner, hspace, rfl⟩ <;> rcases h' with rfl | ⟨inner', space', hinner', hspace', rfl⟩
  · rfl
  · exact absurd (List.cons.inj heq).1 (by decide)
  · exact absurd (List.cons.inj heq).1 (by decide)
  · simp only [List.cons_append, List.append_assoc] at heq
    obtain ⟨rfl, hspaced⟩ := eq_of_append_mark_eq hinner hinner' (List.cons.inj heq).2
    obtain ⟨rfl, -⟩ := eq_of_append_eq_of_clear hspace hspace' (clear_cons.mpr rfl) (clear_cons.mpr rfl) hspaced
    rfl

lemma settles_isClassHead : Settles (Naming IsClassHead) where
  ne_nil := by
    rintro _ rest _ ⟨name, ⟨indent, named, bases, -, hnamed, -, rfl⟩, rfl⟩
    obtain ⟨gap, space, -, -, -, rfl⟩ := hnamed
    simp
  unique := by
    rintro _ rest _ _ rest' _ ⟨name, ⟨indent, named, bases, hindent, hnamed, hbases, rfl⟩, rfl⟩
      ⟨name', ⟨indent', named', bases', hindent', hnamed', hbases', rfl⟩, rfl⟩ heq
    simp only [List.append_assoc] at heq
    obtain ⟨rfl, hnames⟩ := eq_of_append_eq_of_clear hindent hindent' (hnamed.clear rfl (by decide))
      (hnamed'.clear rfl (by decide)) heq
    obtain ⟨rfl, rfl, hrests⟩ := hnamed.unique hnamed' hbases.isMark hbases'.isMark hnames
    obtain rfl := hbases.unique hbases' hrests
    exact ⟨rfl, rfl⟩

end CodeOutline.Recognition.Python
