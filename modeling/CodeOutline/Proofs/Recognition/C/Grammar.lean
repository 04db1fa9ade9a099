import CodeOutline.Proofs.Recognition.InTurn
import CodeOutline.Proofs.Text.Pieces
import CodeOutline.Proofs.Text.Split
import CodeOutline.Recognition.C

/-! The grammar of the definitions of functions in C and C++, and what of a definition is settled by the place where it
starts. -/

namespace CodeOutline.Recognition.C

open Pattern Text

/-- Letters and marks of a type, and the gap behind them. -/
def IsTypePart (text : List Char) : Prop :=
  ∃ letters gap, IsRun isTypeChar letters ∧ IsRun isTabOrSpace gap ∧ text = letters ++ gap

def IsQualifier (text : List Char) : Prop := ∃ word, IsRun isAsciiWord word ∧ text = word ++ [':', ':']

def IsName (text : List Char) : Prop := ∃ word, IsRun isAsciiWord word ∧ (text = word ∨ text = '~' :: word)

def IsLead (text : List Char) : Prop :=
  ∃ first parts stars qualifiers, IsTypePart first ∧ Repeats IsTypePart parts ∧ (∀ x ∈ stars, x = '*') ∧
    Repeats IsQualifier qualifiers ∧ text = (first ++ parts) ++ (stars ++ qualifiers)

def IsHeading (text name : List Char) : Prop := ∃ lead, IsLead lead ∧ IsName name ∧ text = lead ++ name

/-- Behind the arguments the body is opened, and `rest` follows. -/
def OpensBody (behind rest : List Char) : Prop :=
  trimLeft behind = '{' :: rest ∨ ∃ more, trimLeft behind = "const".toList ++ more ∧ trimLeft more = '{' :: rest

/-- The text from `place` on: up to the first opening parenthesis, on to the first closing one, and behind that. -/
structure Divides (text : List Char) (place : Nat) (head arguments behind : List Char) : Prop where
  drop_eq : text.drop place = head ++ '(' :: (arguments ++ ')' :: behind)
  notMem_head : '(' ∉ head
  notMem_arguments : ')' ∉ arguments

/-- A stretch from the start of a line to the opening of a body. -/
inductive IsDefinition (text : List Char) : Stretch → Prop
  | intro {start head arguments behind rest name} : IsLineStart text start →
      Divides text start head arguments behind → IsHeading (trimRight head) name → OpensBody behind rest →
      IsDefinition text ⟨start, text.length - rest.length, [name]⟩

/-- The parentheses are followed by a semicolon. -/
def IsPrototype (text : List Char) (place : Nat) : Prop :=
  ∃ head arguments behind rest, Divides text place head arguments behind ∧ trimLeft behind = ';' :: rest

/-! Characters of one kind are none of another. -/

def isNameChar (x : Char) : Bool := isAsciiWord x || x == '~'

def isSeparator (x : Char) : Bool := isTabOrSpace x || x == '*' || x == ':'

variable {x : Char} {text name other lead qualifiers : List Char}

lemma isTypeChar_of_isNameChar (h : isNameChar x = true) : isTypeChar x = true := by
  rcases Bool.or_eq_true _ _ |>.mp h with hword | hmark
  · rw [isTypeChar, hword, Bool.true_or]
  · rw [beq_iff_eq.mp hmark]
    decide

lemma isTabOrSpace_of_isTypeChar (h : isTypeChar x = true) : isTabOrSpace x = false := by
  refine Bool.eq_false_iff.mpr fun hgap => ?_
  have hcases : x = ' ' ∨ x = '\t' := by simpa only [isTabOrSpace, Bool.or_eq_true, beq_iff_eq] using hgap
  rcases hcases with rfl | rfl <;> revert h <;> decide

lemma isTypeChar_of_isTabOrSpace (h : isTabOrSpace x = true) : isTypeChar x = false :=
  Bool.eq_false_iff.mpr fun htype => by simp [isTabOrSpace_of_isTypeChar htype] at h

lemma ne_of_isNameChar {y : Char} (hy : isNameChar y = false) (h : isNameChar x = true) : x ≠ y := by
  rintro rfl
  rw [h] at hy
  cases hy

lemma isSeparator_of_isNameChar (h : isNameChar x = true) : isSeparator x = false := by
  rw [isSeparator, isTabOrSpace_of_isTypeChar (isTypeChar_of_isNameChar h),
    beq_eq_false_iff_ne.mpr (ne_of_isNameChar (by decide) h), beq_eq_false_iff_ne.mpr (ne_of_isNameChar (by decide) h)]
  rfl

lemma IsName.isRun (h : IsName name) : IsRun isNameChar name := by
  obtain ⟨word, hword, rfl | rfl⟩ := h
  · exact ⟨hword.1, fun x hx => by rw [isNameChar, hword.2 x hx, Bool.true_or]⟩
  · refine ⟨List.cons_ne_nil _ _, List.forall_mem_cons.mpr ⟨rfl, fun x hx => ?_⟩⟩
    rw [isNameChar, hword.2 x hx, Bool.true_or]

/-- What stands before a name is made of these characters. -/
def isLeadChar (x : Char) : Bool := isTypeChar x || isTabOrSpace x

lemma IsTypePart.forall_mem (h : IsTypePart text) : ∀ x ∈ text, isLeadChar x = true := by
  obtain ⟨letters, gap, hletters, hgap, rfl⟩ := h
  refine List.forall_mem_append.mpr ⟨fun x hx => ?_, fun x hx => ?_⟩
  · rw [isLeadChar, hletters.2 x hx, Bool.true_or]
  · rw [isLeadChar, hgap.2 x hx, Bool.or_true]

lemma IsQualifier.forall_mem (h : IsQualifier text) : ∀ x ∈ text, isNameChar x = true ∨ x = ':' := by
  obtain ⟨word, hword, rfl⟩ := h
  refine List.forall_mem_append.mpr ⟨fun x hx => .inl ?_, fun x hx => .inr (by simpa using hx)⟩
  rw [isNameChar, hword.2 x hx, Bool.true_or]

lemma IsLead.forall_mem (h : IsLead lead) : ∀ x ∈ lead, isLeadChar x = true := by
  obtain ⟨first, parts, stars, qualifiers, hfirst, hparts, hstars, hqualifiers, rfl⟩ := h
  simp only [List.forall_mem_append]
  refine ⟨⟨hfirst.forall_mem, hparts.forall_mem fun _ => IsTypePart.forall_mem⟩, fun x hx => ?_, fun x hx => ?_⟩
  · rw [hstars x hx]
    decide
  · rcases hqualifiers.forall_mem (fun _ => IsQualifier.forall_mem) x hx with hname | rfl
    · rw [isLeadChar, isTypeChar_of_isNameChar hname, Bool.true_or]
    · decide

/-! The name is what stands behind the last separator. -/

def EndsApart (text : List Char) : Prop := ∀ x, text.getLast? = some x → isSeparator x = true

lemma EndsApart.append (h : EndsApart text) (hother : EndsApart other) : EndsApart (text ++ other) := by
  intro x hx
  rw [List.getLast?_append, Option.or_eq_some_iff] at hx
  exact hx.elim (hother x) fun hx => h x hx.2

lemma endsApart_of_forall (h : ∀ x ∈ text, isSeparator x = true) : EndsApart text :=
  fun x hx => h x (List.mem_of_getLast? hx)

lemma endsApart_of_suffix (hne : other ≠ []) (h : EndsApart other) (text : List Char) : EndsApart (text ++ other) := by
  intro x hx
  rw [List.getLast?_append_of_ne_nil _ hne] at hx
  exact h x hx

lemma endsApart_of_repeats {Piece : List Char → Prop} (hpiece : ∀ piece, Piece piece → EndsApart piece)
    (h : Repeats Piece text) : EndsApart text := by
  induction h with
  | nil => exact endsApart_of_forall (List.forall_mem_nil _)
  | cons hp _ ih => exact (hpiece _ hp).append ih

lemma IsTypePart.endsApart (h : IsTypePart text) : EndsApart text := by
  obtain ⟨letters, gap, _, hgap, rfl⟩ := h
  refine endsApart_of_suffix hgap.1 (endsApart_of_forall fun x hx => ?_) letters
  rw [isSeparator, hgap.2 x hx, Bool.true_or, Bool.true_or]

lemma IsQualifier.endsApart (h : IsQualifier text) : EndsApart text := by
  obtain ⟨word, _, rfl⟩ := h
  refine endsApart_of_suffix (List.cons_ne_nil _ _) (endsApart_of_forall fun x hx => ?_) word
  obtain rfl : x = ':' := by simpa using hx
  rfl

lemma IsLead.endsApart (h : IsLead lead) : EndsApart lead := by
  obtain ⟨first, parts, stars, qualifiers, hfirst, hparts, hstars, hqualifiers, rfl⟩ := h
  have hstars : EndsApart stars := endsApart_of_forall fun x hx => by rw [hstars x hx]; decide
  exact (hfirst.endsApart.append (endsApart_of_repeats (fun _ => IsTypePart.endsApart) hparts)).append
    (hstars.append (endsApart_of_repeats (fun _ => IsQualifier.endsApart) hqualifiers))

lemma IsHeading.name_eq (h : IsHeading text name) : name = (text.reverse.takeWhile (!isSeparator ·)).reverse := by
  obtain ⟨lead, hlead, hname, rfl⟩ := h
  -- stars and colons may stand in a part of a type as well, but no lead ends in a character of a name
  have hall : ∀ x ∈ name.reverse, (!isSeparator x) = true := fun x hx => by
    rw [isSeparator_of_isNameChar (hname.isRun.2 x (List.mem_reverse.mp hx))]
    rfl
  have hnone : lead.reverse.takeWhile (!isSeparator ·) = [] := by
    cases hreverse : lead.reverse with
    | nil => rfl
    | cons x before =>
      have hlast : lead.getLast? = some x := by rw [← List.head?_reverse, hreverse, List.head?_cons]
      exact List.takeWhile_cons_of_neg (by simp [hlead.endsApart x hlast])
  rw [List.reverse_append, List.takeWhile_append_of_pos hall, hnone, List.append_nil, List.reverse_reverse]

/-! One place is the start of one definition at most. -/

variable {place : Nat} {head arguments behind rest : List Char}

lemma Divides.unique {head' arguments' behind' : List Char} (h : Divides text place head arguments behind)
    (h' : Divides text place head' arguments' behind') : head = head' ∧ behind = behind' := by
  obtain ⟨hhead, hafter⟩ := eq_of_append_mark_eq h.notMem_head h'.notMem_head (h.drop_eq.symm.trans h'.drop_eq)
  exact ⟨hhead, (eq_of_append_mark_eq h.notMem_arguments h'.notMem_arguments hafter).2⟩

lemma OpensBody.unique {rest' : List Char} (h : OpensBody behind rest) (h' : OpensBody behind rest') : rest = rest' := by
  rcases h with h | ⟨more, hconst, h⟩ <;> rcases h' with h' | ⟨more', hconst', h'⟩
  · exact (List.cons.inj (h.symm.trans h')).2
  · exact absurd (List.cons.inj (h.symm.trans hconst')).1 (by decide)
  · exact absurd (List.cons.inj (h'.symm.trans hconst)).1 (by decide)
  · obtain rfl := List.append_cancel_left (hconst.symm.trans hconst')
    exact (List.cons.inj (h.symm.trans h')).2

theorem IsDefinition.eq_of_start_eq {s t : Stretch} (hs : IsDefinition text s) (ht : IsDefinition text t)
    (hstart : s.start = t.start) : s = t := by
  obtain ⟨_, hdivides, hheading, hbody⟩ := hs
  obtain ⟨_, hdivides', hheading', hbody'⟩ := ht
  obtain rfl := hstart
  obtain ⟨rfl, rfl⟩ := hdivides.unique hdivides'
  rw [hheading.name_eq, hheading'.name_eq, hbody.unique hbody']

theorem IsDefinition.not_isPrototype {s : Stretch} (h : IsDefinition text s) : ¬ IsPrototype text s.start := by
  rintro ⟨head, arguments, behind, rest, hdivides', hmark⟩
  obtain ⟨_, hdivides, _, hbody⟩ := h
  obtain ⟨_, rfl⟩ := hdivides.unique hdivides'
  rcases hbody with hbrace | ⟨more, hconst, _⟩
  · exact absurd (List.cons.inj (hmark.symm.trans hbrace)).1 (by decide)
  · exact absurd (List.cons.inj (hmark.symm.trans hconst)).1 (by decide)

end CodeOutline.Recognition.C
