import CodeOutline.Proofs.Recognition.Heads
import CodeOutline.Proofs.Text.Pieces
import CodeOutline.Proofs.Text.Trim
import CodeOutline.Recognition.Go

/-! The declarations of types in Go: how they begin, and what is told from the target that follows. -/

namespace CodeOutline.Recognition.Go

open Pattern Text

/-- The keyword and the name, each with the blanks behind it, among which line ends count. -/
def IsOpening (opening name : List Char) : Prop :=
  ∃ first second, IsRun isBlank first ∧ IsRun isAsciiWord name ∧ IsRun isBlank second ∧
    opening = "type".toList ++ (first ++ (name ++ second))

/-- A line starts at the place, and what follows declares a type with this target. -/
def Declares (text : List Char) (place : Nat) (name target : List Char) : Prop :=
  IsLineStart text place ∧ ∃ opening, IsOpening opening name ∧ text.drop place = opening ++ target ∧ Clear isBlank target

def leadingWord (target : List Char) : List Char := target.takeWhile isWord

def token (target : List Char) : List Char := target.takeWhile isInk

def kindOf (target : List Char) : Element.Kind :=
  if leadingWord target = "struct".toList then .classDecl
  else if leadingWord target = "interface".toList then .interfaceDecl
  else .typeDecl

def BeginsAsOther (target : List Char) : Prop := "struct".toList <+: target ∨ "interface".toList <+: target

/-- The target begins with the letters of a kind that it is not of. -/
def IsOverlooked (target : List Char) : Prop := kindOf target = .typeDecl ∧ BeginsAsOther target

def Shows (kind : Element.Kind) (target : List Char) : Prop :=
  kindOf target = kind ∧ target ≠ [] ∧ ¬ IsOverlooked target

variable {opening opening' name name' target target' rest rest' text head own : List Char} {held more : List (List Char)}
  {place : Nat} {s : Stretch}

lemma IsOpening.unique (h : IsOpening opening name) (h' : IsOpening opening' name') (hrest : Clear isBlank rest)
    (hrest' : Clear isBlank rest') (heq : opening ++ rest = opening' ++ rest') :
    opening = opening' ∧ name = name' ∧ rest = rest' := by
  obtain ⟨first, second, hfirst, hname, hsecond, rfl⟩ := h
  obtain ⟨first', second', hfirst', hname', hsecond', rfl⟩ := h'
  simp only [List.append_assoc] at heq
  obtain ⟨rfl, hnamed⟩ := eq_of_append_eq_of_clear hfirst.2 hfirst'.2 (hname.clear fun _ => isBlank_of_isAsciiWord)
    (hname'.clear fun _ => isBlank_of_isAsciiWord) (List.append_cancel_left heq)
  obtain ⟨rfl, hspaced⟩ := eq_of_append_eq_of_clear hname.2 hname'.2 (hsecond.clear fun _ => isAsciiWord_of_isBlank)
    (hsecond'.clear fun _ => isAsciiWord_of_isBlank) hnamed
  obtain ⟨rfl, rfl⟩ := eq_of_append_eq_of_clear hsecond.2 hsecond'.2 hrest hrest' hspaced
  exact ⟨rfl, rfl, rfl⟩

lemma Declares.unique (h : Declares text place name target) (h' : Declares text place name' target') :
    name = name' ∧ target = target' := by
  obtain ⟨-, opening, hopening, hdrop, hclear⟩ := h
  obtain ⟨-, opening', hopening', hdrop', hclear'⟩ := h'
  exact (hopening.unique hopening' hclear hclear' (hdrop.symm.trans hdrop')).2

lemma Declares.prefix_drop (h : Declares text place name target) : "type".toList <+: text.drop place := by
  obtain ⟨-, _, ⟨first, second, -, -, -, rfl⟩, hdrop, -⟩ := h
  rw [hdrop, List.append_assoc]
  exact List.prefix_append ..

lemma Declares.not_func (h : Declares text place name target) : ¬ "func".toList <+: text.drop place := by
  rintro ⟨rest, hrest⟩
  obtain ⟨rest', hrest'⟩ := h.prefix_drop
  exact absurd (List.cons.inj (hrest.trans hrest'.symm)).1 (by decide)

lemma Declares.clear (h : Declares text place name target) : Clear isBlank target := by
  obtain ⟨-, _, -, -, hclear⟩ := h
  exact hclear

/-! The kind of a target. -/

lemma prefix_of_leadingWord_eq {word : String} (h : leadingWord target = word.toList) : word.toList <+: target :=
  h ▸ List.takeWhile_prefix _

lemma kindOf_mem (target : List Char) : kindOf target ∈ [.classDecl, .interfaceDecl, .typeDecl] := by
  rw [kindOf]
  split
  · decide
  · split <;> decide

lemma kindOf_of_not_beginsAsOther (h : ¬ BeginsAsOther target) : kindOf target = .typeDecl := by
  rw [kindOf, if_neg fun hstruct => h (.inl (prefix_of_leadingWord_eq hstruct)),
    if_neg fun hinterface => h (.inr (prefix_of_leadingWord_eq hinterface))]

lemma kindOf_eq_classDecl_iff : kindOf target = .classDecl ↔ leadingWord target = "struct".toList := by
  constructor
  · intro h
    by_contra hne
    rw [kindOf, if_neg hne] at h
    split at h <;> cases h
  · exact fun h => if_pos h

lemma kindOf_eq_interfaceDecl_iff : kindOf target = .interfaceDecl ↔ leadingWord target = "interface".toList := by
  constructor
  · intro h
    by_contra hne
    rw [kindOf, if_neg hne] at h
    split at h <;> cases h
  · intro h
    rw [kindOf, if_pos h, if_neg (by rw [h]; decide)]

lemma shows_iff_kindOf_eq {kind : Element.Kind} (hk : kind ≠ .typeDecl) : Shows kind target ↔ kindOf target = kind := by
  refine ⟨fun h => h.1, fun h => ⟨h, ?_, fun hover => hk (h.symm.trans hover.1)⟩⟩
  rintro rfl
  exact hk (h.symm.trans (by decide))

lemma shows_typeDecl_iff : Shows .typeDecl target ↔ target ≠ [] ∧ ¬ BeginsAsOther target := by
  constructor
  · exact fun ⟨hkind, hne, hover⟩ => ⟨hne, fun hbegins => hover ⟨hkind, hbegins⟩⟩
  · exact fun ⟨hne, hbegins⟩ => ⟨kindOf_of_not_beginsAsOther hbegins, hne, fun hover => hbegins hover.2⟩

lemma token_ne_nil (hclear : Clear isBlank target) (hne : target ≠ []) : token target ≠ [] := by
  obtain ⟨x, more, rfl⟩ := List.exists_cons_of_ne_nil hne
  have hink : isInk x = true := by rw [isInk, clear_cons.mp hclear]; rfl
  rw [token, List.takeWhile_cons_of_pos hink]
  exact List.cons_ne_nil _ _

lemma beginsAsOther_token : BeginsAsOther (token target) ↔ BeginsAsOther target := by
  have hstruct : IsRun isInk "struct".toList := by decide
  have hinterface : IsRun isInk "interface".toList := by decide
  exact or_congr (prefix_takeWhile_iff hstruct.2) (prefix_takeWhile_iff hinterface.2)

/-! What a pattern takes of a target, and what it holds of that. -/

abbrev Take : Type := List Char → Option (List Char × List (List Char))

def takeWord (word : String) : Take := fun target =>
  if leadingWord target = word.toList then some (word.toList, []) else none

def takeToken : Take := fun target => if token target = [] then none else some (token target, [token target])

/-- An opening and what is taken of the target. -/
def IsHead (take? : Take) (head rest : List Char) (held : List (List Char)) : Prop :=
  ∃ opening name own more, IsOpening opening name ∧ Clear isBlank (own ++ rest) ∧ take? (own ++ rest) = some (own, more) ∧
    head = opening ++ own ∧ held = name :: more

/-- What is taken stands at the beginning of the target and on one line. -/
def IsFair (take? : Take) : Prop := ∀ target own more, take? target = some (own, more) → own <+: target ∧ '\n' ∉ own

variable {take? : Take}

lemma isFair_takeWord {word : String} (hword : '\n' ∉ word.toList) : IsFair (takeWord word) := by
  intro target own more h
  rw [takeWord] at h
  split at h
  · next hlead =>
    obtain ⟨rfl, -⟩ := Prod.mk.inj (Option.some.inj h)
    exact ⟨prefix_of_leadingWord_eq hlead, hword⟩
  · cases h

lemma isFair_takeToken : IsFair takeToken := by
  intro target own more h
  rw [takeToken] at h
  split at h
  · cases h
  · obtain ⟨rfl, -⟩ := Prod.mk.inj (Option.some.inj h)
    exact ⟨List.takeWhile_prefix _, fun hmem => absurd (List.mem_takeWhile_imp hmem) (by decide)⟩

lemma settles_isHead (take? : Take) : Settles (IsHead take?) where
  ne_nil := by
    rintro _ rest _ ⟨_, name, own, more, ⟨first, second, -, -, -, rfl⟩, -, -, rfl, rfl⟩
    simp
  unique := by
    rintro _ rest _ _ rest' _ ⟨opening, name, own, more, hopening, hclear, htake, rfl, rfl⟩
      ⟨opening', name', own', more', hopening', hclear', htake', rfl, rfl⟩ heq
    rw [List.append_assoc, List.append_assoc] at heq
    obtain ⟨rfl, rfl, htarget⟩ := hopening.unique hopening' hclear hclear' heq
    rw [htarget, htake'] at htake
    obtain ⟨rfl, rfl⟩ := Prod.mk.inj (Option.some.inj htake)
    exact ⟨rfl, rfl⟩

lemma exists_declares_of_isHeaded (h : IsHeaded (IsHead take?) text s) : ∃ name target own more,
    Declares text s.start name target ∧ take? target = some (own, more) ∧ s.held = name :: more := by
  obtain ⟨hline, hdrop, opening, name, own, more, hopening, hclear, htake, rfl, rfl⟩ := h
  rw [List.append_assoc] at hdrop
  exact ⟨name, _, own, more, ⟨hline, opening, hopening, hdrop, hclear⟩, htake, rfl⟩

lemma Declares.exists_isHeaded (hfair : IsFair take?) (h : Declares text place name target)
    (htake : take? target = some (own, more)) :
    ∃ s, IsHeaded (IsHead take?) text s ∧ s.start = place ∧ s.held = name :: more := by
  obtain ⟨hline, opening, hopening, hdrop, hclear⟩ := h
  obtain ⟨rest, rfl⟩ := (hfair _ _ _ htake).1
  refine ⟨_, .intro hline ?_ ⟨opening, name, own, more, hopening, hclear, htake, rfl, rfl⟩, rfl, rfl⟩
  rw [hdrop, List.append_assoc]

end CodeOutline.Recognition.Go
