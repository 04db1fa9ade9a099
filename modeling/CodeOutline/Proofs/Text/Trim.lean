import CodeOutline.Text.Blank
import CodeOutline.Text.WordChar
import Mathlib.Data.List.TakeWhile
import Mathlib.Tactic.Lemma

/-! A text without the blanks at its ends. -/

namespace CodeOutline.Text

variable {cs blanks text word : List Char}

lemma toNat_mem_of_bounds {c first last : Char} (hfirst : first.val ≤ c.val) (hlast : c.val ≤ last.val)
    (hlow : 0x30 ≤ first.toNat) (hhigh : last.toNat ≤ 0x7A) : 0x30 ≤ c.toNat ∧ c.toNat ≤ 0x7A :=
  ⟨Nat.le_trans hlow (UInt32.le_iff_toNat_le.mp hfirst), Nat.le_trans (UInt32.le_iff_toNat_le.mp hlast) hhigh⟩

lemma toNat_of_isAsciiWord {c : Char} (h : isAsciiWord c = true) : 0x30 ≤ c.toNat ∧ c.toNat ≤ 0x7A := by
  rcases (Bool.or_eq_true _ _).mp h with hplain | hmark
  · rcases (Bool.or_eq_true _ _).mp hplain with hletter | hdigit
    · rcases (Bool.or_eq_true _ _).mp hletter with hupper | hlower
      · obtain ⟨hfirst, hlast⟩ := of_decide_eq_true hupper
        exact toNat_mem_of_bounds hfirst hlast (by decide) (by decide)
      · obtain ⟨hfirst, hlast⟩ := (Bool.and_eq_true _ _).mp hlower
        exact toNat_mem_of_bounds (of_decide_eq_true hfirst) (of_decide_eq_true hlast) (by decide) (by decide)
    · obtain ⟨hfirst, hlast⟩ := (Bool.and_eq_true _ _).mp hdigit
      exact toNat_mem_of_bounds (of_decide_eq_true hfirst) (of_decide_eq_true hlast) (by decide) (by decide)
  · rw [beq_iff_eq.mp hmark]
    decide

lemma isBlank_of_isAsciiWord {c : Char} (h : isAsciiWord c = true) : isBlank c = false := by
  obtain ⟨hfirst, hlast⟩ := toNat_of_isAsciiWord h
  have hranges : ∀ n < 0x7B, 0x30 ≤ n → inRanges blankRanges n = false := by decide
  exact hranges _ (Nat.lt_succ_of_le hlast) hfirst

lemma isAsciiWord_of_isBlank {c : Char} (h : isBlank c = true) : isAsciiWord c = false :=
  Bool.eq_false_iff.mpr fun hword => by simp [isBlank_of_isAsciiWord hword] at h

lemma exists_eq_trimRight_append (cs : List Char) : ∃ blanks, cs = trimRight cs ++ blanks ∧ ∀ x ∈ blanks, isBlank x = true := by
  refine ⟨(cs.reverse.takeWhile isBlank).reverse, ?_, fun x hx => ?_⟩
  · rw [trimRight, trimLeft, ← List.reverse_append, List.takeWhile_append_dropWhile, List.reverse_reverse]
  · exact List.all_eq_true.mp List.all_takeWhile x (List.mem_reverse.mp hx)

lemma trimLeft_append (h : ∀ x ∈ blanks, isBlank x = true) (cs : List Char) : trimLeft (blanks ++ cs) = trimLeft cs :=
  List.dropWhile_append_of_pos h

lemma trimRight_append (h : ∀ x ∈ blanks, isBlank x = true) (cs : List Char) : trimRight (cs ++ blanks) = trimRight cs := by
  have hreverse : ∀ x ∈ blanks.reverse, isBlank x = true := fun x hx => h x (List.mem_reverse.mp hx)
  rw [trimRight, List.reverse_append, trimLeft_append hreverse, trimRight]

lemma trimLeft_cons_of_not_blank {x : Char} (h : isBlank x = false) (cs : List Char) : trimLeft (x :: cs) = x :: cs :=
  List.dropWhile_cons_of_neg (Bool.eq_false_iff.mp h)

lemma trimRight_of_not_blank {x : Char} (h : isBlank x = false) (cs : List Char) :
    trimRight (cs ++ [x]) = cs ++ [x] := by
  rw [trimRight, List.reverse_append, List.reverse_singleton, List.singleton_append, trimLeft_cons_of_not_blank h,
    List.reverse_cons, List.reverse_reverse]

/-- Blanks around a word that neither begins nor ends with one. -/
structure IsTrimmed (text word : List Char) : Prop where
  surrounded : ∃ before after, text = before ++ word ++ after ∧ (∀ x ∈ before, isBlank x = true) ∧
    ∀ x ∈ after, isBlank x = true
  first : ∀ x ∈ word.head?, isBlank x = false
  last : ∀ x ∈ word.getLast?, isBlank x = false

lemma not_blank_of_head?_trimLeft {x : Char} (h : x ∈ (trimLeft text).head?) : isBlank x = false := by
  have hhead := List.head?_dropWhile_not isBlank text
  rw [trimLeft] at h
  rw [Option.mem_def.mp h] at hhead
  simpa using hhead

lemma isTrimmed_trim (text : List Char) : IsTrimmed text (trim text) := by
  obtain ⟨blanks, hright, hblanks⟩ := exists_eq_trimRight_append (trimLeft text)
  refine ⟨⟨text.takeWhile isBlank, blanks, ?_, ?_, hblanks⟩, ?_, ?_⟩
  · rw [trim, List.append_assoc, ← hright, trimLeft, List.takeWhile_append_dropWhile]
  · exact fun x hx => List.all_eq_true.mp List.all_takeWhile x hx
  · intro x hx
    obtain ⟨rest, hrest⟩ := List.head?_eq_some_iff.mp (Option.mem_def.mp hx)
    have hhead : x ∈ (trimLeft text).head? := by
      rw [hright, ← trim, hrest]
      rfl
    exact not_blank_of_head?_trimLeft hhead
  · intro x hx
    rw [trim, trimRight, List.getLast?_reverse] at hx
    exact not_blank_of_head?_trimLeft hx

lemma IsTrimmed.trim_eq (h : IsTrimmed text word) : trim text = word := by
  obtain ⟨⟨before, after, rfl, hbefore, hafter⟩, hfirst, hlast⟩ := h
  rw [trim, List.append_assoc, trimLeft_append hbefore]
  cases word with
  | nil =>
    rw [List.nil_append, ← List.append_nil after, trimLeft_append hafter]
    rfl
  | cons x rest =>
    rw [List.cons_append, trimLeft_cons_of_not_blank (hfirst x rfl), ← List.cons_append, trimRight_append hafter]
    have hword := (List.dropLast_concat_getLast (List.cons_ne_nil x rest)).symm
    generalize (x :: rest).dropLast = front, (x :: rest).getLast (List.cons_ne_nil x rest) = y at hword
    rw [hword] at hlast ⊢
    exact trimRight_of_not_blank (hlast y (by simp)) front

lemma trim_eq_iff : trim text = word ↔ IsTrimmed text word := by
  constructor
  · rintro rfl
    exact isTrimmed_trim text
  · exact IsTrimmed.trim_eq

lemma trim_blanks_append (h : ∀ x ∈ blanks, isBlank x = true) (cs : List Char) : trim (blanks ++ cs) = trim cs := by
  rw [trim, trimLeft_append h, trim]

lemma trim_append_blanks (h : ∀ x ∈ blanks, isBlank x = true) (cs : List Char) : trim (cs ++ blanks) = trim cs := by
  obtain ⟨⟨before, after, htext, hbefore, hafter⟩, hfirst, hlast⟩ := isTrimmed_trim cs
  rw [trim_eq_iff]
  refine ⟨⟨before, after ++ blanks, ?_, hbefore, List.forall_mem_append.mpr ⟨hafter, h⟩⟩, hfirst, hlast⟩
  rw [← List.append_assoc, ← htext]

end CodeOutline.Text
