import CodeOutline.Proofs.Fallible
import CodeOutline.Text.Numeral
import Mathlib.Data.List.Basic

/-! The decimal numerals of natural numbers: which texts are read as one, and that a number is read back from its own. -/

namespace CodeOutline.Text

lemma toList_toString (n : Nat) : (toString n).toList = Nat.toDigits 10 n := by
  rw [Nat.toString_eq_ofList_toDigits, String.toList_ofList]

lemma digit?_of_isDigit {c : Char} (h : c.isDigit = true) : digit? 10 c = some (c.toNat - '0'.toNat) := by
  have hrange : 48 ≤ c.toNat ∧ c.toNat ≤ 57 := Char.isDigit_iff_toNat.mp h
  have hten : c.toNat - '0'.toNat < 10 := by
    change c.toNat - 48 < 10
    omega
  rw [digit?, hexDigit?, if_pos h, Option.filter_some, if_pos (by simpa using hten)]

lemma mapM_digit?_of_isDigit {cs : List Char} (h : ∀ c ∈ cs, c.isDigit = true) :
    cs.mapM (digit? 10) = some (cs.map fun c => c.toNat - '0'.toNat) := by
  induction cs with
  | nil => rfl
  | cons c rest ih =>
    rw [List.mapM_cons, digit?_of_isDigit (h c List.mem_cons_self), ih fun d hd => h d (List.mem_cons_of_mem c hd)]
    rfl

lemma isDigit_of_digit? {c : Char} {n : Nat} (h : digit? 10 c = some n) : c.isDigit = true := by
  obtain ⟨hhex, hten⟩ := Option.filter_eq_some_iff.mp h
  by_contra hdigit
  have hletter : ∀ a : Char, ¬c.toNat - a.toNat + 10 < 10 := fun a => by omega
  rw [hexDigit?, if_neg hdigit] at hhex
  split_ifs at hhex
  all_goals
    obtain rfl := Option.some.inj hhex
    exact hletter _ (of_decide_eq_true hten)

lemma isDigit_of_mapM_digit? {cs : List Char} {digits : List Nat} (h : cs.mapM (digit? 10) = some digits) :
    ∀ c ∈ cs, c.isDigit = true := by
  have hdigits := mapM_eq_some_iff.mp h
  clear h
  induction hdigits with
  | nil => simp
  | cons hd _ ih => exact List.forall_mem_cons.mpr ⟨isDigit_of_digit? hd, ih⟩

lemma numeral?_eq_some_iff {cs : List Char} {n : Nat} : numeral? 10 cs = some n ↔
    cs ≠ [] ∧ (∀ c ∈ cs, c.isDigit = true) ∧ Nat.ofDigitChars 10 cs 0 = n := by
  have hvalue : digitsValue 10 (cs.map fun c => c.toNat - '0'.toNat) = Nat.ofDigitChars 10 cs 0 := by
    rw [digitsValue, List.foldl_map, ← Nat.ofDigitChars_eq_foldl]
  constructor
  · intro h
    unfold numeral? at h
    split_ifs at h with hne
    obtain ⟨digits, hdigits, rfl⟩ := Option.map_eq_some_iff.mp h
    have hall := isDigit_of_mapM_digit? hdigits
    obtain rfl := Option.some.inj ((mapM_digit?_of_isDigit hall).symm.trans hdigits)
    exact ⟨hne, hall, hvalue.symm⟩
  · rintro ⟨hne, hall, rfl⟩
    rw [numeral?, if_neg hne, mapM_digit?_of_isDigit hall, Option.map_some, hvalue]

lemma isDigit_of_mem_toString {n : Nat} {c : Char} (h : c ∈ (toString n).toList) : c.isDigit = true := by
  rw [toList_toString] at h
  exact Nat.isDigit_of_mem_toDigits (by omega) (by omega) h

lemma toString_ne_nil (n : Nat) : (toString n).toList ≠ [] := by
  rw [toList_toString]
  exact Nat.toDigits_ne_nil

lemma numeral?_toString (n : Nat) : numeral? 10 (toString n).toList = some n := by
  rw [numeral?_eq_some_iff]
  refine ⟨toString_ne_nil n, fun c => isDigit_of_mem_toString, ?_⟩
  rw [toList_toString, Nat.ofDigitChars_ten_toDigits]

/-- A numeral of a number below the limit: digits, before which one plus sign may stand. -/
def IsUnsigned (limit : Nat) (text : List Char) (n : Nat) : Prop :=
  ∃ digits, (text = digits ∨ text = '+' :: digits) ∧ digits ≠ [] ∧ (∀ c ∈ digits, c.isDigit = true) ∧
    Nat.ofDigitChars 10 digits 0 = n ∧ n < limit

lemma unsigned?_eq_some_iff {limit n : Nat} {text : List Char} :
    unsigned? limit text = some n ↔ IsUnsigned limit text n := by
  have hfilter : ∀ digits, (numeral? 10 digits).filter (· < limit) = some n ↔
      digits ≠ [] ∧ (∀ c ∈ digits, c.isDigit = true) ∧ Nat.ofDigitChars 10 digits 0 = n ∧ n < limit := by
    intro digits
    rw [Option.filter_eq_some_iff, numeral?_eq_some_iff, and_assoc, and_assoc, decide_eq_true_iff]
  unfold unsigned?
  split
  · rename_i rest
    rw [hfilter]
    constructor
    · exact fun h => ⟨rest, .inr rfl, h⟩
    · rintro ⟨digits, rfl | hsign, hne, hall, hn⟩
      · exact absurd (hall '+' List.mem_cons_self) (by decide)
      · obtain rfl := (List.cons.inj hsign).2
        exact ⟨hne, hall, hn⟩
  · rename_i hplain
    rw [hfilter]
    constructor
    · exact fun h => ⟨text, .inl rfl, h⟩
    · rintro ⟨digits, rfl | hsign, h⟩
      · exact h
      · exact (hplain digits hsign).elim

/-- A numeral begins with a zero only if it is nothing else. -/
lemma eq_nil_of_toDigits_eq_cons {n : Nat} {rest : List Char} (h : Nat.toDigits 10 n = '0' :: rest) : rest = [] := by
  induction n using Nat.strongRecOn generalizing rest with
  | ind n ih =>
    by_cases hn : n < 10
    · rw [Nat.toDigits_of_lt_base hn] at h
      exact (List.cons.inj h).2.symm
    · have hten : 10 ≤ n := by omega
      rw [Nat.toDigits_of_base_le (by omega) hten] at h
      cases hd : Nat.toDigits 10 (n / 10) with
      | nil => exact absurd hd Nat.toDigits_ne_nil
      | cons d ds =>
        rw [hd] at h
        obtain ⟨rfl, _⟩ := List.cons.inj h
        have hds := ih (n / 10) (by omega) hd
        have hzero : n / 10 = 0 := by
          have hback := @Nat.ofDigitChars_ten_toDigits (n / 10)
          rw [hd, hds] at hback
          exact hback.symm
        omega

end CodeOutline.Text
