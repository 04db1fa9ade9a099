import CodeOutline.Http.Url
import CodeOutline.Proofs.Text.Decoding

/-! What a text with escapes stands for, and what of it is kept when an address is brought into normal form. -/

namespace CodeOutline

namespace Http.Url

open Text Text.Utf8

variable {cs ds rest : List Char} {c a b : Char} {escaped : Char → Bool}

def IsHex (c : Char) : Prop := (hexDigit? c).isSome = true

instance : DecidablePred IsHex := fun _ => inferInstanceAs (Decidable (_ = _))

/-- The text begins with an escape. -/
def BeginsEscape (cs : List Char) : Prop := ∃ a b, IsHex a ∧ IsHex b ∧ ['%', a, b] <+: cs

def HoldsEscape (cs : List Char) : Prop := ∃ a b, IsHex a ∧ IsHex b ∧ ['%', a, b] <:+: cs

lemma holdsEscape_cons : HoldsEscape (c :: cs) ↔ BeginsEscape (c :: cs) ∨ HoldsEscape cs := by
  simp only [HoldsEscape, BeginsEscape, List.infix_cons_iff, and_or_left, exists_or]

lemma not_holdsEscape_of_not_mem (h : '%' ∉ cs) : ¬HoldsEscape cs := by
  rintro ⟨a, b, -, -, hpart⟩
  exact h (hpart.subset List.mem_cons_self)

lemma not_holdsEscape_nil : ¬HoldsEscape [] := by
  simp [HoldsEscape]

lemma HoldsEscape.mono (h : HoldsEscape cs) (hsub : cs <:+: ds) : HoldsEscape ds := by
  obtain ⟨a, b, ha, hb, hpart⟩ := h
  exact ⟨a, b, ha, hb, hpart.trans hsub⟩

lemma not_beginsEscape_of_ne (h : c ≠ '%') : ¬BeginsEscape (c :: cs) := by
  rintro ⟨a, b, -, -, hprefix⟩
  exact h (List.cons_prefix_cons.mp hprefix).1.symm

@[simp] lemma unescape_nil : unescape [] = [] := by
  rw [unescape]

lemma unescape_of_not_beginsEscape (h : ¬BeginsEscape (c :: rest)) :
    unescape (c :: rest) = encodeChars [c] ++ unescape rest := by
  rw [unescape.eq_def]
  split
  · rename_i a b more heq
    obtain ⟨rfl, rfl⟩ := List.cons.inj heq
    split
    · rename_i ha hb
      exact absurd ⟨a, b, by simp [IsHex, ha], by simp [IsHex, hb], List.prefix_append _ more⟩ h
    · rfl
  · rename_i heq
    obtain ⟨rfl, rfl⟩ := List.cons.inj heq
    rfl
  · rename_i heq
    cases heq

lemma unescape_escape_cons (ha : IsHex a) (hb : IsHex b) (rest : List Char) :
    unescape ('%' :: a :: b :: rest) =
      ((hexDigit? a).getD 0 * 16 + (hexDigit? b).getD 0).toUInt8 :: unescape rest := by
  obtain ⟨high, hhigh⟩ := Option.isSome_iff_exists.mp ha
  obtain ⟨low, hlow⟩ := Option.isSome_iff_exists.mp hb
  rw [unescape.eq_def]
  simp only [hhigh, hlow, Option.getD_some]

lemma unescape_cases (cs : List Char) : cs = [] ∨
    (∃ a b rest, IsHex a ∧ IsHex b ∧ cs = '%' :: a :: b :: rest) ∨ ∃ c rest, cs = c :: rest ∧ ¬BeginsEscape cs := by
  by_cases hbegins : BeginsEscape cs
  · obtain ⟨a, b, ha, hb, rest, rfl⟩ := hbegins
    exact Or.inr (Or.inl ⟨a, b, rest, ha, hb, rfl⟩)
  · cases cs with
    | nil => exact Or.inl rfl
    | cons c rest => exact Or.inr (Or.inr ⟨c, rest, rfl, hbegins⟩)

lemma escape_induction {P : List Char → Prop} (nil : P [])
    (escape : ∀ a b rest, IsHex a → IsHex b → P rest → P ('%' :: a :: b :: rest))
    (plain : ∀ c rest, ¬BeginsEscape (c :: rest) → P rest → P (c :: rest)) (cs : List Char) : P cs := by
  -- an escape takes three characters at once, so the induction is on the length
  induction hlength : cs.length using Nat.strong_induction_on generalizing cs with
  | _ n ih =>
    obtain rfl | ⟨a, b, rest, ha, hb, rfl⟩ | ⟨c, rest, rfl, hbegins⟩ := unescape_cases cs
    · exact nil
    · exact escape a b rest ha hb (ih _ (by simp at hlength; omega) rest rfl)
    · exact plain c rest hbegins (ih _ (by simp at hlength; omega) rest rfl)

/-- Reading the escapes of a text changes nothing where there are none, and makes it shorter where there are. -/
lemma unescape_eq_or_length_lt (cs : List Char) : ¬HoldsEscape cs ∧ unescape cs = encodeChars cs ∨
    HoldsEscape cs ∧ (unescape cs).length < (encodeChars cs).length := by
  induction cs using escape_induction with
  | nil => exact Or.inl ⟨not_holdsEscape_nil, by simp⟩
  | escape a b rest ha hb ih =>
    refine Or.inr ⟨⟨a, b, ha, hb, (List.prefix_append _ rest).isInfix⟩, ?_⟩
    have hlength : ∀ c : Char, 0 < (encodeChars [c]).length := fun c => length_encodeChars_pos (by simp)
    have hrest : (unescape rest).length ≤ (encodeChars rest).length := by
      obtain ⟨-, heq⟩ | ⟨-, hlt⟩ := ih
      · exact Nat.le_of_eq (congrArg List.length heq)
      · exact Nat.le_of_lt hlt
    rw [unescape_escape_cons ha hb, encodeChars_cons '%', encodeChars_cons a, encodeChars_cons b]
    simp only [List.length_append, List.length_cons]
    have := hlength '%'
    have := hlength a
    omega
  | plain c rest hbegins ih =>
    rw [holdsEscape_cons, unescape_of_not_beginsEscape hbegins, encodeChars_cons c rest]
    obtain ⟨hrest, heq⟩ | ⟨hrest, hlt⟩ := ih
    · exact Or.inl ⟨not_or.mpr ⟨hbegins, hrest⟩, by rw [heq]⟩
    · refine Or.inr ⟨Or.inr hrest, ?_⟩
      rw [List.length_append, List.length_append]
      omega

lemma length_unescape_le (cs : List Char) : (unescape cs).length ≤ (encodeChars cs).length := by
  obtain ⟨-, heq⟩ | ⟨-, hlt⟩ := unescape_eq_or_length_lt cs
  · exact Nat.le_of_eq (congrArg List.length heq)
  · exact Nat.le_of_lt hlt

lemma unescape_eq_of_not_holdsEscape (h : ¬HoldsEscape cs) : unescape cs = encodeChars cs :=
  (unescape_eq_or_length_lt cs).elim And.right fun hholds => absurd hholds.1 h

lemma not_holdsEscape_of_length_le (h : (encodeChars cs).length ≤ (unescape cs).length) : ¬HoldsEscape cs :=
  (unescape_eq_or_length_lt cs).elim And.left fun hholds => absurd h (Nat.not_le.mpr hholds.2)

lemma unescape_append_slash (before after : List Char) :
    unescape (before ++ '/' :: after) = unescape before ++ (encodeChars ['/'] ++ unescape after) := by
  induction before using escape_induction with
  | nil =>
    rw [List.nil_append, unescape_of_not_beginsEscape (not_beginsEscape_of_ne (by decide))]
    simp
  | escape a b rest ha hb ih =>
    rw [List.cons_append, List.cons_append, List.cons_append, unescape_escape_cons ha hb, unescape_escape_cons ha hb, ih]
    rfl
  | plain c rest hbegins ih =>
    have hmore : ¬BeginsEscape (c :: (rest ++ '/' :: after)) := by
      rintro ⟨a, b, ha, hb, hprefix⟩
      -- a slash is no digit, so an escape ends before it
      have hslash : ¬IsHex '/' := by decide
      rw [List.cons_prefix_cons] at hprefix
      cases rest with
      | nil =>
        obtain rfl := (List.cons_prefix_cons.mp hprefix.2).1
        exact hslash ha
      | cons x rest =>
        rw [List.cons_append, List.cons_prefix_cons] at hprefix
        cases rest with
        | nil =>
          obtain rfl := (List.cons_prefix_cons.mp hprefix.2.2).1
          exact hslash hb
        | cons y rest =>
          obtain ⟨rfl, rfl, hy⟩ := hprefix
          obtain rfl := (List.cons_prefix_cons.mp hy).1
          exact hbegins ⟨a, b, ha, hb, List.prefix_append _ rest⟩
    rw [List.cons_append, unescape_of_not_beginsEscape hbegins, unescape_of_not_beginsEscape hmore, ih, List.append_assoc]

lemma escape_cons (escaped : Char → Bool) (c : Char) (cs : List Char) : escape escaped (c :: cs) =
    (if escaped c then (encodeChars [c]).flatMap escapeByte else [c]) ++ escape escaped cs := rfl

lemma escape_cons_of_not (h : escaped c = false) : escape escaped (c :: cs) = c :: escape escaped cs := by
  rw [escape_cons, h]
  rfl

lemma unescape_escapeByte (byte : UInt8) (rest : List Char) : unescape (escapeByte byte ++ rest) = byte :: unescape rest := by
  have hhex : ∀ n < 16, hexDigit? (upperHex n) = some n := by decide
  have hbyte := byte.toNat_lt
  have hhigh := hhex (byte.toNat / 16) (by omega)
  have hlow := hhex (byte.toNat % 16) (by omega)
  have hsum : byte.toNat / 16 * 16 + byte.toNat % 16 = byte.toNat := by omega
  change unescape ('%' :: upperHex (byte.toNat / 16) :: upperHex (byte.toNat % 16) :: rest) = _
  rw [unescape_escape_cons (by simp [IsHex, hhigh]) (by simp [IsHex, hlow]), hhigh, hlow]
  simp [hsum]

lemma unescape_escapeBytes (bytes : List UInt8) (rest : List Char) :
    unescape (bytes.flatMap escapeByte ++ rest) = bytes ++ unescape rest := by
  induction bytes with
  | nil => rfl
  | cons byte bytes ih => rw [List.flatMap_cons, List.append_assoc, unescape_escapeByte, ih, List.cons_append]

lemma exists_of_escape_eq_cons {x : Char} {xs : List Char} (h : escape escaped cs = x :: xs) (hx : x ≠ '%') :
    ∃ more, cs = x :: more ∧ escape escaped more = xs := by
  cases cs with
  | nil => cases h
  | cons c cs =>
    rw [escape_cons] at h
    split at h
    · cases hbytes : encodeChars [c] with
      | nil => exact absurd hbytes (List.ne_nil_of_length_pos (length_encodeChars_pos (by simp)))
      | cons byte bytes =>
        rw [hbytes] at h
        exact absurd (List.cons.inj h).1.symm hx
    · obtain ⟨rfl, rfl⟩ := List.cons.inj h
      exact ⟨cs, rfl, rfl⟩

lemma IsHex.ne_percent (h : IsHex c) : c ≠ '%' := by
  rintro rfl
  exact absurd h (by decide)

/-- Escaping more of a text does not change what it stands for. -/
lemma unescape_escape (hpercent : escaped '%' = false) (hhex : ∀ c, IsHex c → escaped c = false) (cs : List Char) :
    unescape (escape escaped cs) = unescape cs := by
  induction cs using escape_induction with
  | nil => rfl
  | escape a b rest ha hb ih =>
    rw [escape_cons_of_not hpercent, escape_cons_of_not (hhex a ha), escape_cons_of_not (hhex b hb),
      unescape_escape_cons ha hb, unescape_escape_cons ha hb, ih]
  | plain c rest hbegins ih =>
    rw [unescape_of_not_beginsEscape hbegins, ← ih]
    cases hc : escaped c with
    | true => rw [escape_cons, if_pos hc, unescape_escapeBytes]
    | false =>
      have hescaped : ¬BeginsEscape (c :: escape escaped rest) := by
        rintro ⟨a, b, ha, hb, more, hmore⟩
        obtain ⟨rfl, hfirst⟩ := List.cons.inj hmore
        obtain ⟨behind, rfl, hsecond⟩ := exists_of_escape_eq_cons hfirst.symm ha.ne_percent
        obtain ⟨rest, rfl, -⟩ := exists_of_escape_eq_cons hsecond hb.ne_percent
        exact hbegins ⟨a, b, ha, hb, List.prefix_append _ rest⟩
      rw [escape_cons_of_not hc, unescape_of_not_beginsEscape hescaped]

lemma IsHex.bounds (h : IsHex c) : 0x30 ≤ c.toNat ∧ c.toNat ≤ 0x66 := by
  rw [IsHex, hexDigit?] at h
  simp only [Char.isDigit, Char.le_def, UInt32.le_iff_toNat_le, Bool.and_eq_true, decide_eq_true_iff] at h
  change 0x30 ≤ c.val.toNat ∧ c.val.toNat ≤ 0x66
  split_ifs at h with hdigit hsmall hcapital
  · exact ⟨hdigit.1, Nat.le_trans hdigit.2 (by decide)⟩
  · exact ⟨Nat.le_trans (by decide) hsmall.1, hsmall.2⟩
  · exact ⟨Nat.le_trans (by decide) hcapital.1, Nat.le_trans hcapital.2 (by decide)⟩
  · cases h

lemma not_escaped_of_isHex {marks : List Char} (hmarks : marks.all (fun d => !(hexDigit? d).isSome) = true) (h : IsHex c) :
    (isControl c || isOutsideAscii c || marks.contains c) = false := by
  obtain ⟨hfirst, hlast⟩ := h.bounds
  have hmem : marks.contains c = false := by
    rw [Bool.eq_false_iff, Ne, List.contains_iff_mem]
    intro hmem
    have hnone := List.all_eq_true.mp hmarks c hmem
    rw [IsHex] at h
    simp [h] at hnone
  rw [isControl, isOutsideAscii, decide_eq_false (by omega), decide_eq_false (by omega), hmem]
  rfl

lemma unescape_escape_path (cs : List Char) : unescape (escape isEscapedInPath cs) = unescape cs :=
  unescape_escape (by decide) (fun _ => not_escaped_of_isHex (by decide)) cs

lemma unescape_escape_query (cs : List Char) : unescape (escape isEscapedInQuery cs) = unescape cs :=
  unescape_escape (by decide) (fun _ => not_escaped_of_isHex (by decide)) cs

lemma mem_escape_iff {mark : Char} (hmark : mark ∉ "%0123456789ABCDEF".toList) :
    mark ∈ escape escaped cs ↔ mark ∈ cs ∧ escaped mark = false := by
  have hdigit : ∀ n < 16, upperHex n ∈ "%0123456789ABCDEF".toList := by decide
  -- what is escaped turns into percent signs and digits, none of which is the mark
  have hbyte : ∀ byte, mark ∉ escapeByte byte := by
    intro byte hmem
    have hlt := byte.toNat_lt
    obtain rfl | hmem := List.mem_cons.mp hmem
    · exact hmark (by decide)
    · obtain rfl | hmem := List.mem_cons.mp hmem
      · exact hmark (hdigit _ (by omega))
      · exact hmark (List.mem_singleton.mp hmem ▸ hdigit _ (by omega))
  rw [escape, List.mem_flatMap]
  constructor
  · rintro ⟨c, hc, hmem⟩
    split at hmem
    · obtain ⟨byte, -, hmem⟩ := List.mem_flatMap.mp hmem
      exact absurd hmem (hbyte byte)
    · rename_i hplain
      obtain rfl := List.mem_singleton.mp hmem
      exact ⟨hc, Bool.eq_false_iff.mpr hplain⟩
  · rintro ⟨hc, hplain⟩
    exact ⟨mark, hc, by simp [hplain]⟩

end Http.Url

end CodeOutline
