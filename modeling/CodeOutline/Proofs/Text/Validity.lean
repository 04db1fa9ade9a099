import CodeOutline.Proofs.Fallible
import CodeOutline.Proofs.Text.Decoding

/-! Strict decoding: the bytes that it accepts are those that a text is encoded by. -/

namespace CodeOutline.Text.Utf8

variable {state : State} {decoded : List (Option Char)} {bytes before after rest : List UInt8} {cs : List Char}
  {b v bits lacking first last : Nat}

lemma decodeStrict?_eq_some : decodeStrict? bytes = some cs ↔ decode bytes = cs.map some := by
  rw [decodeStrict?, mapM_eq_some_iff, ← List.forall₂_eq_eq_eq, List.forall₂_map_right_iff]
  rfl

lemma mem_decodeFrom {c : Option Char} (h : c ∈ decoded) : c ∈ decodeFrom state decoded bytes := by
  rw [decodeFrom_eq]
  exact List.mem_append_left _ (List.mem_reverse.mpr h)

lemma decodeFrom_ne_of_none_mem (h : none ∈ decoded) : decodeFrom state decoded bytes ≠ cs.map some := by
  intro heq
  have hnone : none ∈ decodeFrom state decoded bytes := mem_decodeFrom h
  rw [heq] at hnone
  simp at hnone

lemma exists_cons_of_inside (h : decodeFrom (.inside bits lacking first last) [] bytes = cs.map some) :
    ∃ byte rest, bytes = byte :: rest ∧ first ≤ byte.toNat ∧ byte.toNat ≤ last ∧
      (if lacking ≤ 1 then decodeFrom .between [some (Char.ofNat (bits * 0x40 + byte.toNat % 0x40))] rest
        else decodeFrom (.inside (bits * 0x40 + byte.toNat % 0x40) (lacking - 1) 0x80 0xBF) [] rest) = cs.map some := by
  cases bytes with
  | nil => cases cs <;> simp [decodeFrom] at h
  | cons byte rest =>
    rw [decodeFrom_cons] at h
    by_cases hin : first ≤ byte.toNat ∧ byte.toNat ≤ last
    · rw [readByte_inside [] hin] at h
      refine ⟨byte, rest, rfl, hin.1, hin.2, ?_⟩
      split_ifs at h ⊢ <;> exact h
    · rw [readByte_outside [] hin, readLead_eq] at h
      exact absurd h (decodeFrom_ne_of_none_mem (by simp))

/-- What a lead byte begins: the number of bytes, and the range of the second of them. -/
lemma ofLead_cases (h : State.ofLead b = some state) :
    (0xC2 ≤ b ∧ b ≤ 0xDF ∧ state = .inside (b % 0x20) 1 0x80 0xBF) ∨
      (∃ first last, 0xE0 ≤ b ∧ b ≤ 0xEF ∧ state = .inside (b % 0x10) 2 first last ∧ 0x80 ≤ first ∧ last ≤ 0xBF ∧
        (b = 0xE0 → 0xA0 ≤ first) ∧ (b = 0xED → last ≤ 0x9F)) ∨
      ∃ first last, 0xF0 ≤ b ∧ b ≤ 0xF4 ∧ state = .inside (b % 8) 3 first last ∧ 0x80 ≤ first ∧ last ≤ 0xBF ∧
        (b = 0xF0 → 0x90 ≤ first) ∧ (b = 0xF4 → last ≤ 0x8F) := by
  unfold State.ofLead at h
  split_ifs at h with h₁ h₂ h₃ h₄ h₅ h₆ h₇
  all_goals obtain rfl := Option.some.inj h
  · exact .inl ⟨h₁.1, h₁.2, rfl⟩
  · exact .inr (.inl ⟨0xA0, 0xBF, by omega, by omega, by rw [h₂], by omega, by omega, by omega, by omega⟩)
  · exact .inr (.inl ⟨0x80, 0x9F, by omega, by omega, by rw [h₃], by omega, by omega, by omega, by omega⟩)
  · exact .inr (.inl ⟨0x80, 0xBF, by omega, by omega, rfl, by omega, by omega, by omega, by omega⟩)
  · exact .inr (.inr ⟨0x90, 0xBF, by omega, by omega, by rw [h₅], by omega, by omega, by omega, by omega⟩)
  · exact .inr (.inr ⟨0x80, 0xBF, by omega, by omega, rfl, by omega, by omega, by omega, by omega⟩)
  · exact .inr (.inr ⟨0x80, 0x8F, by omega, by omega, by rw [h₇], by omega, by omega, by omega, by omega⟩)

lemma toNat_val_ofNat (h : v.isValidChar) : (Char.ofNat v).val.toNat = v := by
  rw [Char.ofNat, dif_pos h]
  rfl

lemma utf8EncodeChar_one (h : v < 0x80) : String.utf8EncodeChar (Char.ofNat v) = [UInt8.ofNat v] := by
  have hvalue : (Char.ofNat v).val.toNat = v := toNat_val_ofNat (Or.inl (by omega))
  simp only [String.utf8EncodeChar, hvalue]
  rw [if_pos (by omega)]

lemma utf8EncodeChar_two (h : 0x80 ≤ v) (h' : v < 0x800) :
    String.utf8EncodeChar (Char.ofNat v) = [UInt8.ofNat (v / 64 + 0xC0), UInt8.ofNat (v % 64 + 0x80)] := by
  have hvalue : (Char.ofNat v).val.toNat = v := toNat_val_ofNat (Or.inl (by omega))
  have hlead : v / 64 % 32 = v / 64 := by omega
  simp only [String.utf8EncodeChar, hvalue]
  rw [if_neg (by omega), if_pos (by omega), hlead]

lemma utf8EncodeChar_three (h : 0x800 ≤ v) (h' : v < 0x10000) (hvalid : v < 0xD800 ∨ 0xDFFF < v) :
    String.utf8EncodeChar (Char.ofNat v) =
      [UInt8.ofNat (v / 4096 + 0xE0), UInt8.ofNat (v / 64 % 64 + 0x80), UInt8.ofNat (v % 64 + 0x80)] := by
  have hvalue : (Char.ofNat v).val.toNat = v := toNat_val_ofNat (by simp only [Nat.isValidChar]; omega)
  have hlead : v / 4096 % 16 = v / 4096 := by omega
  simp only [String.utf8EncodeChar, hvalue]
  rw [if_neg (by omega), if_neg (by omega), if_pos (by omega), hlead]

lemma utf8EncodeChar_four (h : 0x10000 ≤ v) (h' : v < 0x110000) :
    String.utf8EncodeChar (Char.ofNat v) = [UInt8.ofNat (v / 262144 + 0xF0), UInt8.ofNat (v / 4096 % 64 + 0x80),
      UInt8.ofNat (v / 64 % 64 + 0x80), UInt8.ofNat (v % 64 + 0x80)] := by
  have hvalue : (Char.ofNat v).val.toNat = v := toNat_val_ofNat (Or.inr ⟨by omega, h'⟩)
  have hlead : v / 262144 % 8 = v / 262144 := by omega
  simp only [String.utf8EncodeChar, hvalue]
  rw [if_neg (by omega), if_neg (by omega), if_neg (by omega), hlead]

/-- The bytes begin with the first character of the text and go on with the rest of it. -/
def BeginsAs (bytes : List UInt8) (cs : List Char) : Prop :=
  ∃ c rest more, bytes = String.utf8EncodeChar c ++ rest ∧ cs = c :: more ∧ decode rest = more.map some

lemma beginsAs_of_between {c : Char} (hbytes : bytes = String.utf8EncodeChar c ++ rest)
    (h : decodeFrom .between [some c] rest = cs.map some) : BeginsAs bytes cs := by
  rw [decodeFrom_eq] at h
  cases cs with
  | nil => simp at h
  | cons d more =>
    obtain ⟨hc, hmore⟩ := List.cons.inj h
    exact ⟨c, rest, more, hbytes, by rw [Option.some.inj hc], hmore⟩

lemma ofNat_of_toNat_eq (byte : UInt8) (h : byte.toNat = v) : UInt8.ofNat v = byte := by
  rw [← h, UInt8.ofNat_toNat]

variable {byte : UInt8}

lemma beginsAs_of_two (hfirst : 0xC2 ≤ byte.toNat) (hlast : byte.toNat ≤ 0xDF)
    (h : decodeFrom (.inside (byte.toNat % 0x20) 1 0x80 0xBF) [] bytes = cs.map some) : BeginsAs (byte :: bytes) cs := by
  obtain ⟨b₁, rest, rfl, hlow, hhigh, hnext⟩ := exists_cons_of_inside h
  rw [if_pos (by omega)] at hnext
  refine beginsAs_of_between ?_ hnext
  rw [utf8EncodeChar_two (by omega) (by omega), ofNat_of_toNat_eq byte (by omega),
    ofNat_of_toNat_eq b₁ (by omega)]
  rfl

lemma beginsAs_of_three (hfirst : 0xE0 ≤ byte.toNat) (hlast : byte.toNat ≤ 0xEF) (hmin : 0x80 ≤ first) (hmax : last ≤ 0xBF)
    (hlong : byte.toNat = 0xE0 → 0xA0 ≤ first) (hsurrogate : byte.toNat = 0xED → last ≤ 0x9F)
    (h : decodeFrom (.inside (byte.toNat % 0x10) 2 first last) [] bytes = cs.map some) : BeginsAs (byte :: bytes) cs := by
  obtain ⟨b₁, _, rfl, hlow, hhigh, hnext⟩ := exists_cons_of_inside h
  rw [if_neg (by omega)] at hnext
  obtain ⟨b₂, rest, rfl, hlow', hhigh', hnext⟩ := exists_cons_of_inside hnext
  rw [if_pos (by omega)] at hnext
  refine beginsAs_of_between ?_ hnext
  rw [utf8EncodeChar_three (by omega) (by omega) (by omega), ofNat_of_toNat_eq byte (by omega),
    ofNat_of_toNat_eq b₁ (by omega), ofNat_of_toNat_eq b₂ (by omega)]
  rfl

lemma beginsAs_of_four (hfirst : 0xF0 ≤ byte.toNat) (hlast : byte.toNat ≤ 0xF4) (hmin : 0x80 ≤ first) (hmax : last ≤ 0xBF)
    (hlong : byte.toNat = 0xF0 → 0x90 ≤ first) (htop : byte.toNat = 0xF4 → last ≤ 0x8F)
    (h : decodeFrom (.inside (byte.toNat % 8) 3 first last) [] bytes = cs.map some) : BeginsAs (byte :: bytes) cs := by
  obtain ⟨b₁, _, rfl, hlow, hhigh, hnext⟩ := exists_cons_of_inside h
  rw [if_neg (by omega)] at hnext
  obtain ⟨b₂, _, rfl, hlow', hhigh', hnext⟩ := exists_cons_of_inside hnext
  rw [if_neg (by omega)] at hnext
  obtain ⟨b₃, rest, rfl, hlow'', hhigh'', hnext⟩ := exists_cons_of_inside hnext
  rw [if_pos (by omega)] at hnext
  refine beginsAs_of_between ?_ hnext
  rw [utf8EncodeChar_four (by omega) (by omega), ofNat_of_toNat_eq byte (by omega),
    ofNat_of_toNat_eq b₁ (by omega), ofNat_of_toNat_eq b₂ (by omega),
    ofNat_of_toNat_eq b₃ (by omega)]
  rfl

lemma beginsAs_of_decode (h : decode (byte :: bytes) = cs.map some) : BeginsAs (byte :: bytes) cs := by
  rw [decode, decodeFrom_cons, readByte, readLead] at h
  by_cases hone : byte.toNat < 0x80
  · rw [if_pos hone] at h
    refine beginsAs_of_between ?_ h
    rw [utf8EncodeChar_one hone, UInt8.ofNat_toNat]
    rfl
  rw [if_neg hone] at h
  cases hlead : State.ofLead byte.toNat with
  | none =>
    rw [hlead] at h
    exact absurd h (decodeFrom_ne_of_none_mem (by simp))
  | some state =>
    rw [hlead] at h
    obtain ⟨hfirst, hlast, rfl⟩ | ⟨first, last, hfirst, hlast, rfl, hmin, hmax, hlong, hsurrogate⟩ |
      ⟨first, last, hfirst, hlast, rfl, hmin, hmax, hlong, htop⟩ := ofLead_cases hlead
    · exact beginsAs_of_two hfirst hlast h
    · exact beginsAs_of_three hfirst hlast hmin hmax hlong hsurrogate h
    · exact beginsAs_of_four hfirst hlast hmin hmax hlong htop h

lemma decodeStrict?_eq_some_iff : decodeStrict? bytes = some cs ↔ bytes = encodeChars cs := by
  rw [decodeStrict?_eq_some]
  constructor
  · intro h
    induction hlength : bytes.length using Nat.strong_induction_on generalizing bytes cs with
    | _ length ih =>
      cases bytes with
      | nil =>
        obtain rfl : cs = [] := by cases cs <;> simp [decode, decodeFrom] at h ⊢
        exact encodeChars_nil.symm
      | cons byte bytes =>
        obtain ⟨c, rest, more, hbytes, rfl, hmore⟩ := beginsAs_of_decode h
        have hpos : 0 < (String.utf8EncodeChar c).length := by
          simpa [encodeChars_eq] using length_encodeChars_pos (List.cons_ne_nil c [])
        have hrest := ih rest.length (by rw [← hlength, hbytes, List.length_append]; omega) hmore rfl
        rw [hbytes, hrest, encodeChars_eq, encodeChars_eq, List.flatMap_cons]
  · rintro rfl
    rw [encodeChars, decode_encode, String.toList_ofList]

end CodeOutline.Text.Utf8
