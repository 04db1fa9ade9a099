import CodeOutline.Proofs.Text.Split
import CodeOutline.Proofs.Text.Utf8
import Mathlib.Data.Nat.Init

/-! The text that bytes are decoded to: its newlines and its lines are those of the bytes, and what has been encoded
comes back. -/

namespace CodeOutline.Text.Utf8

variable {state : State} {decoded : List (Option Char)} {bytes before after : List UInt8} {b n v bits lacking first last : Nat}

lemma ofNat_eq_newline_iff : Char.ofNat n = '\n' ↔ n = 10 := by
  constructor
  · intro h
    by_cases hvalid : n.isValidChar
    · have hchar : Char.ofNat n = Char.ofNatAux n hvalid := dif_pos hvalid
      exact congrArg Char.toNat (hchar.symm.trans h)
    · have hchar : Char.ofNat n = Char.ofNat 0 := dif_neg hvalid
      exact absurd (hchar.symm.trans h) (by decide)
  · rintro rfl
    rfl

/-- So much is read of a character that it is not one of the first 128. -/
def State.IsWide : State → Prop
  | .between => True
  | .inside bits lacking first last =>
    0x80 ≤ first ∧ last ≤ 0xBF ∧ (2 ≤ bits ∨ 2 ≤ lacking ∧ (1 ≤ bits ∨ 0x90 ≤ first))

lemma isWide_between : State.between.IsWide := trivial

lemma isWide_of_ofLead (h : State.ofLead b = some state) : state.IsWide := by
  unfold State.ofLead at h
  split_ifs at h
  all_goals
    obtain rfl := Option.some.inj h
    simp only [State.IsWide]
    omega

/-- One byte adds a newline if it is one, and none else. -/
structure Reads (decoded : List (Option Char)) (b : Nat) (next : State × List (Option Char)) : Prop where
  isWide : next.1.IsWide
  count_eq : next.2.count (some '\n') = decoded.count (some '\n') + if b = 10 then 1 else 0

lemma reads_readLead (decoded : List (Option Char)) (b : Nat) : Reads decoded b (readLead decoded b) := by
  unfold readLead
  split
  · refine ⟨trivial, ?_⟩
    rw [List.count_cons]
    simp [ofNat_eq_newline_iff]
  · have hb : b ≠ 10 := by omega
    cases hlead : State.ofLead b with
    | none => exact ⟨trivial, by simp [hb]⟩
    | some state => exact ⟨isWide_of_ofLead hlead, by simp [hb]⟩

lemma readByte_inside (decoded : List (Option Char)) (h : first ≤ b ∧ b ≤ last) :
    readByte (.inside bits lacking first last) decoded b =
      if lacking ≤ 1 then (.between, some (Char.ofNat (bits * 0x40 + b % 0x40)) :: decoded)
      else (.inside (bits * 0x40 + b % 0x40) (lacking - 1) 0x80 0xBF, decoded) := if_pos h

lemma readByte_outside (decoded : List (Option Char)) (h : ¬(first ≤ b ∧ b ≤ last)) :
    readByte (.inside bits lacking first last) decoded b = readLead (none :: decoded) b := if_neg h

lemma reads_readByte (h : state.IsWide) (decoded : List (Option Char)) (b : Nat) :
    Reads decoded b (readByte state decoded b) := by
  cases state with
  | between => exact reads_readLead decoded b
  | inside bits lacking first last =>
    obtain ⟨hfirst, hlast, hbits⟩ := h
    by_cases hin : first ≤ b ∧ b ≤ last
    · have hb : b ≠ 10 := by omega
      rw [readByte_inside decoded hin]
      split
      · have hwide : bits * 0x40 + b % 0x40 ≠ 10 := by omega
        exact ⟨trivial, by simp [hb, ofNat_eq_newline_iff, hwide]⟩
      · have hwide : 2 ≤ bits * 0x40 + b % 0x40 := by omega
        exact ⟨⟨Nat.le_refl _, Nat.le_refl _, Or.inl hwide⟩, by simp [hb]⟩
    · obtain ⟨hwide, hcount⟩ := reads_readLead (none :: decoded) b
      rw [readByte_outside decoded hin]
      exact ⟨hwide, by simpa using hcount⟩

lemma decodeFrom_cons (state : State) (decoded : List (Option Char)) (byte : UInt8) (rest : List UInt8) :
    decodeFrom state decoded (byte :: rest) =
      decodeFrom (readByte state decoded byte.toNat).1 (readByte state decoded byte.toNat).2 rest := rfl

lemma count_decodeFrom (h : state.IsWide) (decoded : List (Option Char)) (bytes : List UInt8) :
    (decodeFrom state decoded bytes).count (some '\n') = decoded.count (some '\n') + bytes.count 10 := by
  induction bytes generalizing state decoded with
  | nil => cases state <;> simp [decodeFrom]
  | cons byte rest ih =>
    obtain ⟨hwide, hcount⟩ := reads_readByte h decoded byte.toNat
    have hbyte : byte.toNat = 10 ↔ byte = 10 := UInt8.toNat_inj (b := 10)
    rw [decodeFrom_cons, ih hwide, hcount, List.count_cons]
    simp only [hbyte, beq_iff_eq]
    omega

lemma readLead_eq (decoded : List (Option Char)) (b : Nat) :
    readLead decoded b = ((readLead [] b).1, (readLead [] b).2 ++ decoded) := by
  unfold readLead
  split
  · rfl
  · cases State.ofLead b <;> rfl

lemma readByte_eq (state : State) (decoded : List (Option Char)) (b : Nat) :
    readByte state decoded b = ((readByte state [] b).1, (readByte state [] b).2 ++ decoded) := by
  cases state with
  | between => exact readLead_eq decoded b
  | inside bits lacking first last =>
    by_cases hin : first ≤ b ∧ b ≤ last
    · rw [readByte_inside decoded hin, readByte_inside [] hin]
      split <;> rfl
    · rw [readByte_outside decoded hin, readByte_outside [] hin, readLead_eq, readLead_eq [none], List.append_assoc]
      rfl

lemma decodeFrom_eq (state : State) (decoded : List (Option Char)) (bytes : List UInt8) :
    decodeFrom state decoded bytes = decoded.reverse ++ decodeFrom state [] bytes := by
  induction bytes generalizing state decoded with
  | nil => cases state <;> simp [decodeFrom]
  | cons byte rest ih =>
    rw [decodeFrom_cons, decodeFrom_cons, readByte_eq, ih, ih _ (readByte state [] byte.toNat).2, List.reverse_append,
      List.append_assoc]

/-- A newline ends whatever was begun before it. -/
lemma decodeFrom_newline (h : state.IsWide) (decoded : List (Option Char)) (before after : List UInt8) :
    decodeFrom state decoded (before ++ 10 :: after) = decodeFrom state decoded before ++ some '\n' :: decode after := by
  induction before generalizing state decoded with
  | nil =>
    cases state with
    | between =>
      have hread : readByte .between decoded (10 : UInt8).toNat = (.between, some '\n' :: decoded) := rfl
      rw [List.nil_append, decodeFrom_cons, hread, decodeFrom_eq, decodeFrom, List.reverse_cons, List.append_assoc]
      rfl
    | inside bits lacking first last =>
      have hlow : ¬(first ≤ (10 : UInt8).toNat ∧ (10 : UInt8).toNat ≤ last) := fun hin =>
        absurd (Nat.le_trans h.1 hin.1) (by decide)
      have hread : readByte (.inside bits lacking first last) decoded (10 : UInt8).toNat =
          (.between, some '\n' :: none :: decoded) := readByte_outside decoded hlow
      rw [List.nil_append, decodeFrom_cons, hread, decodeFrom_eq, decodeFrom, List.reverse_cons, List.append_assoc]
      rfl
  | cons byte rest ih =>
    rw [List.cons_append, decodeFrom_cons, decodeFrom_cons, ih (reads_readByte h decoded byte.toNat).isWide]

lemma decodeLossy_newline (before after : List UInt8) :
    decodeLossy (before ++ 10 :: after) = decodeLossy before ++ '\n' :: decodeLossy after := by
  rw [decodeLossy, decode, decodeFrom_newline isWide_between, List.map_append]
  rfl

lemma count_decodeLossy (bytes : List UInt8) : (decodeLossy bytes).count '\n' = bytes.count 10 := by
  have hmap : ∀ read : List (Option Char), (read.map (·.getD '\uFFFD')).count '\n' = read.count (some '\n') := by
    intro read
    induction read with
    | nil => rfl
    | cons c rest ih =>
      cases c with
      | none => simpa using ih
      | some c => simp [List.count_cons, ih]
  rw [decodeLossy, decode, hmap, count_decodeFrom isWide_between, List.count_nil, Nat.zero_add]

lemma splitAt_decodeLossy (bytes : List UInt8) :
    splitAt '\n' (decodeLossy bytes) = (bytes.splitOn 10).map decodeLossy := by
  induction hlength : bytes.length using Nat.strong_induction_on generalizing bytes with
  | _ length ih =>
    by_cases hmem : 10 ∈ bytes
    · obtain ⟨before, after, rfl⟩ := List.append_of_mem hmem
      have hsplit : (before ++ 10 :: after).splitOn 10 = before.splitOn 10 ++ after.splitOn 10 :=
        List.splitOnP_append_cons before after (beq_self_eq_true 10)
      rw [List.length_append, List.length_cons] at hlength
      rw [decodeLossy_newline, splitAt_append_mark, ih before.length (by omega) before rfl,
        ih after.length (by omega) after rfl, hsplit, List.map_append]
    · have hnone : '\n' ∉ decodeLossy bytes := by
        rw [← List.count_eq_zero, count_decodeLossy, List.count_eq_zero]
        exact hmem
      rw [splitAt_of_not_mem hnone, List.splitOn_eq_singleton hmem, List.map_singleton]

/-! Decoding what has been encoded, a character at a time. -/

lemma toNat_ofNat (h : n < 256) : (UInt8.ofNat n).toNat = n := UInt8.toNat_ofNat_of_lt' h

lemma readByte_last (decoded : List (Option Char)) (h : first ≤ v % 64 + 128 ∧ v % 64 + 128 ≤ last) :
    readByte (.inside bits 1 first last) decoded (v % 64 + 128) =
      (.between, some (Char.ofNat (bits * 64 + v % 64)) :: decoded) := by
  have hrest : (v % 64 + 128) % 0x40 = v % 64 := by omega
  rw [readByte_inside decoded h, hrest]
  rfl

lemma readByte_middle (decoded : List (Option Char)) (h : first ≤ v % 64 + 128 ∧ v % 64 + 128 ≤ last)
    (hlacking : 1 < lacking) : readByte (.inside bits lacking first last) decoded (v % 64 + 128) =
      (.inside (bits * 64 + v % 64) (lacking - 1) 0x80 0xBF, decoded) := by
  have hrest : (v % 64 + 128) % 0x40 = v % 64 := by omega
  rw [readByte_inside decoded h, hrest]
  exact if_neg (Nat.not_le.mpr hlacking)

lemma readByte_lead (decoded : List (Option Char)) (h : State.ofLead b = some state) (hb : 0x80 ≤ b) :
    readByte .between decoded b = (state, decoded) := by
  rw [readByte, readLead, if_neg (Nat.not_lt.mpr hb), h]

lemma ofLead_two (h : 0x80 ≤ v) (h' : v < 0x800) :
    State.ofLead (v / 64 % 32 + 192) = some (.inside (v / 64) 1 0x80 0xBF) := by
  have hlead : 0xC2 ≤ v / 64 % 32 + 192 ∧ v / 64 % 32 + 192 ≤ 0xDF := by omega
  have hbits : (v / 64 % 32 + 192) % 0x20 = v / 64 := by omega
  rw [State.ofLead, if_pos hlead, hbits]

/-- The range of the second byte shuts out what two bytes are enough for, and the surrogates. -/
lemma exists_ofLead_three (h : 0x800 ≤ v) (h' : v < 0x10000) (hvalid : v < 0xD800 ∨ 0xDFFF < v) :
    ∃ first last, State.ofLead (v / 4096 % 16 + 224) = some (.inside (v / 4096) 2 first last) ∧
      first ≤ v / 64 % 64 + 128 ∧ v / 64 % 64 + 128 ≤ last := by
  have hbits : v / 4096 % 16 = v / 4096 := by omega
  rw [hbits]
  by_cases hlow : v / 4096 = 0
  · exact ⟨0xA0, 0xBF, by rw [hlow]; rfl, by omega, by omega⟩
  by_cases hsurrogate : v / 4096 = 0xD
  · exact ⟨0x80, 0x9F, by rw [hsurrogate]; rfl, by omega, by omega⟩
  · have hlead : 0xE1 ≤ v / 4096 + 224 ∧ v / 4096 + 224 ≤ 0xEF := by omega
    have hback : (v / 4096 + 224) % 0x10 = v / 4096 := by omega
    refine ⟨0x80, 0xBF, ?_, by omega, by omega⟩
    rw [State.ofLead, if_neg (by omega), if_neg (by omega), if_neg (by omega), if_pos hlead, hback]

/-- The range of the second byte shuts out what three bytes are enough for, and what is beyond all characters. -/
lemma exists_ofLead_four (h : 0x10000 ≤ v) (h' : v < 0x110000) :
    ∃ first last, State.ofLead (v / 262144 % 8 + 240) = some (.inside (v / 262144) 3 first last) ∧
      first ≤ v / 4096 % 64 + 128 ∧ v / 4096 % 64 + 128 ≤ last := by
  have hbits : v / 262144 % 8 = v / 262144 := by omega
  rw [hbits]
  by_cases hlow : v / 262144 = 0
  · exact ⟨0x90, 0xBF, by rw [hlow]; rfl, by omega, by omega⟩
  by_cases hhigh : v / 262144 = 4
  · exact ⟨0x80, 0x8F, by rw [hhigh]; rfl, by omega, by omega⟩
  · have hlead : 0xF1 ≤ v / 262144 + 240 ∧ v / 262144 + 240 ≤ 0xF3 := by omega
    have hback : (v / 262144 + 240) % 8 = v / 262144 := by omega
    refine ⟨0x80, 0xBF, ?_, by omega, by omega⟩
    rw [State.ofLead, if_neg (by omega), if_neg (by omega), if_neg (by omega), if_neg (by omega), if_neg (by omega),
      if_pos hlead, hback]

lemma decodeFrom_encodeChar (decoded : List (Option Char)) (c : Char) (rest : List UInt8) :
    decodeFrom .between decoded (String.utf8EncodeChar c ++ rest) = decodeFrom .between (some c :: decoded) rest := by
  have hvalid := c.valid
  have hback : Char.ofNat c.val.toNat = c := Char.ofNat_toNat c
  simp only [UInt32.isValidChar, Nat.isValidChar] at hvalid
  unfold String.utf8EncodeChar
  generalize hv : c.val.toNat = v at hvalid hback ⊢
  simp only
  have hrange : 0x80 ≤ v % 64 + 128 ∧ v % 64 + 128 ≤ 0xBF := by omega
  have hrange' : 0x80 ≤ v / 64 % 64 + 128 ∧ v / 64 % 64 + 128 ≤ 0xBF := by omega
  split
  · have hread : readByte .between decoded (UInt8.ofNat v).toNat = (.between, some c :: decoded) := by
      rw [toNat_ofNat (by omega), readByte, readLead, if_pos (by omega), hback]
    rw [List.cons_append, List.nil_append, decodeFrom_cons, hread]
  · split
    · simp only [List.cons_append, List.nil_append, decodeFrom_cons]
      rw [toNat_ofNat (by omega), toNat_ofNat (by omega), readByte_lead decoded (ofLead_two (by omega) (by omega)) (by omega),
        readByte_last decoded hrange]
      have hall : v / 64 * 64 + v % 64 = v := by omega
      rw [hall, hback]
    · split
      · obtain ⟨first, last, hlead, hin⟩ := exists_ofLead_three (v := v) (by omega) (by omega) (by omega)
        simp only [List.cons_append, List.nil_append, decodeFrom_cons]
        rw [toNat_ofNat (by omega), toNat_ofNat (by omega), toNat_ofNat (by omega), readByte_lead decoded hlead (by omega),
          readByte_middle decoded hin (by omega), readByte_last decoded hrange]
        have hall : (v / 4096 * 64 + v / 64 % 64) * 64 + v % 64 = v := by omega
        rw [hall, hback]
      · obtain ⟨first, last, hlead, hin⟩ := exists_ofLead_four (v := v) (by omega) (by omega)
        simp only [List.cons_append, List.nil_append, decodeFrom_cons]
        rw [toNat_ofNat (by omega), toNat_ofNat (by omega), toNat_ofNat (by omega), toNat_ofNat (by omega),
          readByte_lead decoded hlead (by omega), readByte_middle decoded hin (by omega),
          readByte_middle decoded hrange' (by omega), readByte_last decoded hrange]
        have hall : ((v / 262144 * 64 + v / 4096 % 64) * 64 + v / 64 % 64) * 64 + v % 64 = v := by omega
        rw [hall, hback]

lemma decode_encode (s : String) : decode (encode s) = s.toList.map some := by
  have hdecode : ∀ (cs : List Char) (decoded : List (Option Char)),
      decodeFrom .between decoded (cs.flatMap String.utf8EncodeChar) = decoded.reverse ++ cs.map some := by
    intro cs
    induction cs with
    | nil => simp [decodeFrom]
    | cons c rest ih =>
      intro decoded
      rw [List.flatMap_cons, decodeFrom_encodeChar, ih, List.reverse_cons, List.append_assoc]
      rfl
  rw [decode, encode_eq, hdecode, List.reverse_nil, List.nil_append]

lemma decodeLossy_encode (s : String) : decodeLossy (encode s) = s.toList := by
  rw [decodeLossy, decode_encode, List.map_map]
  exact List.map_id _

lemma encodeChars_injective : Function.Injective encodeChars := by
  intro cs ds h
  simpa only [encodeChars, decodeLossy_encode, String.toList_ofList] using congrArg decodeLossy h

lemma encode_injective : Function.Injective encode := by
  intro s t h
  rw [encode_eq_encodeChars, encode_eq_encodeChars] at h
  exact String.toList_inj.mp (encodeChars_injective h)

lemma length_encodeChars_pos {cs : List Char} (h : cs ≠ []) : 0 < (encodeChars cs).length := by
  rw [List.length_pos_iff]
  exact fun hnil => h (encodeChars_injective (hnil.trans encodeChars_nil.symm))

end CodeOutline.Text.Utf8
