import CodeOutline.Proofs.Text.LineIndex
import CodeOutline.Proofs.Text.Utf8

/-! The index of lines against the bytes of the text: it holds the places of the newline bytes, and the line of a place
is told by the newline bytes before it, also in the middle of a character. -/

namespace CodeOutline.Text

open Utf8

variable {c : Char} {bytes : List UInt8} {offset : Nat}

lemma newline_notMem_encodeChar (h : c ≠ '\n') : 10 ∉ String.utf8EncodeChar c := by
  intro hmem
  by_cases hc : c.toNat < 128
  · rw [encodeChar_of_lt hc, List.mem_singleton] at hmem
    have hbyte : c.toUInt8.toNat = c.toNat := by
      rw [Char.toUInt8, UInt32.toNat_toUInt8]
      exact Nat.mod_eq_of_lt (by change c.toNat < 256; omega)
    have hten : c.toNat = 10 := by
      rw [← hbyte, ← hmem]
      rfl
    exact h (Char.toNat_inj.mp hten)
  · exact absurd (le_of_mem_encodeChar (Nat.not_lt.mp hc) hmem) (by decide)

lemma idxsOf_encodeChar (c : Char) (position : Nat) :
    (String.utf8EncodeChar c).idxsOf 10 position = if c = '\n' then [position] else [] := by
  split
  · next h =>
    subst h
    rfl
  · next h =>
    rw [List.idxsOf_eq_nil_iff]
    intro byte hbyte
    exact beq_eq_false_iff_ne.mpr fun hten => newline_notMem_encodeChar h (hten ▸ hbyte)

lemma newlineOffsets_eq_idxsOf (position : Nat) (text : List Char) :
    newlineOffsets position text = (encodeChars text).idxsOf 10 position := by
  induction text generalizing position with
  | nil => rw [encodeChars_nil, newlineOffsets, List.idxsOf_nil]
  | cons c rest ih =>
    have hchar : encodeChars [c] = String.utf8EncodeChar c := by simp [encodeChars_eq]
    rw [encodeChars_cons, hchar, List.idxsOf_append, idxsOf_encodeChar, String.length_utf8EncodeChar, ← ih, newlineOffsets]
    split <;> rfl

/-- The places before a bound are those in the bytes before it. -/
lemma countP_idxsOf (h : offset ≤ bytes.length) :
    (bytes.idxsOf 10).countP (· < offset) = (bytes.take offset).count 10 := by
  have hlength : (bytes.take offset).length = offset := List.length_take_of_le h
  have hbefore : ((bytes.take offset).idxsOf 10).countP (· < offset) = (bytes.take offset).count 10 := by
    rw [List.countP_eq_length.mpr, List.length_idxsOf]
    intro place hplace
    have hlt := List.lt_add_of_mem_idxsOf place hplace
    exact decide_eq_true (by omega)
  have hbehind : ((bytes.drop offset).idxsOf 10 (0 + (bytes.take offset).length)).countP (· < offset) = 0 := by
    rw [List.countP_eq_zero]
    intro place hplace
    have hge := List.ge_of_mem_idxsOf place hplace
    simp only [decide_eq_true_eq]
    omega
  calc (bytes.idxsOf 10).countP (· < offset)
      = ((bytes.take offset ++ bytes.drop offset).idxsOf 10).countP (· < offset) := by rw [List.take_append_drop]
    _ = (bytes.take offset).count 10 := by rw [List.idxsOf_append, List.countP_append, hbefore, hbehind, Nat.add_zero]

namespace LineIndex

/-- The index holds the places of the newline bytes. Lines are counted from one, and each newline ends one. -/
structure CountsNewlines (index : LineIndex) (bytes : List UInt8) : Prop where
  newlines_eq : index.newlines.toList = bytes.idxsOf 10
  toNat_lineAt : ∀ offset ≤ bytes.length, (index.lineAt offset).toNat = 1 + (bytes.take offset).count 10
  lineAt_le : ∀ start stop, start ≤ stop → stop ≤ bytes.length → index.lineAt start ≤ index.lineAt stop
  lineAt_succ : ∀ offset byte, bytes[offset]? = some byte →
    (index.lineAt (offset + 1)).toNat = (index.lineAt offset).toNat + if byte = 10 then 1 else 0

lemma newlines_ofText (text : String) : (ofText text.toList).newlines.toList = (encode text).idxsOf 10 := by
  rw [ofText, newlinesFrom_toList, newlineOffsets_eq_idxsOf, ← encode_eq_encodeChars]
  rfl

variable {text : String}

lemma toNat_lineAt_ofText (hlines : (encode text).count 10 < 2 ^ 32 - 1) (h : offset ≤ (encode text).length) :
    ((ofText text.toList).lineAt offset).toNat = 1 + ((encode text).take offset).count 10 := by
  have hcount : ((encode text).take offset).count 10 ≤ (encode text).count 10 :=
    (List.take_sublist offset (encode text)).count_le 10
  rw [lineAt_eq, newlineOffsets_eq_idxsOf, ← encode_eq_encodeChars, countP_idxsOf h, Nat.add_comm 1]
  exact UInt32.toNat_ofNat_of_lt' (by change _ < 2 ^ 32; omega)

/-- Halving the recorded places gives the line of every place in the bytes. -/
theorem countsNewlines_ofText (hlines : (encode text).count 10 < 2 ^ 32 - 1) :
    (ofText text.toList).CountsNewlines (encode text) where
  newlines_eq := newlines_ofText text
  toNat_lineAt _ h := toNat_lineAt_ofText hlines h
  lineAt_le start stop hle hstop := by
    rw [UInt32.le_iff_toNat_le, toNat_lineAt_ofText hlines hstop, toNat_lineAt_ofText hlines (hle.trans hstop)]
    exact Nat.add_le_add_left ((List.take_sublist_take_left hle).count_le 10) 1
  lineAt_succ offset byte hbyte := by
    obtain ⟨hlt, hget⟩ := List.getElem?_eq_some_iff.mp hbyte
    rw [toNat_lineAt_ofText hlines hlt, toNat_lineAt_ofText hlines hlt.le, List.take_add_one, hbyte, List.count_append]
    simp [List.count_singleton, Nat.add_assoc]

theorem countsNewlines_inside_characters :
    let text := "é\n\n€"
    (encode text).count 10 < 2 ^ 32 - 1 ∧ (ofText text.toList).CountsNewlines (encode text) ∧
      (encode text).take 3 = [0xC3, 0xA9, 10] ∧ ((ofText text.toList).lineAt 1).toNat = 1 ∧
      ((ofText text.toList).lineAt 3).toNat = 2 ∧ ((ofText text.toList).lineAt 5).toNat = 3 := by
  intro text
  have hlines : (encode text).count 10 < 2 ^ 32 - 1 := by decide +kernel
  refine ⟨hlines, countsNewlines_ofText hlines, ?_, ?_, ?_, ?_⟩ <;> decide +kernel

end LineIndex

end CodeOutline.Text
