import CodeOutline.Text.Utf8
import Mathlib.Data.List.Basic

/-! The bytes of a text, character by character. -/

namespace CodeOutline.Text.Utf8

variable {cs ds : List Char}

lemma toList_loop (bytes : ByteArray) (i : Nat) (passed : List UInt8) :
    ByteArray.toList.loop bytes i passed = passed.reverse ++ bytes.data.toList.drop i := by
  induction i, passed using ByteArray.toList.loop.induct bytes with
  | case1 i passed hi ih =>
    have hlength : i < bytes.data.toList.length := by simpa using hi
    have hcons := List.drop_eq_getElem_cons hlength
    rw [ByteArray.toList.loop, if_pos hi, ih, hcons]
    simp [ByteArray.get!, hi]
  | case2 i passed hi =>
    have hdrop : bytes.data.toList.drop i = [] := List.drop_eq_nil_of_le (by simpa using Nat.le_of_not_lt hi)
    rw [ByteArray.toList.loop, if_neg hi, hdrop, List.append_nil]

lemma encode_eq (s : String) : encode s = s.toList.flatMap String.utf8EncodeChar := by
  have hs : s.toUTF8 = s.toList.utf8Encode := by
    rw [String.toUTF8_eq_toByteArray, ← String.toByteArray_ofList, String.ofList_toList]
  rw [encode, hs, ByteArray.toList, toList_loop, List.utf8Encode, List.toList_data_toByteArray]
  rfl

lemma encodeChar_of_lt {c : Char} (h : c.toNat < 128) : String.utf8EncodeChar c = [c.toUInt8] := by
  have hc : c.val.toNat ≤ 127 := Nat.le_of_lt_succ h
  simp only [String.utf8EncodeChar, if_pos hc]
  rfl

lemma le_of_mem_encodeChar {c : Char} {b : UInt8} (h : 128 ≤ c.toNat) (hb : b ∈ String.utf8EncodeChar c) : 128 ≤ b.toNat := by
  have hwide : ¬c.val.toNat ≤ 0x7F := Nat.not_le.mpr h
  simp only [String.utf8EncodeChar, if_neg hwide] at hb
  split_ifs at hb
  all_goals
    simp only [List.mem_cons, List.not_mem_nil, or_false] at hb
    rcases hb with rfl | rfl | rfl | rfl
  all_goals
    rw [UInt8.toNat_ofNat']
    omega

lemma encode_of_ascii {s : String} (h : ∀ c ∈ s.toList, c.toNat < 128) : encode s = s.toList.map Char.toUInt8 := by
  rw [encode_eq, ← List.flatMap_pure_eq_map]
  exact List.flatMap_congr fun c hc => encodeChar_of_lt (h c hc)

lemma encodeChars_eq (cs : List Char) : encodeChars cs = cs.flatMap String.utf8EncodeChar := by
  rw [encodeChars, encode_eq, String.toList_ofList]

lemma encode_eq_encodeChars (s : String) : encode s = encodeChars s.toList := by
  rw [encodeChars, String.ofList_toList]

@[simp] lemma encodeChars_nil : encodeChars [] = [] := encodeChars_eq []

@[simp] lemma encodeChars_append : encodeChars (cs ++ ds) = encodeChars cs ++ encodeChars ds := by
  simp only [encodeChars_eq, List.flatMap_append]

lemma encodeChars_cons (c : Char) (cs : List Char) : encodeChars (c :: cs) = encodeChars [c] ++ encodeChars cs := by
  rw [← encodeChars_append, List.singleton_append]

end CodeOutline.Text.Utf8
