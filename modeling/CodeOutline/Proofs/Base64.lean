import CodeOutline.Base64
import Mathlib.Data.List.Basic

/-! Decoding base64 undoes encoding. -/

namespace CodeOutline.Base64

variable {v w x y : Nat} {offset index : Nat}

lemma value_symbol (h : v < 64) : value? (symbol v) = some v := by
  have hall : ∀ v < 64, value? (symbol v) = some v := by decide +kernel
  exact hall v h

lemma symbol_ne_pad (h : v < 64) : symbol v ≠ pad := by
  intro heq
  have hv := value_symbol h
  rw [heq] at hv
  cases hv

lemma valueAt_symbol (h : v < 64) : valueAt offset (symbol v) = .ok v := by
  rw [valueAt, value_symbol h]

lemma lastValues_symbol (h : v < 64) {rest : List UInt8} {values : List Nat}
    (hr : lastValues offset (index + 1) none rest = .ok values) :
    lastValues offset index none (symbol v :: rest) = .ok (v :: values) := by
  simp only [lastValues, if_neg (symbol_ne_pad h), valueAt_symbol h, hr]
  rfl

lemma lastValues_pads (h : 2 ≤ index) (first : Option Nat) (n : Nat) :
    lastValues offset index first (List.replicate n pad) = .ok [] := by
  induction n generalizing index first with
  | zero => rfl
  | succ n ih =>
    simp only [List.replicate_succ, lastValues, if_true, if_neg (show ¬index < 2 by omega)]
    exact ih (by omega) _

lemma decodeFrom_group {decoded rest : List UInt8} (hv : v < 64) (hw : w < 64) (hx : x < 64) (hy : y < 64)
    (hr : rest ≠ []) :
    decodeFrom decoded offset (symbol v :: symbol w :: symbol x :: symbol y :: rest) =
      decodeFrom ((x % 4 * 64 + y).toUInt8 :: (w % 16 * 16 + x / 4).toUInt8 :: (v * 4 + w / 16).toUInt8 :: decoded)
        (offset + 4) rest := by
  cases rest with
  | nil => exact absurd rfl hr
  | cons b rest =>
    rw [decodeFrom, valueAt_symbol hv, valueAt_symbol hw, valueAt_symbol hx, valueAt_symbol hy]
    rfl

lemma bytes_of_sextets (a b c : UInt8) :
    (a.toNat / 4 * 4 + (a.toNat % 4 * 16 + b.toNat / 16) / 16).toUInt8 = a ∧
      ((a.toNat % 4 * 16 + b.toNat / 16) % 16 * 16 + (b.toNat % 16 * 4 + c.toNat / 64) / 4).toUInt8 = b ∧
      ((b.toNat % 16 * 4 + c.toNat / 64) % 4 * 64 + c.toNat % 64).toUInt8 = c := by
  have ha := a.toNat_lt
  have hb := b.toNat_lt
  have hc := c.toNat_lt
  refine ⟨?_, ?_, ?_⟩
  · have h : a.toNat / 4 * 4 + (a.toNat % 4 * 16 + b.toNat / 16) / 16 = a.toNat := by omega
    rw [h]
    exact UInt8.ofNat_toNat
  · have h : (a.toNat % 4 * 16 + b.toNat / 16) % 16 * 16 + (b.toNat % 16 * 4 + c.toNat / 64) / 4 = b.toNat := by omega
    rw [h]
    exact UInt8.ofNat_toNat
  · have h : (b.toNat % 16 * 4 + c.toNat / 64) % 4 * 64 + c.toNat % 64 = c.toNat := by omega
    rw [h]
    exact UInt8.ofNat_toNat

lemma encode_ne_nil {bytes : List UInt8} (h : bytes ≠ []) : encode bytes ≠ [] := by
  cases bytes using encode.induct with
  | case1 => exact absurd rfl h
  | case2 | case3 | case4 => simp [encode]

lemma decodeLast_one (a : UInt8) : decodeLast offset (encode [a]) = .ok [a] := by
  have ha := a.toNat_lt
  have hpads : lastValues offset 2 none [pad, pad] = .ok [] := lastValues_pads (Nat.le_refl 2) none 2
  have hvalues := lastValues_symbol (show a.toNat / 4 < 64 by omega)
    (lastValues_symbol (show a.toNat % 4 * 16 < 64 by omega) hpads)
  have hbyte : (a.toNat / 4 * 4 + a.toNat % 4 * 16 / 16).toUInt8 = a := by
    simpa using (bytes_of_sextets a 0 0).1
  have hzero : a.toNat % 4 * 16 % 16 = 0 := by omega
  unfold decodeLast
  rw [encode, hvalues]
  change (if a.toNat % 4 * 16 % 16 ≠ 0 then _ else Except.ok [_]) = _
  rw [if_neg (not_not_intro hzero), hbyte]

lemma decodeLast_two (a b : UInt8) : decodeLast offset (encode [a, b]) = .ok [a, b] := by
  have ha := a.toNat_lt
  have hb := b.toNat_lt
  have hpads : lastValues offset 3 none [pad] = .ok [] := lastValues_pads (by omega) none 1
  have hvalues := lastValues_symbol (show a.toNat / 4 < 64 by omega)
    (lastValues_symbol (show a.toNat % 4 * 16 + b.toNat / 16 < 64 by omega)
      (lastValues_symbol (show b.toNat % 16 * 4 < 64 by omega) hpads))
  obtain ⟨hfirst, hthrough, _⟩ := bytes_of_sextets a b 0
  have hsecond : ((a.toNat % 4 * 16 + b.toNat / 16) % 16 * 16 + b.toNat % 16 * 4 / 4).toUInt8 = b := by
    simpa using hthrough
  have hzero : b.toNat % 16 * 4 % 4 = 0 := by omega
  unfold decodeLast
  rw [encode, hvalues]
  change (if b.toNat % 16 * 4 % 4 ≠ 0 then _ else Except.ok [_, _]) = _
  rw [if_neg (not_not_intro hzero), hfirst, hsecond]

lemma decodeLast_three (a b c : UInt8) : decodeLast offset (encode [a, b, c]) = .ok [a, b, c] := by
  have ha := a.toNat_lt
  have hb := b.toNat_lt
  have hc := c.toNat_lt
  have hend : lastValues offset 4 none [] = .ok [] := rfl
  have hvalues := lastValues_symbol (show a.toNat / 4 < 64 by omega)
    (lastValues_symbol (show a.toNat % 4 * 16 + b.toNat / 16 < 64 by omega)
      (lastValues_symbol (show b.toNat % 16 * 4 + c.toNat / 64 < 64 by omega)
        (lastValues_symbol (show c.toNat % 64 < 64 by omega) hend)))
  obtain ⟨hfirst, hsecond, hthird⟩ := bytes_of_sextets a b c
  unfold decodeLast
  rw [encode, encode, hvalues]
  change Except.ok [_, _, _] = _
  rw [hfirst, hsecond, hthird]

lemma decodeFrom_encode (bytes decoded : List UInt8) :
    decodeFrom decoded offset (encode bytes) = .ok (decoded.reverse ++ bytes) := by
  induction bytes using encode.induct generalizing decoded offset with
  | case1 => rfl
  | case2 a =>
    change (do return decoded.reverse ++ (← decodeLast offset (encode [a])) : Except Flaw (List UInt8)) = _
    rw [decodeLast_one]
    rfl
  | case3 a b =>
    change (do return decoded.reverse ++ (← decodeLast offset (encode [a, b])) : Except Flaw (List UInt8)) = _
    rw [decodeLast_two]
    rfl
  | case4 a b c rest ih =>
    -- a group is decoded in another way where it is the last
    by_cases hr : rest = []
    · subst hr
      change (do return decoded.reverse ++ (← decodeLast offset (encode [a, b, c])) : Except Flaw (List UInt8)) = _
      rw [decodeLast_three]
      rfl
    · have ha := a.toNat_lt
      have hb := b.toNat_lt
      have hc := c.toNat_lt
      obtain ⟨hfirst, hsecond, hthird⟩ := bytes_of_sextets a b c
      rw [encode, decodeFrom_group (by omega) (by omega) (by omega) (by omega) (encode_ne_nil hr), hfirst, hsecond,
        hthird, ih]
      simp

lemma length_encode (bytes : List UInt8) : (encode bytes).length % 4 = 0 := by
  induction bytes using encode.induct with
  | case1 | case2 | case3 => simp [encode]
  | case4 _ _ _ _ ih =>
    simp only [encode, List.length_cons]
    omega

lemma decode_encode (bytes : List UInt8) : decode (encode bytes) = .ok bytes := by
  unfold decode
  cases hlast : (encode bytes).getLast? with
  | none =>
    have hnil := List.getLast?_eq_none_iff.mp hlast
    rw [show bytes = [] from not_not.mp (mt encode_ne_nil (not_not_intro hnil))]
  | some last =>
    have hlength : ¬((encode bytes).length % 4 = 1 ∧ last ≠ pad ∧ value? last = none) := by
      rw [length_encode]
      omega
    exact (if_neg hlength).trans (decodeFrom_encode bytes [])

end CodeOutline.Base64
