import CodeOutline.Proofs.Base64
import CodeOutline.Proofs.Fallible
import Mathlib.Algebra.Group.Nat.Defs

/-! Decoding base64 is strict: what it accepts has been encoded. These are the texts in canonical form. -/

namespace CodeOutline.Base64

variable {v w x y offset index : Nat} {text group rest bytes decoded : List UInt8} {values : List Nat} {b : UInt8}

lemma eq_symbol_of_value? (h : value? b = some v) : v < 64 ∧ b = symbol v := by
  have hall : ((List.range 256).all fun n =>
      (value? (UInt8.ofNat n)).all fun v => decide (v < 64 ∧ UInt8.ofNat n = symbol v)) = true := by decide +kernel
  have hvalue := List.all_eq_true.mp hall b.toNat (List.mem_range.mpr b.toNat_lt)
  rw [UInt8.ofNat_toNat, h] at hvalue
  exact of_decide_eq_true hvalue

lemma eq_symbol_of_valueAt (h : valueAt offset b = .ok v) : v < 64 ∧ b = symbol v := by
  unfold valueAt at h
  split at h
  · rename_i hvalue
    obtain rfl := Except.ok.inj h
    exact eq_symbol_of_value? hvalue
  · cases h

lemma exists_pads_of_lastValues {first : Nat} (h : lastValues offset index (some first) group = .ok values) :
    values = [] ∧ ∃ pads, group = List.replicate pads pad := by
  induction group generalizing index first with
  | nil =>
    obtain rfl := Except.ok.inj h
    exact ⟨rfl, 0, rfl⟩
  | cons b rest ih =>
    unfold lastValues at h
    split_ifs at h with hb hindex
    obtain ⟨hvalues, pads, rfl⟩ := ih h
    exact ⟨hvalues, pads + 1, by rw [hb, List.replicate_succ]⟩

lemma exists_of_lastValues (h : lastValues offset index none group = .ok values) :
    (∀ v ∈ values, v < 64) ∧ ∃ pads, group = values.map symbol ++ List.replicate pads pad := by
  induction group generalizing index values with
  | nil =>
    obtain rfl := Except.ok.inj h
    exact ⟨by simp, 0, rfl⟩
  | cons b rest ih =>
    unfold lastValues at h
    split_ifs at h with hb hindex
    · obtain ⟨rfl, pads, rfl⟩ := exists_pads_of_lastValues h
      exact ⟨by simp, pads + 1, by rw [hb, List.map_nil, List.nil_append, List.replicate_succ]⟩
    · obtain ⟨v, hv, h⟩ := exists_of_bind_eq_ok h
      obtain ⟨others, hothers, h⟩ := exists_of_bind_eq_ok h
      obtain rfl := Except.ok.inj h
      obtain ⟨hlt, rfl⟩ := eq_symbol_of_valueAt hv
      obtain ⟨hrest, pads, rfl⟩ := ih hothers
      exact ⟨by simpa using ⟨hlt, hrest⟩, pads, rfl⟩

lemma sextets_of_bytes (hv : v < 64) (hw : w < 64) (hx : x < 64) (hy : y < 64) :
    (v * 4 + w / 16).toUInt8.toNat = v * 4 + w / 16 ∧
      (w % 16 * 16 + x / 4).toUInt8.toNat = w % 16 * 16 + x / 4 ∧ (x % 4 * 64 + y).toUInt8.toNat = x % 4 * 64 + y :=
  ⟨UInt8.toNat_ofNat_of_lt' (show v * 4 + w / 16 < 256 by omega),
    UInt8.toNat_ofNat_of_lt' (show w % 16 * 16 + x / 4 < 256 by omega),
    UInt8.toNat_ofNat_of_lt' (show x % 4 * 64 + y < 256 by omega)⟩

lemma encode_group (hv : v < 64) (hw : w < 64) (hx : x < 64) (hy : y < 64) (rest : List UInt8) :
    encode ((v * 4 + w / 16).toUInt8 :: (w % 16 * 16 + x / 4).toUInt8 :: (x % 4 * 64 + y).toUInt8 :: rest) =
      symbol v :: symbol w :: symbol x :: symbol y :: encode rest := by
  obtain ⟨ha, hb, hc⟩ := sextets_of_bytes hv hw hx hy
  have hfirst : (v * 4 + w / 16) / 4 = v := by omega
  have hsecond : (v * 4 + w / 16) % 4 * 16 + (w % 16 * 16 + x / 4) / 16 = w := by omega
  have hthird : (w % 16 * 16 + x / 4) % 16 * 4 + (x % 4 * 64 + y) / 64 = x := by omega
  have hfourth : (x % 4 * 64 + y) % 64 = y := by omega
  rw [encode, ha, hb, hc, hfirst, hsecond, hthird, hfourth]

lemma encode_two (hv : v < 64) (hw : w < 64) (hx : x < 64) (hzero : x % 4 = 0) :
    encode [(v * 4 + w / 16).toUInt8, (w % 16 * 16 + x / 4).toUInt8] = [symbol v, symbol w, symbol x, pad] := by
  obtain ⟨ha, hb, _⟩ := sextets_of_bytes hv hw hx hx
  have hfirst : (v * 4 + w / 16) / 4 = v := by omega
  have hsecond : (v * 4 + w / 16) % 4 * 16 + (w % 16 * 16 + x / 4) / 16 = w := by omega
  have hthird : (w % 16 * 16 + x / 4) % 16 * 4 = x := by omega
  rw [encode, ha, hb, hfirst, hsecond, hthird]

lemma encode_one (hv : v < 64) (hw : w < 64) (hzero : w % 16 = 0) :
    encode [(v * 4 + w / 16).toUInt8] = [symbol v, symbol w, pad, pad] := by
  obtain ⟨ha, _, _⟩ := sextets_of_bytes hv hw hw hw
  have hfirst : (v * 4 + w / 16) / 4 = v := by omega
  have hsecond : (v * 4 + w / 16) % 4 * 16 = w := by omega
  rw [encode, ha, hfirst, hsecond]

lemma eq_encode_of_decodeLast (hlength : group.length ≤ 4) (h : decodeLast offset group = .ok bytes) :
    group = encode bytes := by
  obtain ⟨values, hvalues, h⟩ := exists_of_bind_eq_ok h
  obtain ⟨hlt, pads, rfl⟩ := exists_of_lastValues hvalues
  rw [List.length_append, List.length_map, List.length_replicate] at hlength
  match values with
  | [] =>
    simp only at h
    split_ifs at h with hnil
    obtain rfl := Except.ok.inj h
    exact hnil
  | [_] => cases h
  | [v, w] =>
    simp only at h
    split_ifs at h with hpads hzero
    obtain rfl := Except.ok.inj h
    obtain rfl : pads = 2 := by simpa using hpads
    rw [encode_one (hlt v (by simp)) (hlt w (by simp)) (not_not.mp hzero)]
    rfl
  | [v, w, x] =>
    simp only at h
    split_ifs at h with hpads hzero
    obtain rfl := Except.ok.inj h
    obtain rfl : pads = 1 := by simpa using hpads
    rw [encode_two (hlt v (by simp)) (hlt w (by simp)) (hlt x (by simp)) (not_not.mp hzero)]
    rfl
  | v :: w :: x :: y :: others =>
    obtain rfl := Except.ok.inj h
    simp only [List.length_cons] at hlength
    obtain rfl : pads = 0 := by omega
    obtain rfl : others = [] := List.eq_nil_of_length_eq_zero (by omega)
    rw [encode_group (hlt v (by simp)) (hlt w (by simp)) (hlt x (by simp)) (hlt y (by simp))]
    rfl

lemma length_le_of_short (h : ∀ b₀ b₁ b₂ b₃ b₄ rest, group = b₀ :: b₁ :: b₂ :: b₃ :: b₄ :: rest → False) : group.length ≤ 4 := by
  by_contra hlong
  rcases group with _ | ⟨b₀, _ | ⟨b₁, _ | ⟨b₂, _ | ⟨b₃, _ | ⟨b₄, rest⟩⟩⟩⟩⟩
  iterate 5 simp at hlong
  exact h b₀ b₁ b₂ b₃ b₄ rest rfl

lemma exists_of_decodeFrom (h : decodeFrom decoded offset text = .ok bytes) :
    ∃ more, bytes = decoded.reverse ++ more ∧ text = encode more := by
  induction decoded, offset, text using decodeFrom.induct with
  | case1 decoded offset b₀ b₁ b₂ b₃ b₄ rest ih =>
    rw [decodeFrom] at h
    obtain ⟨v, hfirst, h⟩ := exists_of_bind_eq_ok h
    obtain ⟨w, hsecond, h⟩ := exists_of_bind_eq_ok h
    obtain ⟨x, hthird, h⟩ := exists_of_bind_eq_ok h
    obtain ⟨y, hfourth, hlast⟩ := exists_of_bind_eq_ok h
    obtain ⟨more, rfl, hrest⟩ := ih v w x y hlast
    obtain ⟨hv, rfl⟩ := eq_symbol_of_valueAt hfirst
    obtain ⟨hw, rfl⟩ := eq_symbol_of_valueAt hsecond
    obtain ⟨hx, rfl⟩ := eq_symbol_of_valueAt hthird
    obtain ⟨hy, rfl⟩ := eq_symbol_of_valueAt hfourth
    refine ⟨(v * 4 + w / 16).toUInt8 :: (w % 16 * 16 + x / 4).toUInt8 :: (x % 4 * 64 + y).toUInt8 :: more, ?_, ?_⟩
    · simp
    · rw [encode_group hv hw hx hy, hrest]
  | case2 decoded offset group hshort =>
    rw [decodeFrom.eq_2 _ _ _ hshort] at h
    obtain ⟨last, hlast, h⟩ := exists_of_bind_eq_ok h
    exact ⟨last, (Except.ok.inj h).symm, eq_encode_of_decodeLast (length_le_of_short hshort) hlast⟩

lemma decode_eq_ok_iff : decode text = .ok bytes ↔ text = encode bytes := by
  constructor
  · intro h
    unfold decode at h
    split at h
    · rename_i hnone
      obtain rfl := Except.ok.inj h
      exact List.getLast?_eq_none_iff.mp hnone
    · split_ifs at h
      obtain ⟨more, rfl, htext⟩ := exists_of_decodeFrom h
      exact htext
  · rintro rfl
    exact decode_encode bytes

lemma encode_injective : Function.Injective encode := by
  intro bytes bytes' h
  have hdecode := decode_encode bytes
  rw [h, decode_encode] at hdecode
  exact (Except.ok.inj hdecode).symm

/-- The values of symbols in groups of four, the last of which may lack one or two. Then the bits of the last value that
belong to no byte are zero. -/
structure FillsGroups (values : List Nat) (pads : Nat) : Prop where
  lt : ∀ v ∈ values, v < 64
  pads_le : pads ≤ 2
  length : (values.length + pads) % 4 = 0
  last : values.getLastD 0 % 4 ^ pads = 0

lemma exists_values (bytes : List UInt8) :
    ∃ values pads, FillsGroups values pads ∧ encode bytes = values.map symbol ++ List.replicate pads pad := by
  induction bytes using encode.induct with
  | case1 => exact ⟨[], 0, ⟨by simp, by omega, rfl, rfl⟩, rfl⟩
  | case2 a =>
    have ha := a.toNat_lt
    have hlast : a.toNat % 4 * 16 % 16 = 0 := by omega
    refine ⟨[a.toNat / 4, a.toNat % 4 * 16], 2, ⟨?_, by omega, by simp, hlast⟩, rfl⟩
    simp only [List.mem_cons, List.not_mem_nil, or_false]
    omega
  | case3 a b =>
    have ha := a.toNat_lt
    have hb := b.toNat_lt
    have hlast : b.toNat % 16 * 4 % 4 = 0 := by omega
    refine ⟨[a.toNat / 4, a.toNat % 4 * 16 + b.toNat / 16, b.toNat % 16 * 4], 1, ⟨?_, by omega, by simp, hlast⟩, rfl⟩
    simp only [List.mem_cons, List.not_mem_nil, or_false]
    omega
  | case4 a b c rest ih =>
    have ha := a.toNat_lt
    have hb := b.toNat_lt
    have hc := c.toNat_lt
    obtain ⟨values, pads, hfills, hrest⟩ := ih
    have hlength := hfills.length
    refine ⟨a.toNat / 4 :: (a.toNat % 4 * 16 + b.toNat / 16) :: (b.toNat % 16 * 4 + c.toNat / 64) :: c.toNat % 64 :: values,
      pads, ⟨?_, hfills.pads_le, ?_, ?_⟩, ?_⟩
    · simp only [List.mem_cons]
      rintro v (rfl | rfl | rfl | rfl | hv)
      iterate 4 omega
      exact hfills.lt v hv
    · simp only [List.length_cons]
      omega
    · cases values with
      | nil =>
        obtain rfl : pads = 0 := by
          have hpads := hfills.pads_le
          simp only [List.length_nil] at hlength
          omega
        exact Nat.mod_one _
      | cons v others => exact hfills.last
    · rw [encode, hrest]
      rfl

lemma FillsGroups.tail {pads : Nat} (h : FillsGroups (v :: w :: x :: y :: values) pads) : FillsGroups values pads := by
  have hlength := h.length
  simp only [List.length_cons] at hlength
  refine ⟨fun z hz => h.lt z (by simp [hz]), h.pads_le, by omega, ?_⟩
  cases values with
  | nil => exact Nat.zero_mod _
  | cons z others => exact h.last

lemma FillsGroups.exists_bytes {values : List Nat} {pads : Nat} (h : FillsGroups values pads) :
    ∃ bytes, encode bytes = values.map symbol ++ List.replicate pads pad := by
  have hpads := h.pads_le
  have hlength := h.length
  match values with
  | [] =>
    simp only [List.length_nil] at hlength
    obtain rfl : pads = 0 := by omega
    exact ⟨[], rfl⟩
  | [v] =>
    simp only [List.length_singleton] at hlength
    omega
  | [v, w] =>
    simp only [List.length_cons, List.length_nil] at hlength
    obtain rfl : pads = 2 := by omega
    exact ⟨_, encode_one (h.lt v (by simp)) (h.lt w (by simp)) h.last⟩
  | [v, w, x] =>
    simp only [List.length_cons, List.length_nil] at hlength
    obtain rfl : pads = 1 := by omega
    exact ⟨_, encode_two (h.lt v (by simp)) (h.lt w (by simp)) (h.lt x (by simp)) h.last⟩
  | v :: w :: x :: y :: others =>
    obtain ⟨bytes, hbytes⟩ := h.tail.exists_bytes
    have hgroup := encode_group (h.lt v (by simp)) (h.lt w (by simp)) (h.lt x (by simp)) (h.lt y (by simp)) bytes
    rw [hbytes] at hgroup
    exact ⟨_, hgroup⟩

/-- The letters of the values, and as many pads as their last group lacks. -/
def IsCanonical (text : List Char) : Prop :=
  ∃ values pads, FillsGroups values pads ∧ text = values.map (alphabet.getD · 'A') ++ List.replicate pads '='

lemma map_ofNat_symbols (h : ∀ v ∈ values, v < 64) (pads : Nat) :
    (values.map symbol ++ List.replicate pads pad).map (fun b => Char.ofNat b.toNat) =
      values.map (alphabet.getD · 'A') ++ List.replicate pads '=' := by
  have hletter : ∀ v < 64, Char.ofNat (symbol v).toNat = alphabet.getD v 'A' := by decide +kernel
  have hpad : Char.ofNat pad.toNat = '=' := by decide
  rw [List.map_append, List.map_map, List.map_replicate, hpad]
  exact congrArg (· ++ _) (List.map_congr_left fun v hv => hletter v (h v hv))

lemma exists_text_iff {text : List Char} :
    (∃ bytes, text = (encode bytes).map fun b => Char.ofNat b.toNat) ↔ IsCanonical text := by
  constructor
  · rintro ⟨bytes, rfl⟩
    obtain ⟨values, pads, hfills, hencode⟩ := exists_values bytes
    exact ⟨values, pads, hfills, by rw [hencode, map_ofNat_symbols hfills.lt]⟩
  · rintro ⟨values, pads, hfills, rfl⟩
    obtain ⟨bytes, hbytes⟩ := hfills.exists_bytes
    exact ⟨bytes, by rw [hbytes, map_ofNat_symbols hfills.lt]⟩

end CodeOutline.Base64
