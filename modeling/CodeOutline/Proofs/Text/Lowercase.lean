import CodeOutline.Text.Lowercase
import Mathlib.Data.List.Basic

/-! The lower case of a text is the same for all spellings that differ in the case of basic letters. -/

namespace CodeOutline.Text

/-- The 26 capitals are the only characters to look at. -/
lemma apply_toLower {α : Type} {f : Char → α}
    (hf : ∀ i < 26, f (Char.ofNat (65 + i)).toLower = f (Char.ofNat (65 + i))) (c : Char) : f c.toLower = f c := by
  by_cases h : c.val ≥ 'A'.val ∧ c.val ≤ 'Z'.val
  · have hfirst : 65 ≤ c.toNat := UInt32.le_iff_toNat_le.mp h.1
    have hlast : c.toNat ≤ 90 := UInt32.le_iff_toNat_le.mp h.2
    have hc : Char.ofNat (65 + (c.toNat - 65)) = c := by rw [Nat.add_sub_cancel' hfirst, Char.ofNat_toNat]
    have hletter := hf (c.toNat - 65) (by omega)
    rwa [hc] at hletter
  · exact congrArg f (dif_neg h)

lemma isCased_toLower (c : Char) : isCased c.toLower = isCased c := apply_toLower (by decide +kernel) c

lemma isCaseIgnorable_toLower (c : Char) : isCaseIgnorable c.toLower = isCaseIgnorable c :=
  apply_toLower (by decide +kernel) c

lemma lowerChar_toLower (c : Char) : lowerChar c.toLower = lowerChar c := apply_toLower (by decide +kernel) c

lemma nextIsCased_map_toLower (cs : List Char) : nextIsCased (cs.map Char.toLower) = nextIsCased cs := by
  have hignorable : isCaseIgnorable ∘ Char.toLower = isCaseIgnorable := funext isCaseIgnorable_toLower
  rw [nextIsCased, nextIsCased, List.dropWhile_map, hignorable]
  cases cs.dropWhile isCaseIgnorable with
  | nil => rfl
  | cons c rest => exact isCased_toLower c

lemma lowerFrom_map_toLower (before cs : List Char) :
    lowerFrom (before.map Char.toLower) (cs.map Char.toLower) = lowerFrom before cs := by
  -- the characters before are in either case too: a sigma looks back on them
  induction cs generalizing before with
  | nil => rfl
  | cons c rest ih =>
    have hsigma : c.toLower = '\u03A3' ↔ c = '\u03A3' :=
      decide_eq_decide.mp (apply_toLower (f := fun c => decide (c = '\u03A3')) (by decide +kernel) c)
    have hdotted : c.toLower = '\u0130' ↔ c = '\u0130' :=
      decide_eq_decide.mp (apply_toLower (f := fun c => decide (c = '\u0130')) (by decide +kernel) c)
    have hrest := ih (c :: before)
    rw [List.map_cons] at hrest
    simp only [List.map_cons, lowerFrom, nextIsCased_map_toLower, lowerChar_toLower, hsigma, hdotted, hrest]

lemma toList_toLower (s : String) : s.toLower.toList = s.toList.map Char.toLower := String.toList_map

lemma toLower_eq_of_map_eq {s t : String} (h : s.toList.map Char.toLower = t.toList.map Char.toLower) :
    s.toLower = t.toLower := by
  apply String.toList_inj.mp
  rw [toList_toLower, toList_toLower, h]

lemma lower_toLower (s : String) : lower s.toLower = lower s := by
  rw [lower, lower, toList_toLower]
  exact congrArg String.ofList (lowerFrom_map_toLower [] s.toList)

lemma lower_eq_of_toLower_eq {s t : String} (h : s.toLower = t.toLower) : lower s = lower t := by
  rw [← lower_toLower s, h, lower_toLower]

end CodeOutline.Text
