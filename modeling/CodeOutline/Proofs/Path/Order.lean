import CodeOutline.Path
import Mathlib.Data.List.Lex
import Mathlib.Data.Prod.Lex
import Mathlib.Data.String.Basic

/-! The order of paths: by the first component in which they differ, a path before those that go on from it. -/

namespace CodeOutline.Path

namespace Component

variable {a b : Component}

/-- Components go by their kind first, names by their characters behind that. -/
def key (c : Component) : ℕ ×ₗ String := toLex (c.rank, c.text)

lemma less_iff_key : a.less b = true ↔ a.key < b.key := by
  rw [key, key, Prod.Lex.toLex_lt_toLex]
  cases a with
  | normal x =>
    cases b with
    | normal y => exact decide_eq_true_iff.trans (by simp [rank, text])
    | _ => simp [less, rank]
  | _ => cases b <;> simp [less, rank, text]

lemma key_injective : Function.Injective key := by
  intro a b h
  obtain ⟨hrank, htext⟩ := Prod.mk.inj (toLex_inj.mp h)
  cases a <;> cases b <;> first | rfl | exact congrArg normal htext | cases hrank

abbrev Less (a b : Component) : Prop := a.less b = true

instance : IsStrictTotalOrder Component Less where
  trichotomous a b hab hba := by
    rw [Less, less_iff_key, not_lt] at hab hba
    exact key_injective (le_antisymm hba hab)
  irrefl a h := lt_irrefl _ (less_iff_key.mp h)
  trans a b c hab hbc := less_iff_key.mpr ((less_iff_key.mp hab).trans (less_iff_key.mp hbc))

end Component

variable {a b c : String}

lemma lessComponents_iff (as bs : List Component) : lessComponents as bs = true ↔ List.Lex Component.Less as bs := by
  induction as generalizing bs with
  | nil =>
    cases bs with
    | nil => simp [lessComponents]
    | cons b bs => exact iff_of_true rfl .nil
  | cons a as ih =>
    cases bs with
    | nil => simp [lessComponents]
    | cons b bs =>
      rw [lessComponents, Bool.or_eq_true, Bool.and_eq_true, beq_iff_eq, ih]
      constructor
      · rintro (h | ⟨rfl, h⟩)
        · exact .rel h
        · exact .cons h
      · intro h
        cases h with
        | rel h => exact Or.inl h
        | cons h => exact Or.inr ⟨rfl, h⟩

lemma less_iff : less a b = true ↔ List.Lex Component.Less (components a) (components b) := lessComponents_iff _ _

lemma less_asymm (h : less a b = true) : less b a = false := by
  rw [less_iff] at h
  rw [Bool.eq_false_iff, Ne, less_iff]
  exact asymm_of _ h

lemma components_eq_of_not_less (hab : less a b = false) (hba : less b a = false) : components a = components b := by
  rw [Bool.eq_false_iff, Ne, less_iff] at hab hba
  exact Std.Trichotomous.trichotomous _ _ hab hba

lemma not_less_trans (hba : less b a = false) (hcb : less c b = false) : less c a = false := by
  rw [Bool.eq_false_iff, Ne, less_iff] at hba hcb ⊢
  exact fun hca => (IsOrderConnected.conn _ (components b) _ hca).elim hcb hba

lemma nodup_of_increasing {paths : List String} (h : paths.Pairwise fun a b => less a b = true) : paths.Nodup := by
  refine h.imp fun {a b} hab heq => ?_
  subst heq
  exact Bool.false_ne_true ((less_asymm hab).symm.trans hab)

lemma eq_of_increasing {paths other : List String} (h : paths.Pairwise fun a b => less a b = true)
    (h' : other.Pairwise fun a b => less a b = true) (hmem : ∀ path, path ∈ paths ↔ path ∈ other) : paths = other := by
  have hperm := (List.perm_ext_iff_of_nodup (nodup_of_increasing h) (nodup_of_increasing h')).mpr hmem
  refine hperm.eq_of_pairwise (fun a b _ _ hab hba => ?_) h h'
  exact absurd hba (by simp [less_asymm hab])

end CodeOutline.Path
