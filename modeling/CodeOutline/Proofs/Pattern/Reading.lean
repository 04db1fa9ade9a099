import CodeOutline.Pattern.Basic
import Mathlib.Data.String.Basic

/-! Reading on from a place of a text: the characters passed over and the place reached. -/

namespace CodeOutline.Cursor

/-- The text after `c` begins with `mid`, and `d` is the place behind it. -/
inductive Reads : Cursor → List Char → Cursor → Prop
  | refl {c} : Reads c [] c
  | step {c x later mid d} : c.next? = some (x, later) → Reads later mid d → Reads c (x :: mid) d

lemma next?_eq_some_iff (c d : Cursor) (x : Char) :
    c.next? = some (x, d) ↔
      c.rest = x :: d.rest ∧ d.index = c.index + 1 ∧ d.position = c.position + x.utf8Size ∧ d.before = x := by
  rcases c with ⟨index, position, before, rest⟩
  rcases d with ⟨_, _, _, _⟩
  cases rest with
  | nil => simp [next?]
  | cons y rest =>
    simp only [next?, Option.some.injEq, Prod.mk.injEq, mk.injEq, List.cons.injEq]
    constructor
    · rintro ⟨rfl, rfl, rfl, rfl, rfl⟩
      exact ⟨⟨rfl, rfl⟩, rfl, rfl, rfl⟩
    · rintro ⟨⟨rfl, rfl⟩, rfl, rfl, rfl⟩
      exact ⟨rfl, rfl, rfl, rfl, rfl⟩

lemma next?_eq_none_iff (c : Cursor) : c.next? = none ↔ c.rest = [] := by
  rcases c with ⟨_, _, _, rest⟩
  cases rest <;> simp [next?]

lemma exists_next (c : Cursor) (x : Char) (rest : List Char) (h : c.rest = x :: rest) :
    ∃ d, c.next? = some (x, d) ∧ d.rest = rest :=
  ⟨⟨c.index + 1, c.position + x.utf8Size, x, rest⟩, by simp [next?, h], rfl⟩

namespace Reads

variable {c d e : Cursor} {mid more : List Char}

lemma trans (h : c.Reads mid d) (h' : d.Reads more e) : c.Reads (mid ++ more) e := by
  induction h with
  | refl => exact h'
  | step hn _ ih => exact .step hn (ih h')

lemma split (h : c.Reads (mid ++ more) e) : ∃ d, c.Reads mid d ∧ d.Reads more e := by
  induction mid generalizing c with
  | nil => exact ⟨c, .refl, h⟩
  | cons x mid ih =>
    cases h with
    | step hn h =>
      obtain ⟨d, hd, he⟩ := ih h
      exact ⟨d, .step hn hd, he⟩

lemma split_head {x : Char} (h : c.Reads (x :: more) e) : ∃ d, c.Reads [x] d ∧ d.Reads more e :=
  split (List.singleton_append ▸ h)

lemma rest_eq (h : c.Reads mid d) : c.rest = mid ++ d.rest := by
  induction h with
  | refl => rfl
  | step hn _ ih => rw [((next?_eq_some_iff _ _ _).mp hn).1, ih, List.cons_append]

lemma index_eq (h : c.Reads mid d) : d.index = c.index + mid.length := by
  induction h with
  | refl => rfl
  | step hn _ ih =>
    rw [ih, ((next?_eq_some_iff _ _ _).mp hn).2.1, List.length_cons]
    omega

lemma position_eq (h : c.Reads mid d) : d.position = c.position + String.utf8Len mid := by
  induction h with
  | refl => rfl
  | step hn _ ih =>
    rw [ih, ((next?_eq_some_iff _ _ _).mp hn).2.2.1, String.utf8Len_cons]
    omega

lemma before_eq (h : c.Reads mid d) : d.before = mid.getLastD c.before := by
  induction h with
  | refl => rfl
  | step hn _ ih => rw [ih, ((next?_eq_some_iff _ _ _).mp hn).2.2.2, List.getLastD_cons]

lemma textTo_eq (h : c.Reads mid d) : c.textTo d = mid := by
  simp only [textTo, h.rest_eq, h.index_eq]
  simp

lemma mid_unique (h : c.Reads mid d) (h' : c.Reads more d) : mid = more := by
  rw [← h.textTo_eq, h'.textTo_eq]

lemma unique (h : c.Reads mid d) (h' : c.Reads mid e) : d = e := by
  induction h with
  | refl =>
    cases h'
    rfl
  | step hn _ ih =>
    cases h' with
    | step hn' h' =>
      obtain ⟨_, rfl⟩ := Prod.mk.inj (Option.some.inj (hn.symm.trans hn'))
      exact ih h'

end Reads

lemma reads_singleton (c d : Cursor) (x : Char) : c.Reads [x] d ↔ c.next? = some (x, d) := by
  constructor
  · intro h
    cases h with
    | step hn h =>
      cases h
      exact hn
  · exact fun hn => .step hn .refl

lemma exists_reads (c : Cursor) (mid rest : List Char) (h : c.rest = mid ++ rest) :
    ∃ d, c.Reads mid d ∧ d.rest = rest := by
  induction mid generalizing c with
  | nil => exact ⟨c, .refl, h⟩
  | cons x mid ih =>
    obtain ⟨later, hn, hl⟩ := c.exists_next x (mid ++ rest) h
    obtain ⟨d, hd, hr⟩ := ih later hl
    exact ⟨d, .step hn hd, hr⟩

lemma skip?_eq_some_iff (c d : Cursor) (text : List Char) : c.skip? text = some d ↔ c.Reads text d := by
  induction text generalizing c with
  | nil =>
    simp only [skip?, Option.some.injEq]
    constructor
    · rintro rfl
      exact .refl
    · intro h
      cases h
      rfl
  | cons x text ih =>
    constructor
    · intro h
      unfold skip? at h
      split at h
      · next y later hn =>
        split at h
        · next hx =>
          subst hx
          exact .step hn ((ih later).mp h)
        · cases h
      · cases h
    · intro h
      cases h with
      | step hn hr => simp [skip?, hn, (ih _).mpr hr]

lemma pass_rest (c : Cursor) (set : Char → Bool) : (c.pass set).rest = c.rest.dropWhile set := by
  rcases c with ⟨index, position, before, rest⟩
  simp only [pass]
  induction rest generalizing index position before with
  | nil => rfl
  | cons x rest ih => by_cases hx : set x <;> simp [passFrom, hx, ih]

lemma reads_pass (c : Cursor) (set : Char → Bool) : c.Reads (c.rest.takeWhile set) (c.pass set) := by
  rcases c with ⟨index, position, before, rest⟩
  simp only [pass]
  induction rest generalizing index position before with
  | nil => exact .refl
  | cons x rest ih =>
    by_cases hx : set x
    · simp only [passFrom, hx, if_true, List.takeWhile_cons]
      exact .step (by simp [next?]) (ih _ _ _)
    · simp only [passFrom, hx, Bool.false_eq_true, if_false, List.takeWhile_cons]
      exact .refl

lemma head?_pass (c : Cursor) (set : Char → Bool) : (c.pass set).rest.head?.any set = false := by
  rw [pass_rest]
  induction c.rest with
  | nil => rfl
  | cons x rest ih => by_cases hx : set x <;> simp [hx, ih]

lemma pass_eq {c d : Cursor} {mid : List Char} {set : Char → Bool} (h : c.Reads mid d)
    (hm : ∀ x ∈ mid, set x = true) (hd : d.rest.head?.any set = false) : c.pass set = d := by
  have ht : d.rest.takeWhile set = [] := by
    cases hr : d.rest with
    | nil => rfl
    | cons x rest =>
      rw [hr] at hd
      exact List.takeWhile_cons_of_neg (Bool.eq_false_iff.mp hd)
  have hp := c.reads_pass set
  rw [h.rest_eq, List.takeWhile_append_of_pos hm, ht, List.append_nil] at hp
  exact hp.unique h

lemma pass_of_next {c d : Cursor} {x : Char} {set : Char → Bool} (hn : c.next? = some (x, d)) (hx : set x = true) :
    c.pass set = d.pass set := by
  refine pass_eq (.step hn (d.reads_pass set)) (fun y hy => ?_) (d.head?_pass set)
  rcases List.mem_cons.mp hy with rfl | hy
  · exact hx
  · exact List.all_eq_true.mp List.all_takeWhile y hy

end CodeOutline.Cursor
