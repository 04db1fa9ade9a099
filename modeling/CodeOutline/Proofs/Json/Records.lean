import CodeOutline.Json.Record
import CodeOutline.Proofs.Text.Numeral

/-! The JSON values that are read as a record, and as each kind of field. -/

namespace CodeOutline.Json

variable {α : Type} {keys : List String} {key : String} {entries : List (Option String × Json)}
  {values : List (Option Json)} {value : Option Json} {j : Json}

/-- The object's keys are texts, and `key` stands in it once with this value, or not at all. -/
structure Holds (entries : List (Option String × Json)) (key : String) (value : Option Json) : Prop where
  keys : ∀ e ∈ entries, e.1.isSome
  values : (entries.filter (·.1 == some key)).map (·.2) = value.toList

/-- The record's fields have these values; fields that the value leaves out have none. -/
inductive IsRecord (keys : List String) : Json → List (Option Json) → Prop
  | object {entries : List (Option String × Json)} {values : List (Option Json)}
      (fields : List.Forall₂ (Holds entries) keys values) : IsRecord keys (object entries) values
  | array {items : List Json} {missing : Nat} (length : items.length + missing = keys.length) :
      IsRecord keys (array items) (items.map some ++ List.replicate missing none)

/-- Digits alone, for a number below the limit. -/
def IsNat (limit : Nat) (j : Json) (n : Nat) : Prop :=
  ∃ numeral, j = number numeral ∧ numeral.toList ≠ [] ∧ (∀ c ∈ numeral.toList, c.isDigit = true) ∧
    Nat.ofDigitChars 10 numeral.toList 0 = n ∧ n < limit

inductive IsOptional (Reads : Json → α → Prop) : Option Json → Option α → Prop
  | absent : IsOptional Reads none none
  | null : IsOptional Reads (some null) none
  | given {j : Json} {a : α} (reads : Reads j a) : IsOptional Reads (some j) (some a)

lemma holds_of_others {before after : List (Option String × Json)}
    (h : ∀ e ∈ before ++ after, ∃ other, e.1 = some other ∧ other ≠ key) :
    Holds (before ++ (some key, j) :: after) key (some j) := by
  have hothers : ∀ e ∈ before ++ after, e.1.isSome ∧ ¬(e.1 == some key) = true := by
    intro e he
    obtain ⟨other, hother, hne⟩ := h e he
    simp [hother, hne]
  obtain ⟨hbefore, hafter⟩ := List.forall_mem_append.mp hothers
  have hnone : ∀ es : List (Option String × Json), (∀ e ∈ es, e.1.isSome ∧ ¬(e.1 == some key) = true) →
      es.filter (·.1 == some key) = [] := fun es hes => List.filter_eq_nil_iff.mpr fun e he => (hes e he).2
  constructor
  · simp only [List.mem_append, List.mem_cons]
    rintro e (he | rfl | he)
    · exact (hbefore e he).1
    · rfl
    · exact (hafter e he).1
  · simp [List.filter_append, hnone before hbefore, hnone after hafter]

lemma entry?_eq_some_iff : entry? key entries = some value ↔ Holds entries key value := by
  have hkeys : entries.any (·.1.isNone) = false ↔ ∀ e ∈ entries, e.1.isSome := by
    rw [List.any_eq_false]
    simp [Option.isSome_iff_ne_none]
  unfold entry? valuesAt?
  by_cases hany : entries.any (·.1.isNone)
  · rw [if_pos hany]
    refine ⟨fun h => (by cases h), fun h => ?_⟩
    rw [hkeys.mpr h.keys] at hany
    cases hany
  · rw [if_neg hany, Option.bind_eq_bind, Option.bind_some]
    have htexts := hkeys.mp (Bool.eq_false_iff.mpr hany)
    constructor
    · intro h
      refine ⟨htexts, ?_⟩
      split at h
      · rename_i hnone
        obtain rfl := Option.some.inj h
        exact hnone
      · rename_i hone
        obtain rfl := Option.some.inj h
        exact hone
      · cases h
    · rintro ⟨-, hvalues⟩
      rw [hvalues]
      cases value <;> rfl

lemma fields?_eq_some_iff : fields? keys j = some values ↔ IsRecord keys j values := by
  constructor
  · intro h
    unfold fields? at h
    split at h
    · refine .object ?_
      simpa only [entry?_eq_some_iff] using mapM_eq_some_iff.mp h
    · split_ifs at h with hlength
      obtain rfl := Option.some.inj h
      exact .array (by omega)
    · cases h
  · rintro (⟨hfields⟩ | ⟨hlength⟩)
    · refine mapM_eq_some_iff.mpr ?_
      simpa only [entry?_eq_some_iff] using hfields
    · rw [fields?, if_pos (by omega), ← hlength, Nat.add_sub_cancel_left]

lemma text?_eq_some_iff {s : String} : text? j = some s ↔ j = ofText s := by
  cases j <;> simp [text?, ofText]

lemma nat?_eq_some_iff {limit n : Nat} : nat? limit j = some n ↔ IsNat limit j n := by
  cases j <;> simp [nat?, IsNat, Option.filter_eq_some_iff, Text.numeral?_eq_some_iff, and_assoc]

lemma list?_eq_some_iff {read : Json → Option α} {as : List α} : list? read j = some as ↔
    ∃ items, j = array items ∧ List.Forall₂ (fun item a => read item = some a) items as := by
  rw [← exists_congr fun items => and_congr_right fun _ => mapM_eq_some_iff]
  cases j <;> simp [list?, items?]

lemma optional?_eq_some_iff {read : Json → Option α} {Reads : Json → α → Prop} {a? : Option α}
    (hread : ∀ j a, read j = some a ↔ Reads j a) (hnull : read null = none) :
    optional? read value = some a? ↔ IsOptional Reads value a? := by
  constructor
  · intro h
    unfold optional? at h
    split at h
    · obtain rfl := Option.some.inj h
      exact .absent
    · obtain rfl := Option.some.inj h
      exact .null
    · obtain ⟨a, ha, rfl⟩ := Option.map_eq_some_iff.mp h
      exact .given ((hread _ _).mp ha)
  · rintro (_ | _ | hreads)
    · rfl
    · rfl
    · rename_i j a
      have ha := (hread j a).mpr hreads
      unfold optional?
      split
      · rename_i heq
        cases heq
      · rename_i heq
        obtain rfl := Option.some.inj heq
        rw [hnull] at ha
        cases ha
      · rename_i heq
        obtain rfl := Option.some.inj heq
        rw [ha, Option.map_some]

end CodeOutline.Json
