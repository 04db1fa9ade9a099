import CodeOutline.Json.Reader
import CodeOutline.Json.Record
import CodeOutline.Proofs.Json.Lexing

/-! Printed JSON is read back as what was printed. -/

namespace CodeOutline.Json

open Text

/-- The tokens of a value put it into the innermost open container. -/
def Parsed (j : Json) : Prop := ∀ (frames : List Frame) (rest : List Token),
  valueFrom .value frames (tokensOf j ++ rest) = valueFrom (close j frames).1 (close j frames).2 rest

variable {frames opened : List Frame} {phase next : Phase} {rest : List Token} {token : Token} {j : Json}

lemma valueFrom_of_readToken (h : readToken phase frames token = some (next, opened)) :
    valueFrom phase frames (token :: rest) = valueFrom next opened rest := by
  rw [valueFrom, h]

lemma tokensOf_eq_cons (j : Json) : ∃ first rest, tokensOf j = first :: rest ∧ first ≠ .closeBracket := by
  match j with
  | null => exact ⟨_, _, rfl, Token.noConfusion⟩
  | bool _ => exact ⟨_, _, rfl, Token.noConfusion⟩
  | number _ => exact ⟨_, _, rfl, Token.noConfusion⟩
  | string _ => exact ⟨_, _, rfl, Token.noConfusion⟩
  | array [] => exact ⟨_, _, rfl, Token.noConfusion⟩
  | array (_ :: _) => exact ⟨_, _, rfl, Token.noConfusion⟩
  | object [] => exact ⟨_, _, rfl, Token.noConfusion⟩
  | object ((_, _) :: _) => exact ⟨_, _, rfl, Token.noConfusion⟩

/-- The first item of an array is read like any other value. -/
lemma valueFrom_firstItem (j : Json) :
    valueFrom .firstItem frames (tokensOf j ++ rest) = valueFrom .value frames (tokensOf j ++ rest) := by
  obtain ⟨first, more, hj, hfirst⟩ := tokensOf_eq_cons j
  have hread : readToken .firstItem frames first = readToken .value frames first := by
    cases first <;> first | rfl | exact absurd rfl hfirst
  rw [hj, List.cons_append, valueFrom, valueFrom, hread]

lemma valueFrom_items {items : List Json} (h : ∀ item ∈ items, Parsed item) (passed : List Json) :
    valueFrom .afterMember (.array passed :: frames) (tokensOfItems items ++ .closeBracket :: rest) =
      valueFrom (close (array (passed.reverse ++ items)) frames).1 (close (array (passed.reverse ++ items)) frames).2
        rest := by
  induction items generalizing passed with
  | nil =>
    rw [List.append_nil]
    rfl
  | cons item items ih =>
    have hitem := h item List.mem_cons_self (.array passed :: frames) (tokensOfItems items ++ .closeBracket :: rest)
    have hitems := ih (fun other hother => h other (List.mem_cons_of_mem item hother)) (item :: passed)
    have hcomma : readToken .afterMember (.array passed :: frames) .comma = some (.value, .array passed :: frames) := rfl
    rw [List.reverse_cons, List.append_assoc, List.singleton_append] at hitems
    rw [tokensOfItems, List.cons_append, List.append_assoc, valueFrom_of_readToken hcomma, hitem, ← hitems]
    rfl

lemma parsed_array {items : List Json} (h : ∀ item ∈ items, Parsed item) : Parsed (array items) := by
  intro frames rest
  cases items with
  | nil => rfl
  | cons item items =>
    have hitems : ∀ other ∈ items, Parsed other := fun other hother => h other (List.mem_cons_of_mem item hother)
    have hopen : readToken .value frames .openBracket = some (.firstItem, .array [] :: frames) := rfl
    rw [tokensOf, List.cons_append, valueFrom_of_readToken hopen, List.append_assoc, valueFrom_firstItem,
      h item List.mem_cons_self, List.append_assoc, List.singleton_append]
    exact valueFrom_items hitems [item]

lemma valueFrom_entries {entries : List (Option String × Json)} (h : ∀ entry ∈ entries, Parsed entry.2)
    (passed : List (Option String × Json)) (key : Option String) :
    valueFrom .afterMember (.object passed key :: frames) (tokensOfEntries entries ++ .closeBrace :: rest) =
      valueFrom (close (object (passed.reverse ++ entries)) frames).1
        (close (object (passed.reverse ++ entries)) frames).2 rest := by
  induction entries generalizing passed key with
  | nil =>
    rw [List.append_nil]
    rfl
  | cons entry entries ih =>
    obtain ⟨name, value⟩ := entry
    have hvalue := h (name, value) List.mem_cons_self (.object passed name :: frames)
      (tokensOfEntries entries ++ .closeBrace :: rest)
    have hentries := ih (fun other hother => h other (List.mem_cons_of_mem _ hother)) ((name, value) :: passed) name
    rw [List.reverse_cons, List.append_assoc, List.singleton_append] at hentries
    rw [← hentries]
    simp only [tokensOfEntries, List.cons_append, List.append_assoc]
    exact hvalue

lemma parsed_object {entries : List (Option String × Json)} (h : ∀ entry ∈ entries, Parsed entry.2) :
    Parsed (object entries) := by
  intro frames rest
  match entries with
  | [] => rfl
  | (key, value) :: entries =>
    have hentries : ∀ other ∈ entries, Parsed other.2 := fun other hother => h other (List.mem_cons_of_mem _ hother)
    have hvalue := h (key, value) List.mem_cons_self (.object [] key :: frames)
      (tokensOfEntries entries ++ .closeBrace :: rest)
    simp only [tokensOf, List.cons_append, List.append_assoc, List.nil_append]
    exact hvalue.trans (valueFrom_entries hentries [(key, value)] key)

lemma Plain.parsed (h : Plain j) : Parsed j := by
  induction h with
  | null | bool | number | string => exact fun _ _ => rfl
  | array _ ih => exact parsed_array ih
  | record _ ih =>
    apply parsed_object
    rintro _ hentry
    obtain ⟨entry, hmem, rfl⟩ := List.mem_map.mp hentry
    exact ih entry hmem

lemma ofString?_pretty (h : Plain j) : ofString? j.pretty = some j := by
  have hparsed := h.parsed [] []
  rw [List.append_nil] at hparsed
  rw [ofString?, read?, tokens?_pretty h]
  exact hparsed

end CodeOutline.Json
