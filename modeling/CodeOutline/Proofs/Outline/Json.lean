import CodeOutline.Outline.Json
import CodeOutline.Proofs.Json.RoundTrip

/-! Outlines written as JSON are read back as they were. -/

namespace CodeOutline

namespace Json

lemma mapM_map_eq_some {α : Type} {write : α → Json} {read : Json → Option α} (h : ∀ a, read (write a) = some a)
    (values : List α) : (values.map write).mapM read = some values := by
  rw [mapM_eq_some_iff, List.forall₂_map_left_iff, List.forall₂_same]
  exact fun a _ => h a

lemma list?_array {α : Type} {write : α → Json} {read : Json → Option α} (h : ∀ a, read (write a) = some a)
    (values : List α) : list? read (array (values.map write)) = some values :=
  mapM_map_eq_some h values

/-- What is read back from an array of values that are written one by one. -/
lemma bind_ofString?_prettyArray {α : Type} {write : α → Json} {read : Json → Option α} (hplain : ∀ a, (write a).Plain)
    (hread : ∀ a, read (write a) = some a) (values : List α) :
    (ofString? (array (values.map write)).pretty).bind (list? read) = some values := by
  have harray : (array (values.map write)).Plain := by
    apply Plain.array
    rintro _ hitem
    obtain ⟨a, _, rfl⟩ := List.mem_map.mp hitem
    exact hplain a
  rw [ofString?_pretty harray, Option.bind_some, list?_array hread]

lemma nat?_ofNat {n limit : Nat} (h : n < limit) : nat? limit (ofNat n) = some n := by
  rw [ofNat, nat?, Text.numeral?_toString, Option.filter_some, if_pos (decide_eq_true h)]

end Json

namespace Element

lemma plain_toJson (e : Element) : e.toJson.Plain := by
  apply Json.Plain.record
  simp only [List.mem_cons, List.not_mem_nil, or_false, forall_eq_or_imp, forall_eq]
  exact ⟨.string _, .string _, .number _⟩

lemma ofJson?_toJson (e : Element) : ofJson? e.toJson = some e := by
  have hfields : e.toJson.fields? ["type", "name", "line"] =
      some [some (.ofText e.kind.label), some (.ofText e.name), some (.ofNat e.line.toNat)] := rfl
  have hkind : (Json.ofText e.kind.label).name? = some e.kind.label := rfl
  have hname : (Json.ofText e.name).text? = some e.name := rfl
  have hline : (Json.ofNat e.line.toNat).nat? UInt32.size = some e.line.toNat := Json.nat?_ofNat e.line.toNat_lt
  have hback : e.line.toNat.toUInt32 = e.line := UInt32.ofNat_toNat
  rw [ofJson?, hfields]
  simp only [Option.bind_eq_bind, Option.bind_some, hkind, Kind.ofLabel?_label, hname, hline, hback]
  rfl

/-- The elements that a text of JSON holds. -/
def listOfString? (text : String) : Option (List Element) := (Json.ofString? text).bind (Json.list? ofJson?)

lemma listOfString?_prettyList (elements : List Element) : listOfString? (prettyList elements) = some elements :=
  Json.bind_ofString?_prettyArray plain_toJson ofJson?_toJson elements

end Element

namespace Outline

lemma plain_toJson (o : Outline) : o.toJson.Plain := by
  have helements : (Json.array (o.elements.map Element.toJson)).Plain := by
    apply Json.Plain.array
    rintro _ hitem
    obtain ⟨e, _, rfl⟩ := List.mem_map.mp hitem
    exact e.plain_toJson
  apply Json.Plain.record
  simp only [List.mem_cons, List.not_mem_nil, or_false, forall_eq_or_imp, forall_eq]
  exact ⟨.string _, helements⟩

lemma ofJson?_toJson (o : Outline) : ofJson? o.toJson = some o := by
  have hfields : o.toJson.fields? ["file_path", "elements"] =
      some [some (.ofText o.path), some (.array (o.elements.map Element.toJson))] := rfl
  have hpath : (Json.ofText o.path).text? = some o.path := rfl
  rw [ofJson?, hfields]
  simp only [Option.bind_eq_bind, Option.bind_some, hpath, Json.list?_array Element.ofJson?_toJson]
  rfl

/-- The outlines that a text of JSON holds. -/
def listOfString? (text : String) : Option (List Outline) := (Json.ofString? text).bind (Json.list? ofJson?)

lemma listOfString?_prettyList (outlines : List Outline) : listOfString? (prettyList outlines) = some outlines :=
  Json.bind_ofString?_prettyArray plain_toJson ofJson?_toJson outlines

/-- The outline that a text of JSON holds. -/
def ofString? (text : String) : Option Outline := (Json.ofString? text).bind ofJson?

lemma ofString?_pretty (o : Outline) : ofString? o.pretty = some o := by
  rw [ofString?, pretty, Json.ofString?_pretty o.plain_toJson, Option.bind_some, ofJson?_toJson]

end Outline

end CodeOutline
