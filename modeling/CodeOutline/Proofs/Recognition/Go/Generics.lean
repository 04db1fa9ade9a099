import CodeOutline.Proofs.Recognition.Go.Functions

/-! Functions with type parameters. The list of these is passed up to its first closing bracket, so a list with brackets
inside of it hides the function. -/

namespace CodeOutline

namespace Recognition.Go

open Pattern Text

inductive Balanced : List Char → Prop
  | nil : Balanced []
  | plain {x more} : x ≠ '[' → x ≠ ']' → Balanced more → Balanced (x :: more)
  | nested {inner more} : Balanced inner → Balanced more → Balanced ('[' :: inner ++ ']' :: more)

def generic (name parameters rest : String) : String := "func " ++ name ++ "[" ++ parameters ++ "](" ++ rest

/-- The first closing bracket in the list, if there is one, has a parenthesis behind it. -/
def Passes (parameters : List Char) : Prop :=
  ∀ inner more, parameters = inner ++ ']' :: more → ']' ∉ inner → more.head? = some '('

variable {name parameters rest : String} {letters list more head own : List Char} {content : String} {e : Element}

lemma passes_iff : Passes list ↔
    ∃ inner other, ']' ∉ inner ∧ list ++ ']' :: '(' :: more = inner ++ ']' :: '(' :: other := by
  constructor
  · intro h
    by_cases hmem : ']' ∈ list
    · obtain ⟨inner, behind, rfl, hinner⟩ := List.eq_append_cons_of_mem hmem
      obtain ⟨other, rfl⟩ := List.head?_eq_some_iff.mp (h inner behind rfl hinner)
      exact ⟨inner, other ++ ']' :: '(' :: more, hinner, by rw [List.append_assoc]; rfl⟩
    · exact ⟨list, more, hmem, rfl⟩
  · rintro ⟨inner, other, hinner, heq⟩ inner' behind rfl hinner'
    rw [List.append_assoc] at heq
    obtain ⟨rfl, hbehind⟩ := eq_of_append_mark_eq hinner' hinner heq
    cases behind with
    | nil => exact absurd (List.cons.inj hbehind).1 (by decide)
    | cons x behind => exact congrArg some (List.cons.inj hbehind).1

lemma generic_toList (name parameters rest : String) : (generic name parameters rest).toList =
    "func".toList ++ (' ' :: (name.toList ++ '[' :: (parameters.toList ++ ']' :: '(' :: rest.toList))) := by
  simp [generic]

lemma passes_of_head (hname : IsRun isAsciiWord name.toList) (hhead : IsFunctionHead head own)
    (hbegins : head <+: (generic name parameters rest).toList) : Passes parameters.toList := by
  obtain ⟨gap, receiver, blanks, between, hgap, hreceiver, hown, hblanks, hbetween, rfl⟩ := hhead
  obtain ⟨other, heq⟩ := hbegins
  simp only [generic_toList, List.append_assoc, List.singleton_append] at heq
  have hspace : IsRun isBlank [' '] := by decide
  obtain ⟨-, hreceived⟩ := eq_of_append_eq_of_clear hgap.2 hspace.2 (hreceiver.clear hown)
    (hname.clear fun _ => isBlank_of_isAsciiWord) (List.append_cancel_left heq)
  obtain ⟨-, hnamed⟩ := hreceiver.unique (.inl rfl) hown hname hreceived
  obtain ⟨-, hspaced⟩ := eq_of_append_eq_of_clear hown.2 hname.2 (hblanks.clear (hbetween.clear rfl rfl))
    (clear_cons.mpr (by decide)) hnamed
  obtain ⟨-, hopened⟩ := eq_of_append_eq_of_clear hblanks (List.forall_mem_nil _) (hbetween.clear rfl rfl)
    (clear_cons.mpr (by decide)) (hspaced.trans (List.nil_append _).symm)
  rcases hbetween with rfl | ⟨inner, hinner, rfl⟩
  · exact absurd (List.cons.inj hopened).1 (by decide)
  · rw [List.append_assoc] at hopened
    exact passes_iff.mpr ⟨inner, other, hinner, (List.cons.inj hopened).2.symm⟩

lemma exists_head_of_passes (hname : IsRun isAsciiWord name.toList) (hpasses : Passes parameters.toList) :
    ∃ head, IsFunctionHead head name.toList ∧ head <+: (generic name parameters rest).toList := by
  obtain ⟨inner, other, hinner, heq⟩ := passes_iff.mp hpasses
  refine ⟨_, ⟨[' '], [], [], '[' :: inner ++ [']'], by decide, .inl rfl, hname, List.forall_mem_nil _,
    .inr ⟨inner, hinner, rfl⟩, rfl⟩, other, ?_⟩
  rw [generic_toList, heq]
  simp

lemma exists_functions_eq (content : String) : ∃ taken, Stretch.InTurn (IsFunction content.toList) 0 taken ∧
    functionsOf (Language.go.scan content) =
      taken.map fun s => ⟨.function, s.name, (s.lineIn content.toList).toUInt32⟩ := by
  obtain ⟨taken, hturn, hs⟩ := Stretch.exists_inTurn (p := functionPattern) rfl (describe_isFunction content.toList)
  refine ⟨taken, hturn, ?_⟩
  rw [functionsOf_scan, Source.elements, hs, List.map_map]
  rfl

lemma mem_scan_of_head (hhead : IsFunctionHead head own) (hbegins : head <+: content.toList) :
    ⟨.function, String.ofList own, 1⟩ ∈ Language.go.scan content := by
  obtain ⟨taken, hturn, hfunctions⟩ := exists_functions_eq content
  obtain ⟨behind, hbehind⟩ := hbegins
  have hs : IsFunction content.toList ⟨0, 0 + head.length, [own]⟩ := .intro (.inl rfl) hbehind.symm ⟨own, hhead, rfl⟩
  have hmem := hturn.mem_of_start_eq (fun _ _ => IsHeaded.eq_of_start_eq settles_isFunctionHead) hs rfl
  have hfunction : ⟨.function, String.ofList own, 1⟩ ∈ functionsOf (Language.go.scan content) :=
    hfunctions ▸ List.mem_map_of_mem hmem
  exact List.mem_of_mem_filter hfunction

lemma exists_head_of_line_eq_one (hn : content.toList.count '\n' < 2 ^ 32 - 1) (he : e ∈ Language.go.scan content)
    (hkind : e.kind = .function) (hline : e.line = 1) :
    ∃ head own, IsFunctionHead head own ∧ head <+: content.toList := by
  obtain ⟨taken, hturn, hfunctions⟩ := exists_functions_eq content
  have hmem : e ∈ functionsOf (Language.go.scan content) := List.mem_filter.mpr ⟨he, by simpa using hkind⟩
  rw [hfunctions] at hmem
  obtain ⟨s, hs, rfl⟩ := List.mem_map.mp hmem
  have hfits := hturn.fits s hs
  have hfirst : lineNumber content.toList s.start = lineNumber content.toList 0 := by
    have hnumber := congrArg UInt32.toNat hline
    rwa [Stretch.toNat_lineIn hn] at hnumber
  have hstart := place_eq_of_lineNumber_eq hfits.isLineStart (.inl rfl) hfirst
  obtain ⟨-, hhead⟩ := IsHeaded.exists_start_eq_iff.mp ⟨s, hfits, hstart⟩
  exact hhead

/-- How a function with type parameters fares that stands at the beginning of a text. -/
structure ReportsGeneric (name parameters rest : String) : Prop where
  reported : Passes parameters.toList → ⟨.function, name, 1⟩ ∈ Language.go.scan (generic name parameters rest)
  missed : ¬ Passes parameters.toList → (generic name parameters rest).toList.count '\n' < 2 ^ 32 - 1 →
    ∀ e ∈ Language.go.scan (generic name parameters rest), e.line ≠ 1

theorem reportsGeneric_of_isRun (hname : IsRun isAsciiWord name.toList) : ReportsGeneric name parameters rest where
  reported hpasses := by
    obtain ⟨head, hhead, hbegins⟩ := exists_head_of_passes hname hpasses
    have hmem := mem_scan_of_head hhead hbegins
    rwa [String.ofList_toList] at hmem
  missed hpasses hn e he hline := by
    by_cases hkind : e.kind = .function
    · obtain ⟨head, own, hhead, hbegins⟩ := exists_head_of_line_eq_one hn he hkind hline
      exact hpasses (passes_of_head hname hhead hbegins)
    · cases reports_of_line_eq hn he (.inl rfl) (congrArg UInt32.toNat hline) with
      | function => exact hkind rfl
      | type hdeclares => exact hdeclares.not_func ⟨_, (generic_toList name parameters rest).symm⟩

/-- A slice among the type parameters hides the function. -/
theorem reportsGeneric_of_isRun_slices :
    ReportsGeneric "Map" "S []int" "x S)" ∧ Language.go.scan (generic "Map" "S []int" "x S)") = [] ∧
      Language.go.scan (generic "Map" "S, T any" "x S)") = [⟨.function, "Map", 1⟩] :=
  ⟨reportsGeneric_of_isRun (by decide), by decide +kernel, by decide +kernel⟩

/-- Not every function whose type parameters have balanced brackets is reported. -/
theorem not_forall_balanced_mem_scan : ¬ ∀ name parameters rest : String,
    IsRun isAsciiWord name.toList → Clear Char.isDigit name.toList → '\n' ∉ parameters.toList →
      Balanced parameters.toList → ⟨.function, name, 1⟩ ∈ Language.go.scan (generic name parameters rest) := by
  intro h
  have hbalanced : Balanced "S []int".toList := by
    have hint : Balanced "int".toList :=
      .plain (by decide) (by decide) (.plain (by decide) (by decide) (.plain (by decide) (by decide) .nil))
    exact .plain (by decide) (by decide) (.plain (by decide) (by decide) (.nested .nil hint))
  have hmem := h "Map" "S []int" "x S)" (by decide) rfl (by decide) hbalanced
  exact absurd hmem (by decide +kernel)

end Recognition.Go

end CodeOutline
