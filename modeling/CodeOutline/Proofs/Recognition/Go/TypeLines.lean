import CodeOutline.Proofs.Recognition.Go.Declarations

/-! Texts in which every declaration of a type stands on one line with single spaces: each of them is reported, but for
those whose target begins with the letters of another kind. -/

namespace CodeOutline

namespace Recognition.Go

open Pattern Text

/-- The line reads `type Name T…`. -/
def IsTypeLine (line name target : List Char) : Prop :=
  IsRun isAsciiWord name ∧ target ≠ [] ∧ Clear isBlank target ∧ line = "type ".toList ++ (name ++ ' ' :: target)

def IsPlain (text : List Char) : Prop :=
  ∀ line ∈ linesOf text, "type".toList <+: line → ∃ name target, IsTypeLine line name target

def GivesType (kind : Element.Kind) (line name : List Char) : Prop :=
  ∃ target, IsTypeLine line name target ∧ kindOf target = kind ∧ ¬ IsOverlooked target

variable {text line name target rest : List Char} {kind : Element.Kind} {place n : Nat} {content : String} {e : Element}

/-! The line behind a target does not matter to what is told from it. -/

lemma kindOf_append (hrest : EndsLine rest) (target : List Char) : kindOf (target ++ rest) = kindOf target := by
  rw [kindOf, kindOf, leadingWord, leadingWord, takeWhile_append_of_clear (hrest.clear (by decide))]

lemma isOverlooked_append_iff (hrest : EndsLine rest) (target : List Char) :
    IsOverlooked (target ++ rest) ↔ IsOverlooked target := by
  have htoken : token (target ++ rest) = token target := takeWhile_append_of_clear (hrest.clear (by decide)) target
  have hbegins : BeginsAsOther (target ++ rest) ↔ BeginsAsOther target := by
    rw [← beginsAsOther_token, htoken, beginsAsOther_token]
  rw [IsOverlooked, IsOverlooked, kindOf_append hrest, hbegins]

lemma shows_append_iff (hrest : EndsLine rest) (hne : target ≠ []) :
    Shows kind (target ++ rest) ↔ kindOf target = kind ∧ ¬ IsOverlooked target := by
  rw [Shows, kindOf_append hrest, isOverlooked_append_iff hrest,
    and_iff_right (show target ++ rest ≠ [] from List.append_ne_nil_of_left_ne_nil hne rest)]

lemma IsTypeLine.isOpening (h : IsTypeLine line name target) : IsOpening ("type ".toList ++ (name ++ [' '])) name :=
  ⟨[' '], [' '], by decide, h.1, by decide, rfl⟩

lemma IsTypeLine.clear_append (h : IsTypeLine line name target) (rest : List Char) : Clear isBlank (target ++ rest) := by
  obtain ⟨-, hne, hclear, -⟩ := h
  obtain ⟨x, more, rfl⟩ := List.exists_cons_of_ne_nil hne
  exact hclear

lemma IsTypeLine.append_eq (h : IsTypeLine line name target) (rest : List Char) :
    line ++ rest = ("type ".toList ++ (name ++ [' '])) ++ (target ++ rest) := by
  rw [h.2.2.2]
  simp

/-- A line of the form declares a type with its name, and the target goes on behind the line. -/
lemma IsTypeLine.exists_declares (h : IsTypeLine (lineFrom text place) name target) (hstart : IsLineStart text place) :
    ∃ rest, EndsLine rest ∧ Declares text place name (target ++ rest) := by
  obtain ⟨rest, hdrop, hrest⟩ := exists_drop_eq_lineFrom_append text place
  exact ⟨rest, hrest, hstart, _, h.isOpening, hdrop.trans (h.append_eq rest), h.clear_append rest⟩

lemma exists_isTypeLine (hplain : IsPlain text) (hstart : IsLineStart text place)
    (hbegins : "type".toList <+: text.drop place) : ∃ name target, IsTypeLine (lineFrom text place) name target := by
  have hline := isLineAt_of_isLineStart hstart
  exact hplain _ (List.mem_of_getElem? hline.2) ((prefix_lineFrom_iff (by decide)).mpr hbegins)

lemma exists_isTypeLine_of_declares (hplain : IsPlain text) (h : Declares text place name target) :
    ∃ own rest, IsTypeLine (lineFrom text place) name own ∧ EndsLine rest ∧ target = own ++ rest := by
  obtain ⟨name', own, hline⟩ := exists_isTypeLine hplain h.1 h.prefix_drop
  obtain ⟨rest, hrest, hdeclares⟩ := hline.exists_declares h.1
  obtain ⟨rfl, rfl⟩ := hdeclares.unique h
  exact ⟨own, rest, hline, hrest, rfl⟩

lemma keepsToLines_of_isPlain (hplain : IsPlain text) : KeepsToLines text := by
  intro place opening name target hstart hopening hdrop hclear
  obtain ⟨name', own, hline⟩ := exists_isTypeLine hplain hstart
    (Declares.prefix_drop ⟨hstart, opening, hopening, hdrop, hclear⟩)
  obtain ⟨rest, hdrop', -⟩ := exists_drop_eq_lineFrom_append text place
  obtain ⟨rfl, -, -⟩ := hopening.unique hline.isOpening hclear (hline.clear_append rest)
    (hdrop.symm.trans (hdrop'.trans (hline.append_eq rest)))
  simp only [List.mem_append, not_or]
  exact ⟨by decide, fun hmem => absurd (hline.1.2 _ hmem) (by decide), by decide⟩

lemma lists_of_shown {taken : List Stretch} (hplain : IsPlain text) (h : Shown text kind taken) :
    Lists (GivesType kind) text (taken.map fun s => (s.name, s.lineIn text)) where
  increasing := List.pairwise_map.mpr h.increasing
  mem_iff := by
    intro name n
    simp only [List.mem_map, Prod.mk.injEq]
    constructor
    · rintro ⟨s, hs, rfl, rfl⟩
      obtain ⟨name, target, hdeclares, hshows, hname⟩ := h.declares s hs
      obtain ⟨own, rest, hline, hrest, rfl⟩ := exists_isTypeLine_of_declares hplain hdeclares
      refine ⟨_, isLineAt_of_isLineStart hdeclares.1, own, ?_, (shows_append_iff hrest hline.2.1).mp hshows⟩
      rwa [hname, String.toList_ofList]
    · rintro ⟨line, hline, target, htype, hshows⟩
      obtain ⟨place, hstart, rfl, rfl⟩ := exists_isLineStart hline
      obtain ⟨rest, hrest, hdeclares⟩ := htype.exists_declares hstart
      obtain ⟨s, hs, rfl, hname⟩ := h.complete (keepsToLines_of_isPlain hplain) _ _ _ hdeclares
        ((shows_append_iff hrest htype.2.1).mpr hshows)
      exact ⟨s, hs, hname.trans String.ofList_toList, rfl⟩

/-- The types that are recognized in a text: for each kind the lines that declare it, and for each line that declares a
type one element, or none if the type is overlooked. -/
structure ReportsTypes (content : String) : Prop where
  listed : ∀ kind ∈ [.classDecl, .interfaceDecl, .typeDecl], ∃ found, Lists (GivesType kind) content.toList found ∧
    blockOf kind (Language.go.scan content) = found.map fun f => ⟨kind, f.1, f.2.toUInt32⟩
  reported : content.toList.count '\n' < 2 ^ 32 - 1 → ∀ n line name target, IsLineAt content.toList n line →
    IsTypeLine line name target → ¬ IsOverlooked target →
      (Language.go.scan content).filter (·.line.toNat = n) = [⟨kindOf target, String.ofList name, n.toUInt32⟩]
  overlooked : content.toList.count '\n' < 2 ^ 32 - 1 → ∀ n line name target, IsLineAt content.toList n line →
    IsTypeLine line name target → IsOverlooked target → (Language.go.scan content).filter (·.line.toNat = n) = []

lemma filter_eq_singleton {α β : Type} [DecidableEq β] {f : α → β} {as : List α} {a : α} (h : (as.map f).Nodup)
    (ha : a ∈ as) : as.filter (fun b => f b = f a) = [a] := by
  obtain ⟨before, after, rfl⟩ := List.append_of_mem ha
  rw [List.map_append, List.map_cons, List.nodup_middle, List.nodup_cons, ← List.map_append] at h
  have hother : ∀ b ∈ before ++ after, ¬ f b = f a := fun b hb heq => h.1 (heq ▸ List.mem_map_of_mem hb)
  obtain ⟨hbefore, hafter⟩ := List.forall_mem_append.mp hother
  have hnone {bs : List α} (hbs : ∀ b ∈ bs, ¬ f b = f a) : bs.filter (fun b => f b = f a) = [] :=
    List.filter_eq_nil_iff.mpr fun b hb => by simpa using hbs b hb
  rw [List.filter_append, hnone hbefore, List.filter_cons, if_pos (decide_eq_true rfl), hnone hafter]
  rfl

lemma filter_line_eq (hn : content.toList.count '\n' < 2 ^ 32 - 1) (he : e ∈ Language.go.scan content) :
    (Language.go.scan content).filter (·.line.toNat = e.line.toNat) = [e] := by
  have hlines := (lines_nodup hn).map fun _ _ => UInt32.toNat_inj.mp
  rw [List.map_map] at hlines
  exact filter_eq_singleton hlines he

lemma mem_scan_of_isTypeLine (hplain : IsPlain content.toList) (hstart : IsLineStart content.toList place)
    (htype : IsTypeLine (lineFrom content.toList place) name target) (hover : ¬ IsOverlooked target) :
    ⟨kindOf target, String.ofList name, (lineNumber content.toList place).toUInt32⟩ ∈ Language.go.scan content := by
  obtain ⟨rest, hrest, hdeclares⟩ := htype.exists_declares hstart
  obtain ⟨taken, hshown, hblock⟩ := exists_block (kindOf_mem target) content
  obtain ⟨s, hs, rfl, hname⟩ := hshown.complete (keepsToLines_of_isPlain hplain) _ _ _ hdeclares
    ((shows_append_iff hrest htype.2.1).mpr ⟨rfl, hover⟩)
  have hmem : ⟨kindOf target, s.name, (s.lineIn content.toList).toUInt32⟩ ∈
      blockOf (kindOf target) (Language.go.scan content) := hblock ▸ List.mem_map_of_mem hs
  rw [hname] at hmem
  exact (List.mem_filter.mp hmem).1

theorem reportsTypes_of_isPlain (hplain : IsPlain content.toList) : ReportsTypes content := by
  constructor
  case listed =>
    intro kind hk
    obtain ⟨taken, hshown, hblock⟩ := exists_block hk content
    refine ⟨_, lists_of_shown hplain hshown, ?_⟩
    rw [hblock, List.map_map]
    rfl
  case reported =>
    intro hn n line name target hline htype hover
    obtain ⟨place, hstart, rfl, rfl⟩ := exists_isLineStart hline
    have hone := filter_line_eq hn (mem_scan_of_isTypeLine hplain hstart htype hover)
    rwa [toNat_lineNumber hn] at hone
  case overlooked =>
    intro hn n line name target hline htype hover
    obtain ⟨place, hstart, rfl, rfl⟩ := exists_isLineStart hline
    obtain ⟨rest, hrest, hdeclares⟩ := htype.exists_declares hstart
    rw [List.filter_eq_nil_iff]
    intro e he hplace
    obtain ⟨-, -, hshows⟩ := (reports_of_line_eq hn he hstart (of_decide_eq_true hplace)).eq_of_declares hdeclares
    exact ((shows_append_iff hrest htype.2.1).mp hshows).2 hover

/-- A struct, a type whose name begins like it, a function, and an alias. -/
theorem reportsTypes_of_isPlain_lines :
    let content := "type A struct\x7b\x7d\ntype B structural\nfunc f()\ntype C = struct\x7b\x7d"
    IsPlain content.toList ∧ ReportsTypes content ∧
      Language.go.scan content = [⟨.function, "f", 3⟩, ⟨.classDecl, "A", 1⟩, ⟨.typeDecl, "C", 4⟩] := by
  intro content
  have hlines : linesOf content.toList = ["type A struct\x7b\x7d".toList, "type B structural".toList, "func f()".toList,
    "type C = struct\x7b\x7d".toList] := by decide
  have hplain : IsPlain content.toList := by
    rw [IsPlain, hlines]
    simp only [List.forall_mem_cons]
    exact ⟨fun _ => ⟨['A'], "struct\x7b\x7d".toList, by decide, by decide, rfl, rfl⟩,
      fun _ => ⟨['B'], "structural".toList, by decide, by decide, rfl, rfl⟩, fun h => absurd h (by decide),
      fun _ => ⟨['C'], "= struct\x7b\x7d".toList, by decide, by decide, rfl, rfl⟩, List.forall_mem_nil _⟩
  exact ⟨hplain, reportsTypes_of_isPlain hplain, by decide +kernel⟩

/-- A type named `structural` is no struct, yet what it names is reported under no kind. -/
theorem not_reported_of_structural : ¬ ∀ content : String, IsPlain content.toList → ∀ n line name target,
    IsLineAt content.toList n line → IsTypeLine line name target →
      (Language.go.scan content).filter (·.line.toNat = n) = [⟨kindOf target, String.ofList name, n.toUInt32⟩] := by
  intro h
  have hlines : linesOf "type Shape structural\n".toList = ["type Shape structural".toList, []] := by decide
  have htype : IsTypeLine "type Shape structural".toList "Shape".toList "structural".toList :=
    ⟨by decide, by decide, rfl, rfl⟩
  have hplain : IsPlain "type Shape structural\n".toList := by
    rw [IsPlain, hlines]
    simp only [List.forall_mem_cons]
    exact ⟨fun _ => ⟨_, _, htype⟩, fun h => absurd h (by decide), List.forall_mem_nil _⟩
  have hline : IsLineAt "type Shape structural\n".toList 1 "type Shape structural".toList :=
    ⟨Nat.one_pos, by rw [hlines]; rfl⟩
  have hscan : Language.go.scan "type Shape structural\n" = [] := by decide +kernel
  have hone := h _ hplain 1 _ _ _ hline htype
  rw [hscan] at hone
  cases hone

end Recognition.Go

end CodeOutline
