import CodeOutline.Proofs.Selection.Answers
import CodeOutline.Proofs.Selection.Groups
import Mathlib.Data.List.Count
import Mathlib.Data.List.Sigma

/-! The tree that is shown before the question: every file stands in it once, under its folder and with the number that
chooses it. -/

namespace CodeOutline.Selection

open Text

/-- A path with the folder and the name it is cut into at its last slash. -/
inductive LiesIn : String → String → String → Prop
  | inside {folder name : String} : '/' ∉ name.toList → LiesIn (folder ++ "/" ++ name) folder name
  | outside {name : String} : '/' ∉ name.toList → LiesIn name "" name

lemma exists_liesIn (path : String) : ∃ folder name, LiesIn path folder name := by
  by_cases h : '/' ∈ path.toList
  · obtain ⟨before, after, hpath, hafter⟩ := exists_last_mark h
    have hwhole : path = String.ofList before ++ "/" ++ String.ofList after := by
      rw [← String.toList_inj, hpath]
      simp
    rw [hwhole]
    exact ⟨_, _, .inside (by rwa [String.toList_ofList])⟩
  · exact ⟨_, _, .outside h⟩

lemma liesIn_iff {path folder name : String} : LiesIn path folder name ↔ folder = folderOf path ∧ name = nameOf path := by
  have hcut : ∀ folder name, LiesIn path folder name → folder = folderOf path ∧ name = nameOf path := by
    intro folder name h
    cases h with
    | inside hname =>
      have hwhole : (folder ++ "/" ++ name).toList = folder.toList ++ '/' :: name.toList := by simp
      rw [folderOf, nameOf, hwhole, cutLast?_append _ hname]
      exact ⟨String.ofList_toList.symm, String.ofList_toList.symm⟩
    | outside hname =>
      rw [folderOf, nameOf, cutLast?_of_not_mem hname]
      exact ⟨rfl, rfl⟩
  constructor
  · exact hcut folder name
  · rintro ⟨rfl, rfl⟩
    obtain ⟨folder, name, h⟩ := exists_liesIn path
    obtain ⟨hfolder, hname⟩ := hcut folder name h
    rwa [← hfolder, ← hname]

lemma liesIn_folderOf_nameOf (path : String) : LiesIn path (folderOf path) (nameOf path) := liesIn_iff.mpr ⟨rfl, rfl⟩

namespace LiesIn

variable {path folder name : String}

lemma suffix (h : LiesIn path folder name) : name.toList <:+ path.toList := by
  cases h with
  | inside _ => exact ⟨(folder ++ "/").toList, by rw [← String.toList_append]⟩
  | outside _ => exact List.suffix_rfl

lemma notMem (h : LiesIn path folder name) : '/' ∉ name.toList := by
  cases h with
  | inside hname => exact hname
  | outside hname => exact hname

/-- No end of the path without a slash is longer than the name. -/
lemma length_le (h : LiesIn path folder name) {last : List Char} (hlast : last <:+ path.toList) (hslash : '/' ∉ last) :
    last.length ≤ name.toList.length := by
  cases h with
  | inside _ =>
    by_contra hlt
    have hname : '/' :: name.toList <:+ (folder ++ "/" ++ name).toList := ⟨folder.toList, by simp⟩
    have hlonger := List.suffix_of_suffix_length_le hname hlast (by simp; omega)
    exact hslash (hlonger.subset List.mem_cons_self)
  | outside _ => exact hlast.length_le

end LiesIn

lemma eq_of_nameOf_append_le {mark : List Char} {path other : String}
    (h : (nameOf path).toList ++ mark ++ path.toList = (nameOf other).toList ++ mark ++ other.toList)
    (hle : path.toList.length ≤ other.toList.length) : path = other := by
  have hsuffix : path.toList <:+ other.toList := List.suffix_of_suffix_length_le ⟨_, h⟩ ⟨_, rfl⟩ hle
  have hpath := liesIn_folderOf_nameOf path
  have hname := (liesIn_folderOf_nameOf other).length_le (hpath.suffix.trans hsuffix) hpath.notMem
  have hlength := congrArg List.length h
  simp only [List.length_append] at hlength
  exact String.toList_inj.mp (hsuffix.eq_of_length (by omega))

/-- What is shown of a path names no other path, as the name is no more than its end. -/
lemma eq_of_nameOf_append {mark : List Char} {path other : String}
    (h : (nameOf path).toList ++ mark ++ path.toList = (nameOf other).toList ++ mark ++ other.toList) : path = other := by
  rcases Nat.le_total path.toList.length other.toList.length with hle | hle
  · exact eq_of_nameOf_append_le h hle
  · exact (eq_of_nameOf_append_le h.symm hle).symm

lemma toList_memberLine (member : String × Nat) : (memberLine member).toList =
    "  [".toList ++ ((toString member.2).toList ++ ']' ::
      (' ' :: ((nameOf member.1).toList ++ " (".toList ++ member.1.toList) ++ [')'])) := by
  simp [memberLine]

lemma memberLine_injective : Function.Injective memberLine := by
  rintro ⟨path, i⟩ ⟨other, j⟩ h
  have hclosed : ∀ n : Nat, ']' ∉ (toString n).toList := fun n hmem => absurd (isDigit_of_mem_toString hmem) (by decide)
  have hlines := congrArg String.toList h
  rw [toList_memberLine, toList_memberLine] at hlines
  obtain ⟨hnumber, hrest⟩ := eq_of_append_mark_eq (hclosed i) (hclosed j) (List.append_cancel_left hlines)
  have hread := numeral?_toString i
  rw [hnumber, numeral?_toString] at hread
  obtain rfl : j = i := Option.some.inj hread
  obtain rfl : path = other := eq_of_nameOf_append (List.append_cancel_right (List.cons.inj hrest).2)
  rfl

lemma getLast?_memberLine (member : String × Nat) : (memberLine member).toList.getLast? = some ')' := by
  rw [memberLine, String.toList_append]
  exact List.getLast?_concat ..

def headingLines : List String := ["", "Repository Files:"]

def headerLines (folder : String) : List String := if folder = "" then [] else ["", folder ++ "/"]

lemma memberLine_ne {line : String} (h : line.toList.getLast? ≠ some ')') (member : String × Nat) :
    memberLine member ≠ line :=
  fun heq => h (heq ▸ getLast?_memberLine member)

lemma memberLine_notMem_headerLines (member : String × Nat) (folder : String) :
    memberLine member ∉ headerLines folder := by
  have hslash : (folder ++ "/").toList.getLast? = some '/' := by
    rw [String.toList_append]
    exact List.getLast?_concat ..
  rw [headerLines]
  split
  · exact List.not_mem_nil
  · intro hmem
    rcases List.mem_pair.mp hmem with hline | hline
    · exact memberLine_ne (by decide) member hline
    · exact memberLine_ne (by rw [hslash]; decide) member hline

lemma memberLine_notMem_headingLines (member : String × Nat) : memberLine member ∉ headingLines := by
  intro hmem
  rcases List.mem_pair.mp hmem with hline | hline
  · exact memberLine_ne (by decide) member hline
  · exact memberLine_ne (by decide) member hline

lemma count_memberLine_lines (group : FileGroup) (member : String × Nat) :
    group.lines.count (memberLine member) = group.members.count member := by
  have hheader := List.count_eq_zero.mpr (memberLine_notMem_headerLines member group.folder)
  change (headerLines group.folder ++ group.members.map memberLine).count (memberLine member) = _
  rw [List.count_append, hheader, Nat.zero_add, List.count_map_of_injective _ _ memberLine_injective]

/-- Every line of a file stands for one place in the list. -/
lemma count_memberLine_treeLines (files : List String) (member : String × Nat) :
    (treeLines files).count (memberLine member) = files.zipIdx.count member := by
  have hheading := List.count_eq_zero.mpr (memberLine_notMem_headingLines member)
  have hgroups : List.count (memberLine member) ∘ FileGroup.lines = List.count member ∘ FileGroup.members :=
    funext fun group => count_memberLine_lines group member
  change (headingLines ++ (groupsOf files).flatMap FileGroup.lines).count (memberLine member) = _
  rw [List.count_append, hheading, Nat.zero_add, List.count_flatMap, hgroups, ← List.count_flatMap,
    (perm_members_groupsOf files).count_eq]

lemma count_zipIdx {files : List String} {path : String} {i : Nat} (h : files[i]? = some path) :
    files.zipIdx.count (path, i) = 1 :=
  List.count_eq_one_of_mem (List.Nodup.of_map _ (List.nodup_zipIdx_map_snd files)) (List.mem_zipIdx_iff_getElem?.mpr h)

lemma memberLine_mem_treeLines_iff {files : List String} {path : String} {i : Nat} :
    memberLine (path, i) ∈ treeLines files ↔ files[i]? = some path := by
  rw [← List.count_pos_iff, count_memberLine_treeLines, List.count_pos_iff]
  exact List.mem_zipIdx_iff_getElem?

lemma length_flatMap_lines (groups : List FileGroup) : (groups.flatMap FileGroup.lines).length =
    (groups.flatMap FileGroup.members).length + 2 * ((groups.map FileGroup.folder).filter (· ≠ "")).length := by
  induction groups with
  | nil => rfl
  | cons group groups ih =>
    have hlines : group.lines.length = (headerLines group.folder).length + group.members.length := by
      change (headerLines group.folder ++ group.members.map memberLine).length = _
      rw [List.length_append, List.length_map]
    rw [List.flatMap_cons, List.length_append, ih, hlines, List.flatMap_cons, List.length_append, List.map_cons,
      headerLines]
    by_cases h : group.folder = "" <;> simp [h] <;> omega

lemma length_treeLines (files : List String) : (treeLines files).length =
    2 + files.length + 2 * ((files.map folderOf).eraseDups.filter (· ≠ "")).length := by
  have hmembers := (perm_members_groupsOf files).length_eq
  have hfolders : (groupsOf files).map FileGroup.folder = (files.map folderOf).eraseDups := by
    rw [groupsOf_eq, map_folder_grouped, foldersOf_zipIdx]
  rw [treeLines, List.length_append, length_flatMap_lines, hmembers, List.length_zipIdx, hfolders, Nat.add_assoc]
  rfl

lemma toLower_of_isDigit {c : Char} (h : c.isDigit = true) : c.toLower = c := by
  have hlast : c.toNat ≤ 57 := (Char.isDigit_iff_toNat.mp h).2
  refine dif_neg fun hcapital => ?_
  have hfirst : 65 ≤ c.toNat := UInt32.le_iff_toNat_le.mp hcapital.1
  omega

lemma not_isAll_toString (i : Nat) : ¬IsAll (toString i) := by
  rintro ⟨word, ⟨⟨before, after, htext, -, -⟩, -, -⟩, hword⟩
  have hletter : 'a' ∈ word.map Char.toLower := by
    rw [hword]
    decide
  obtain ⟨c, hc, hlower⟩ := List.mem_map.mp hletter
  have hmem : c ∈ (toString i).toList := by
    rw [htext]
    simp [hc]
  have hdigit : c.isDigit = true := isDigit_of_mem_toString hmem
  rw [toLower_of_isDigit hdigit] at hlower
  exact absurd (hlower ▸ hdigit) (by decide)

lemma standsFor_toString {i : Nat} (hi : i < 2 ^ 64) : StandsFor (toString i) (some i) := by
  have hnumeral : IsUnsigned (2 ^ 64) (toString i).toList i := by
    obtain ⟨hne, hall, hvalue⟩ := numeral?_eq_some_iff.mp (numeral?_toString i)
    exact ⟨_, .inl rfl, hne, hall, hvalue, hi⟩
  have hstands := @StandsFor.number [] [] _ i (by simp) (by simp) hnumeral
  rwa [List.nil_append, List.append_nil, String.ofList_toList] at hstands

lemma choose_toString {files : List String} {path : String} {i : Nat} (h : files[i]? = some path) (hi : i < 2 ^ 64) :
    choose (toString i) files = [path] := by
  have hsingle : ",".intercalate [toString i] = toString i := String.intercalate_singleton
  have hcomma : ∀ item ∈ [toString i], ',' ∉ item.toList := by
    intro item hitem hmem
    rw [List.mem_singleton.mp hitem] at hmem
    exact absurd (isDigit_of_mem_toString hmem) (by decide)
  have hchosen := @choose_intercalate files _ _ hcomma (.cons (standsFor_toString hi) .nil) (hsingle ▸ not_isAll_toString i)
  rw [hsingle] at hchosen
  rw [hchosen, List.reduceOption_cons_of_some, List.reduceOption_nil, List.filterMap_cons, h]
  rfl

/-- How the files are shown: the folders in the order in which they are first met, the files of each in theirs. Numbers
that do not fit into 64 bits cannot be chosen; no list is that long. -/
structure ShowsFiles (files lines : List String) : Prop where
  liesIn_iff : ∀ path folder name, LiesIn path folder name ↔ folder = folderOf path ∧ name = nameOf path
  lines_eq : lines = ["", "Repository Files:"] ++ (files.map folderOf).eraseDups.flatMap fun folder =>
    (if folder = "" then [] else ["", folder ++ "/"]) ++
      (files.zipIdx.filter fun (path, _) => folderOf path = folder).map fun (path, i) =>
        "  [" ++ toString i ++ "] " ++ nameOf path ++ " (" ++ path ++ ")"
  mem_iff : ∀ path i, memberLine (path, i) ∈ lines ↔ files[i]? = some path
  count_eq_one : ∀ path i, files[i]? = some path → lines.count (memberLine (path, i)) = 1
  length_eq : lines.length = 2 + files.length + 2 * ((files.map folderOf).eraseDups.filter (· ≠ "")).length
  choose_eq : ∀ path i, memberLine (path, i) ∈ lines → i < 2 ^ 64 → choose (toString i) files = [path]

/-- Grouping the files by their folders keeps each of them, together with the number that chooses it. -/
theorem showsFiles_treeLines (files : List String) : ShowsFiles files (treeLines files) where
  liesIn_iff _ _ _ := liesIn_iff
  lines_eq := by
    rw [treeLines, groupsOf_eq, grouped, List.flatMap_map, foldersOf_zipIdx]
    rfl
  mem_iff _ _ := memberLine_mem_treeLines_iff
  count_eq_one path i h := (count_memberLine_treeLines files (path, i)).trans (count_zipIdx h)
  length_eq := length_treeLines files
  choose_eq _ _ h hi := choose_toString (memberLine_mem_treeLines_iff.mp h) hi

example : treeLines ["src/a.ts", "main.go", "src/a.ts", "/c.py"] =
    ["", "Repository Files:", "", "src/", "  [0] a.ts (src/a.ts)", "  [2] a.ts (src/a.ts)", "  [1] main.go (main.go)",
      "  [3] c.py (/c.py)"] := by decide +kernel

end CodeOutline.Selection
