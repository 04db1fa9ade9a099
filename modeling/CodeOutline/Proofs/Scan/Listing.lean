import CodeOutline.Proofs.Path.Order
import CodeOutline.Proofs.Scan.Reach

/-! What a scan lists: the files that its walk comes to and the settings admit, in the order of their components. -/

namespace CodeOutline.Scan

open Disk

variable {d : Disk} {env : Environment} {config : Config.Scan} {root : String} {place : Place} {found : List Found} {f : Found}
  {names paths : List String} {name : String} {content : List UInt8} {e : Entry}

/-- The walk from `root` yields the entry behind `names`. A single hyphen stands for no folder. -/
def Yields (d : Disk) (env : Environment) (root : String) (names : List String) (e : Entry) : Prop :=
  root ≠ "-" ∧ ∃ place, d.folderPlace? root = some place ∧ Reaches d (outerLevels d env place) root place names e

/-- A file below the root, given by the names that lead to it, suits the settings. -/
structure Admits (config : Config.Scan) (names : List String) (content : List UInt8) : Prop where
  extension : ∃ stem extension, names.getLast? = some (String.ofList (stem ++ '.' :: extension)) ∧ stem ≠ [] ∧
    '.' ∉ extension ∧ ∃ included ∈ config.includeExtensions, included.toLower = (String.ofList extension).toLower
  folders : ∀ folder ∈ names.dropLast, folder ∉ config.excludeFolders
  size : content.length ≤ config.maxFileSize

def pathBelow (root : String) (names : List String) : String := Path.join root ("/".intercalate names)

def foundAt (root : String) (names : List String) (content : List UInt8) : Found := ⟨pathBelow root names, content.length⟩

/-- The paths are those of the yielded files that suit the settings, in strict order, each the root joined with a
relative path, and they are so however the walk orders what it yields. -/
structure Lists (d : Disk) (env : Environment) (config : Config.Scan) (root : String) (paths : List String) : Prop where
  mem_iff : ∀ path, path ∈ paths ↔ ∃ names content,
    Yields d env root names (.file content) ∧ Admits config names content ∧ path = pathBelow root names
  increasing : paths.Pairwise fun a b => Path.less a b = true
  nodup : paths.Nodup
  relative : ∀ path ∈ paths, ∃ below, Path.isAbsolute below = false ∧ path = Path.join root below
  anyOrder : ∀ found : List Found, found.Nodup →
    (∀ f, f ∈ found ↔ ∃ names content, Yields d env root names (.file content) ∧ f = foundAt root names content) →
    select config root found = paths

lemma Yields.isEntryName (h : Yields d env root names e) (hd : d.Sound) : ∀ name ∈ names, IsEntryName name := by
  obtain ⟨-, place, -, hreaches⟩ := h
  exact hreaches.isEntryName hd

lemma Yields.ne_nil (h : Yields d env root names e) : names ≠ [] := by
  obtain ⟨-, place, -, hreaches⟩ := h
  exact hreaches.ne_nil

lemma Yields.eq {e' : Entry} (h : Yields d env root names e) (h' : Yields d env root names e') : e = e' := by
  obtain ⟨-, place, hplace, hreaches⟩ := h
  obtain ⟨-, place', hplace', hreaches'⟩ := h'
  obtain rfl := Option.some.inj (hplace.symm.trans hplace')
  exact Option.some.inj (hreaches.find?.symm.trans hreaches'.find?)

lemma isAbsolute_intercalate_names (h : ∀ name ∈ names, IsEntryName name) : Path.isAbsolute ("/".intercalate names) = false :=
  isAbsolute_intercalate fun name hname => (h name hname).2.2

lemma foldl_join_eq_foundAt (h : ∀ name ∈ names, IsEntryName name) (hne : names ≠ []) (root : String) (content : List UInt8) :
    (⟨names.foldl Path.join root, content.length⟩ : Found) = foundAt root names content := by
  rw [Path.foldl_join_eq h hne, foundAt, pathBelow]

lemma components_pathBelow (h : ∀ name ∈ names, IsEntryName name) (hne : names ≠ []) (root : String) :
    Path.components (pathBelow root names) = Path.components root ++ names.map .normal := by
  rw [pathBelow, ← Path.foldl_join_eq h hne, Path.components_foldl_join h]

lemma fileName?_pathBelow (h : ∀ name ∈ names, IsEntryName name) (hne : names ≠ []) (root : String) :
    Path.fileName? (pathBelow root names) = names.getLast? := by
  obtain ⟨above, name, rfl⟩ := (List.eq_nil_or_concat names).resolve_left hne
  rw [Path.fileName?, components_pathBelow h hne, List.concat_eq_append, List.map_append, ← List.append_assoc, List.map_singleton,
    List.getLast?_concat, List.getLast?_concat]

lemma includes_pathBelow_iff (h : ∀ name ∈ names, IsEntryName name) (hne : names ≠ []) :
    config.includes (pathBelow root names) = true ↔ ∃ stem extension,
      names.getLast? = some (String.ofList (stem ++ '.' :: extension)) ∧ stem ≠ [] ∧ '.' ∉ extension ∧
        ∃ included ∈ config.includeExtensions, included.toLower = (String.ofList extension).toLower := by
  rw [Config.Scan.includes]
  constructor
  · intro h'
    cases hextension : Path.extension? (pathBelow root names) with
    | none => simp [hextension] at h'
    | some text =>
      obtain ⟨stem, extension, hlast, hstem, hdot, rfl⟩ := Path.extension?_eq_some_iff.mp hextension
      rw [fileName?_pathBelow h hne] at hlast
      simp only [hextension, List.any_eq_true, beq_iff_eq] at h'
      exact ⟨stem, extension, hlast, hstem, hdot, h'⟩
  · rintro ⟨stem, extension, hlast, hstem, hdot, hincluded⟩
    rw [← fileName?_pathBelow h hne root] at hlast
    simp only [Path.extension?_eq_some_iff.mpr ⟨stem, extension, hlast, hstem, hdot, rfl⟩, List.any_eq_true, beq_iff_eq]
    exact hincluded

lemma isExcluded_pathBelow_iff (h : ∀ name ∈ names, IsEntryName name) (hne : names ≠ []) :
    isExcluded config root (pathBelow root names) = true ↔ ∃ folder ∈ names.dropLast, folder ∈ config.excludeFolders := by
  rw [isExcluded, foldersBelow, components_pathBelow h hne, List.drop_left, ← List.map_dropLast, List.any_map]
  simp

lemma isAdmitted_iff (h : ∀ name ∈ names, IsEntryName name) (hne : names ≠ []) :
    isAdmitted config root (foundAt root names content) = true ↔ Admits config names content := by
  rw [isAdmitted, Bool.and_eq_true, Bool.and_eq_true, Bool.not_eq_true', Bool.eq_false_iff, Ne, foundAt,
    includes_pathBelow_iff h hne, isExcluded_pathBelow_iff h hne, decide_eq_true_iff]
  constructor
  · rintro ⟨⟨hextension, hfolders⟩, hsize⟩
    exact ⟨hextension, fun folder hfolder hexcluded => hfolders ⟨folder, hfolder, hexcluded⟩, hsize⟩
  · rintro ⟨hextension, hfolders, hsize⟩
    exact ⟨⟨hextension, fun ⟨folder, hfolder, hexcluded⟩ => hfolders folder hfolder hexcluded⟩, hsize⟩

lemma eq_of_components_eq {names' : List String} {content' : List UInt8} (hd : d.Sound)
    (h : Yields d env root names (.file content)) (h' : Yields d env root names' (.file content'))
    (heq : Path.components (pathBelow root names) = Path.components (pathBelow root names')) :
    foundAt root names content = foundAt root names' content' := by
  rw [components_pathBelow (h.isEntryName hd) h.ne_nil, components_pathBelow (h'.isEntryName hd) h'.ne_nil] at heq
  obtain rfl := List.map_injective_iff.mpr (fun _ _ => Path.Component.normal.inj) (List.append_cancel_left heq)
  cases h.eq h'
  rfl

lemma pairwise_mergeSort (paths : List String) :
    (paths.mergeSort fun a b => !Path.less b a).Pairwise fun a b => Path.less b a = false := by
  refine (List.pairwise_mergeSort (fun a b c hab hbc => ?_) (fun a b => ?_) paths).imp (by simp)
  · rw [Bool.not_eq_true'] at hab hbc ⊢
    exact Path.not_less_trans hab hbc
  · cases h : Path.less b a with
    | false => rfl
    | true => simp [Path.less_asymm h]

section Yielded

variable (hd : d.Sound) (hnodup : found.Nodup)
  (hfound : ∀ f, f ∈ found ↔ ∃ names content, Yields d env root names (.file content) ∧ f = foundAt root names content)

include hd hnodup hfound

lemma increasing_select : (select config root found).Pairwise fun a b => Path.less a b = true := by
  -- sorting keeps apart what differs in its components, and of two such paths one is the lesser
  have hdistinct : ((found.filter (isAdmitted config root)).map (·.path)).Pairwise
      fun a b => Path.components a ≠ Path.components b := by
    rw [List.pairwise_map]
    refine List.Pairwise.imp_of_mem (fun {f g} hf hg hne heq => hne ?_) (hnodup.filter _)
    obtain ⟨names, content, hyields, rfl⟩ := (hfound f).mp (List.mem_of_mem_filter hf)
    obtain ⟨names', content', hyields', rfl⟩ := (hfound g).mp (List.mem_of_mem_filter hg)
    exact eq_of_components_eq hd hyields hyields' heq
  have hsorted := (List.mergeSort_perm _ fun a b => !Path.less b a).symm.pairwise hdistinct fun h => h.symm
  refine ((pairwise_mergeSort _).and hsorted).imp (fun {a b} hab => ?_)
  by_contra hless
  exact hab.2 (Path.components_eq_of_not_less (Bool.not_eq_true _ ▸ hless) hab.1)

omit hnodup in
lemma mem_select_iff {path : String} : path ∈ select config root found ↔ ∃ names content,
    Yields d env root names (.file content) ∧ Admits config names content ∧ path = pathBelow root names := by
  rw [select, List.mem_mergeSort, List.mem_map]
  constructor
  · rintro ⟨f, hf, rfl⟩
    rw [List.mem_filter, hfound] at hf
    obtain ⟨⟨names, content, hyields, rfl⟩, hadmitted⟩ := hf
    exact ⟨names, content, hyields, (isAdmitted_iff (hyields.isEntryName hd) hyields.ne_nil).mp hadmitted, rfl⟩
  · rintro ⟨names, content, hyields, hadmits, rfl⟩
    refine ⟨foundAt root names content, ?_, rfl⟩
    rw [List.mem_filter, hfound]
    exact ⟨⟨names, content, hyields, rfl⟩, (isAdmitted_iff (hyields.isEntryName hd) hyields.ne_nil).mpr hadmits⟩

end Yielded

lemma mem_walk_iff (hd : d.Sound) (hplace : d.folderPlace? root = some place) :
    f ∈ walk d env root place ↔
      ∃ names content, Yields d env root names (.file content) ∧ f = foundAt root names content := by
  have hdepth : ∀ entry ∈ d.entries, entry.1.length < place.length + depthLimit d := fun entry hentry =>
    (length_lt_depthLimit hentry).trans_le (Nat.le_add_left _ _)
  rw [walk]
  split
  · rename_i hroot
    simp [Yields, hroot]
  · rename_i hroot
    rw [mem_walkFolder_iff hd hdepth]
    constructor
    · rintro ⟨names, content, hreaches, rfl⟩
      exact ⟨names, content, ⟨hroot, place, hplace, hreaches⟩,
        foldl_join_eq_foundAt (hreaches.isEntryName hd) hreaches.ne_nil root content⟩
    · rintro ⟨names, content, ⟨-, place', hplace', hreaches⟩, rfl⟩
      obtain rfl := Option.some.inj (hplace.symm.trans hplace')
      exact ⟨names, content, hreaches,
        (foldl_join_eq_foundAt (hreaches.isEntryName hd) hreaches.ne_nil root content).symm⟩

lemma nodup_walk (hd : d.IsTree) (env : Environment) (root : String) (place : Place) : (walk d env root place).Nodup := by
  rw [walk]
  split
  · exact List.nodup_nil
  · exact nodup_walkFolder hd _ _ _ _

theorem lists_directory (hd : d.IsTree) (hroot : d.isFolder root = true) :
    ∃ paths, directory d env config root = .ok paths ∧ Lists d env config root paths := by
  obtain ⟨place, hplace⟩ := Option.isSome_iff_exists.mp hroot
  have hwalk : ∀ f, f ∈ walk d env root place ↔ _ := fun f => mem_walk_iff hd.toSound hplace
  have hnodup := nodup_walk hd env root place
  have hincreasing : (select config root (walk d env root place)).Pairwise _ := increasing_select hd.toSound hnodup hwalk
  refine ⟨_, directory_eq_ok_iff.mpr ⟨place, hplace, rfl⟩, ?_⟩
  exact {
    mem_iff := fun path => mem_select_iff hd.toSound hwalk
    increasing := hincreasing
    nodup := Path.nodup_of_increasing hincreasing
    relative := fun path hpath => by
      obtain ⟨names, content, hyields, -, rfl⟩ := (mem_select_iff hd.toSound hwalk).mp hpath
      exact ⟨_, isAbsolute_intercalate_names (hyields.isEntryName hd.toSound), rfl⟩
    anyOrder := fun found hnodup' hfound => Path.eq_of_increasing (increasing_select hd.toSound hnodup' hfound) hincreasing
      fun path => (mem_select_iff hd.toSound hfound).trans (mem_select_iff hd.toSound hwalk).symm }

/-- A folder with a hidden file, an excluded folder, a link, a file that is too large and two others. -/
def crowded : Disk where
  entries := [(["p", "z.js"], .file [10]), (["p", ".a.js"], .file []), (["p", "dist"], .folder), (["p", "dist", "b.js"], .file []),
    (["p", "c.js"], .link "z.js"), (["p", "d.js"], .file [1, 2, 3]), (["p", "lib"], .folder), (["p", "lib", "e.min.JS"], .file []),
    (["p"], .folder)]
  current := []

theorem lists_directory_crowded :
    let config : Config.Scan := ⟨["js"], ["dist", "p"], 2⟩
    crowded.IsTree ∧ crowded.isFolder "./p" = true ∧ ∃ paths,
      directory crowded ⟨[]⟩ config "./p" = .ok paths ∧ Lists crowded ⟨[]⟩ config "./p" paths := by
  have hd : crowded.IsTree := by decide +kernel
  have hroot : crowded.isFolder "./p" = true := by decide +kernel
  exact ⟨hd, hroot, lists_directory hd hroot⟩

end CodeOutline.Scan
