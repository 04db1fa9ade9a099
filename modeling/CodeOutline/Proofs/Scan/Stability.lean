import CodeOutline.Proofs.Document.Again
import CodeOutline.Proofs.Ignore.Levels
import CodeOutline.Proofs.Scan.Visit

/-! Scanning a folder again after documents have been exported, perhaps into it. -/

namespace CodeOutline

namespace Disk

variable {name path : String} {place : Place} {d : Disk}

lemma IsEntryName.steps_eq (h : IsEntryName name) : steps name = [name] := by
  rw [steps, h.pieces_eq, List.map_singleton, String.ofList_toList]

lemma placeOf_join_name (h : IsEntryName name) (d : Disk) (path : String) :
    d.placeOf (Path.join path name) = d.placeOf path ++ [name] := by
  rw [placeOf_join d h.isAbsolute_eq, h.steps_eq, List.foldl_cons, List.foldl_nil, move_name h.1 h.2.1]

lemma foldl_move_names {names : List String} (h : ∀ name ∈ names, IsEntryName name) (here : Place) :
    names.foldl move here = here ++ names := by
  induction names generalizing here with
  | nil => exact (List.append_nil here).symm
  | cons name rest ih =>
    rw [List.forall_mem_cons] at h
    rw [List.foldl_cons, move_name h.1.1 h.1.2.1, ih h.2, List.append_assoc]
    rfl

lemma steps_absolutePath (h : ∀ name ∈ place, IsEntryName name) : steps (absolutePath place) = place := by
  rw [absolutePath, steps, pieces_slash, ← steps, steps_intercalate fun name hname => ⟨(h name hname).2.2.1, (h name hname).2.2.2⟩]

lemma placeOf_absolutePath (h : ∀ name ∈ place, IsEntryName name) (d : Disk) : d.placeOf (absolutePath place) = place := by
  rw [placeOf_eq, steps_absolutePath h, start, absolutePath, isAbsolute_slash, if_pos rfl, foldl_move_names h, List.nil_append]

end Disk

namespace Document

variable {d after : Disk} {output path : String} {config : Config.Scan} {name : String}

lemma Sidesteps.join_name (h : Sidesteps d output path) (hname : Disk.IsEntryName name) :
    Sidesteps d output (Path.join path name) := by
  apply h.join hname.isAbsolute_eq
  rw [hname.steps_eq]
  simpa using Ne.symm hname.2.1

lemma extension?_join_fileName (folder source : String) :
    Path.extension? (Path.join folder (fileName source)) = some "md" := by
  have htext : (fileName source).toList = (stem (flatten source.toList) ++ "_docs".toList) ++ '.' :: "md".toList := by
    rw [toList_fileName, List.append_assoc]
    rfl
  exact (isEntryName_fileName source).extension?_join htext (by decide) (by simp) folder

/-- Documents are no source files unless their extension is asked for. -/
lemma includes_join_fileName (h : ∀ extension ∈ config.includeExtensions, extension.toLower ≠ "md") (folder source : String) :
    config.includes (Path.join folder (fileName source)) = false := by
  rw [Config.Scan.includes, extension?_join_fileName]
  have hmd : "md".toLower = "md" := by
    apply String.toList_inj.mp
    change (String.map Char.toLower "md").toList = _
    rw [String.toList_map]
    rfl
  simpa [hmd] using h

end Document

namespace Scan

open Ignore Document Disk

variable {d after : Disk} {output path name : String} {place : Place} {levels : Levels} {depth : Nat} {e : Entry}
  {config : Config.Scan}

lemma flatMap_eq_of_nil {α β : Type} {u : α → Bool} {f : α → List β} {l : List α} (h : ∀ a ∈ l, u a = false → f a = []) :
    l.flatMap f = (l.filter u).flatMap f := by
  induction l with
  | nil => rfl
  | cons a l ih =>
    rw [List.forall_mem_cons] at h
    rw [List.flatMap_cons, ih h.2]
    cases hu : u a with
    | true => rw [List.filter_cons_of_pos hu, List.flatMap_cons]
    | false => rw [List.filter_cons_of_neg (by simp [hu]), h.1 hu, List.nil_append]

variable (hd : IsPlain output d) (h : Overlays output d after)
  (hmd : ∀ extension ∈ config.includeExtensions, extension.toLower ≠ "md")

include hmd in
lemma filter_visit_of_isTarget {disk : Disk} {entry : Place} (htarget : IsTarget d output entry) (he : e ≠ .folder) :
    (visit disk depth levels path place (entry, e)).filter (config.includes ·.path) = [] := by
  obtain ⟨name, rfl⟩ | hnone := visit_cases place (entry, e)
  · obtain ⟨_, _, source, hsource⟩ := htarget
    obtain rfl : name = fileName source := (List.cons.inj (List.append_inj' hsource rfl).2).1
    rw [visit_concat]
    split
    · rfl
    · cases e with
      | folder => exact absurd rfl he
      | file content => simp [includes_join_fileName hmd]
      | link target => rfl
  · rw [hnone]
    rfl

include h in
lemma touched_cases (hfind : after.find? place = some e) (htouched : IsTouched d output place) :
    IsMissing d output place ∧ e = .folder ∨ IsTarget d output place ∧ e ≠ .folder := by
  obtain hmissing | htarget := htouched
  · obtain hgone | hfolder := h.missing _ hmissing
    · cases hgone.symm.trans hfind
    · exact Or.inl ⟨hmissing, (Option.some.inj (hfolder.symm.trans hfind)).symm⟩
  · refine Or.inr ⟨htarget, ?_⟩
    rintro rfl
    exact h.target _ htarget hfind

include h hmd in
lemma filter_visit_of_isTouched
    (hmissing : ∀ {levels path place}, IsMissing d output place →
      (walkFolder after depth levels path place).filter (config.includes ·.path) = [])
    {entry : Place × Entry} (hentry : entry ∈ after.entries) (htouched : IsTouched d output entry.1) :
    (visit after depth levels path place entry).filter (config.includes ·.path) = [] := by
  obtain ⟨entry, e⟩ := entry
  obtain ⟨hgone, rfl⟩ | ⟨htarget, he⟩ := touched_cases h (h.sound.find_eq _ hentry) htouched
  · obtain ⟨name, rfl⟩ | hnone := visit_cases place (entry, Entry.folder)
    · rw [visit_concat]
      split
      · rfl
      · exact hmissing hgone
    · rw [hnone]
      rfl
  · exact filter_visit_of_isTarget hmd htarget he

include hd h hmd in
/-- In a folder that was missing there is nothing but documents. -/
lemma filter_walkFolder_of_isMissing (hplace : IsMissing d output place) :
    (walkFolder after depth levels path place).filter (config.includes ·.path) = [] := by
  induction depth generalizing levels path place with
  | zero => rfl
  | succ depth ih =>
    rw [walkFolder_succ, List.filter_flatMap, List.flatMap_eq_nil_iff]
    intro entry hentry
    obtain ⟨name, hname⟩ | hnone := visit_cases place entry
    · apply filter_visit_of_isTouched h hmd ih hentry
      by_contra huntouched
      have hfind := h.sound.find_eq _ hentry
      rw [h.find?_eq huntouched, hname] at hfind
      cases hplace.1.symm.trans (hd.sound.find?_above hfind)
    · rw [hnone]
      rfl

variable {root : Place}
  (hgit : ∀ place content, place <+: root ∨ root <+: place → d.find? (place ++ [".git"]) = some (.file content) →
    ∀ path ∈ Level.gitLookups d content, Sidesteps d output path)

include hd h hmd hgit in
lemma filter_walkFolder_eq (hfolder : d.find? place = some .folder) (hpath : Sidesteps d output path)
    (hplace : d.placeOf path = place) (hroot : root <+: place) :
    (walkFolder after depth levels path place).filter (config.includes ·.path) =
      (walkFolder d depth levels path place).filter (config.includes ·.path) := by
  classical
  -- the induction is on how deep the walk may go; every folder it comes to was there before
  induction depth generalizing levels path place with
  | zero => rfl
  | succ depth ih =>
    have hlevel : Level.ofFolder after path = Level.ofFolder d path :=
      Level.ofFolder_eq hd h hpath fun content hfind => hgit place content (Or.inr hroot) (hplace ▸ hfind)
    have htouched : ∀ entry ∈ d.entries, decide (¬IsTouched d output entry.1) = false →
        (visit d depth (levels.push (Level.ofFolder d path)) path place entry).filter (config.includes ·.path) = [] := by
      rintro ⟨entry, e⟩ hentry hentry'
      have hfind : d.find? entry = some e := hd.sound.find_eq _ hentry
      have hcases : IsTouched d output entry := by simpa using hentry'
      obtain hmissing | htarget := hcases
      · cases hmissing.1.symm.trans hfind
      · apply filter_visit_of_isTarget hmd htarget
        rintro rfl
        exact htarget.2.1 hfind
    have htouched' : ∀ entry ∈ after.entries, decide (¬IsTouched d output entry.1) = false →
        (visit after depth (levels.push (Level.ofFolder d path)) path place entry).filter (config.includes ·.path) = [] :=
      fun entry hentry hentry' =>
        filter_visit_of_isTouched h hmd (filter_walkFolder_of_isMissing hd h hmd) hentry (by simpa using hentry')
    -- what is left on either disk are the same entries in the same order
    rw [walkFolder_succ, walkFolder_succ, List.filter_flatMap, List.filter_flatMap, hlevel,
      flatMap_eq_of_nil htouched', flatMap_eq_of_nil htouched, h.entries_eq]
    apply List.flatMap_congr
    rintro ⟨entry, e⟩ hentry
    obtain ⟨name, rfl⟩ | hnone := visit_cases place (entry, e)
    · have hmem := (List.mem_filter.mp hentry).1
      have hname : IsEntryName name := hd.sound.name _ hmem name (by simp)
      rw [visit_concat, visit_concat]
      split
      · rfl
      · cases e with
        | folder =>
          have hplace' : d.placeOf (Path.join path name) = place ++ [name] := by
            rw [placeOf_join_name hname, hplace]
          exact ih (hd.sound.find_eq _ hmem) (hpath.join_name hname) hplace' (hroot.trans (List.prefix_append _ _))
        | file content | link target => rfl
    · rw [hnone, hnone]

/-- Nothing that a scan of `root` goes by depends on what is exported to `output`: there are no links and no hidden
output folders, documents are no source files, git's rules are none of them, and where rules and settings are looked
for, no path goes up from an output folder that has yet to be made. -/
structure Undisturbed (config : Config.Scan) (env : Environment) (output root : String) (d : Disk) : Prop where
  plain : IsPlain output d
  extensions : ∀ extension ∈ config.includeExtensions, extension.toLower ≠ "md"
  rules : ∀ path, User.rulesFile? d env = some path → (d.placeOf path).dropLast ≠ d.placeOf output
  user : ∀ path ∈ User.lookups d env, Sidesteps d output path
  git : ∀ place content, place <+: d.placeOf root ∨ d.placeOf root <+: place →
    d.find? (place ++ [".git"]) = some (.file content) → ∀ path ∈ Level.gitLookups d content, Sidesteps d output path

variable {env : Environment} {root : String} {paths : List String}

lemma outerLevels_eq (hd : Undisturbed config env output root d) (h : Overlays output d after)
    (hfolder : d.find? (d.placeOf root) = some .folder) :
    outerLevels after env (d.placeOf root) = outerLevels d env (d.placeOf root) := by
  have hlevels : ∀ above ∈ placesAbove (d.placeOf root),
      Level.ofFolder after (absolutePath above) = Level.ofFolder d (absolutePath above) := by
    intro above habove
    obtain ⟨n, _, rfl⟩ := List.mem_map.mp habove
    have hnames := hd.plain.sound.names (hd.plain.sound.find?_take hfolder n)
    have hup : ".." ∉ (d.placeOf root).take n := fun hmem => (hnames ".." hmem).2.1 rfl
    have hpath : Sidesteps d output (absolutePath ((d.placeOf root).take n)) := by
      apply sidestepsFrom_of_not_mem
      rwa [steps_absolutePath hnames]
    apply Level.ofFolder_eq hd.plain h hpath
    rw [placeOf_absolutePath hnames]
    exact fun content => hd.git _ content (Or.inl (List.take_prefix _ _))
  rw [outerLevels, outerLevels, User.rules_eq hd.plain h hd.user hd.rules, List.map_congr_left hlevels]

lemma sidesteps_of_leads (hplain : IsPlain output d) {goal : Goal} {links : Nat} {asFolder followLast : Bool}
    (h : Leads d followLast links asFolder (d.start path) (steps path) goal) : Sidesteps d output path := by
  rintro before later hsteps ⟨hnone, _⟩
  -- what is gone up from is a folder
  have hgoes := h.goes_before hplain.linkFree hsteps.symm (by simp)
  cases hnone.symm.trans (hgoes.find?_eq hplain.sound (find?_start hplain.sound path))

lemma toLower_ne_of_mem_standard :
    ∀ extension ∈ Config.Scan.standard.includeExtensions, extension.toLower ≠ "md" := by
  have hletters : ∀ extension ∈ Config.Scan.standard.includeExtensions,
      extension.toList.map Char.toLower ≠ "md".toList := by decide
  intro extension hmem h
  have hlower : (String.map Char.toLower extension).toList = "md".toList := congrArg String.toList h
  rw [String.toList_map] at hlower
  exact hletters extension hmem hlower

lemma directory_eq_nil (hplace : d.folderPlace? root = some place) (hwalk : walk d env root place = []) :
    directory d env config root = .ok [] := by
  refine directory_eq_ok_iff.mpr ⟨place, hplace, ?_⟩
  rw [hwalk, select, List.filter_nil, List.map_nil, List.mergeSort_nil]

lemma directory_eq_singleton {extension : String} {size : Nat} (hplace : d.folderPlace? root = some place)
    (hwalk : walk d env root place = [⟨path, size⟩]) (hextension : Path.extension? path = some extension)
    (hmem : extension ∈ config.includeExtensions) (hfolders : isExcluded config root path = false)
    (hsize : size ≤ config.maxFileSize) : directory d env config root = .ok [path] := by
  have hincluded : config.includes path = true := by
    rw [Config.Scan.includes, hextension]
    exact List.any_eq_true.mpr ⟨extension, hmem, beq_self_eq_true _⟩
  have hadmitted : isAdmitted config root ⟨path, size⟩ = true := by simp [isAdmitted, hincluded, hfolders, hsize]
  refine directory_eq_ok_iff.mpr ⟨place, hplace, ?_⟩
  rw [hwalk, select, List.filter_cons_of_pos hadmitted, List.filter_nil, List.map_singleton, List.mergeSort_singleton]

lemma filter_walk_eq (hd : Undisturbed config env output root d) (h : Overlays output d after)
    (hplace : d.folderPlace? root = some place) :
    (walk after env root place).filter (config.includes ·.path) = (walk d env root place).filter (config.includes ·.path) := by
  rw [walk, walk]
  split
  · rfl
  · obtain ⟨_, hleads⟩ := leads_of_folderPlace? hplace
    obtain rfl : place = d.placeOf root := by
      rw [placeOf_eq]
      exact hleads.place_eq_foldl hd.plain.linkFree
    have hfolder : d.find? (d.placeOf root) = some .folder := by
      rw [placeOf_eq]
      exact (hleads.goes hd.plain.linkFree rfl).find?_eq hd.plain.sound (find?_start hd.plain.sound root)
    have hdeep : ∀ {disk : Disk} {deeper : Nat}, depthLimit disk ≤ deeper →
        walkFolder disk (depthLimit disk) (outerLevels disk env (d.placeOf root)) root (d.placeOf root) =
          walkFolder disk deeper (outerLevels disk env (d.placeOf root)) root (d.placeOf root) := by
      intro disk deeper hle
      refine (walkFolder_of_le (fun entry hentry => ?_) hle).symm
      have hlength := length_lt_depthLimit hentry
      omega
    rw [hdeep (Nat.le_max_left (depthLimit after) (depthLimit d)), hdeep (Nat.le_max_right (depthLimit after) (depthLimit d)),
      outerLevels_eq hd h hfolder]
    exact filter_walkFolder_eq hd.plain h hd.extensions hd.git hfolder (sidesteps_of_leads hd.plain hleads) rfl
      (List.prefix_refl _)

/-- A scan finds the same files before and after documents have been exported. -/
theorem directory_eq (hd : Undisturbed config env output root d) (h : Overlays output d after)
    (hpaths : directory d env config root = .ok paths) : directory after env config root = .ok paths := by
  obtain ⟨place, hplace, hselected⟩ := directory_eq_ok_iff.mp hpaths
  have hplace' : after.folderPlace? root = some place := by
    obtain ⟨husable, hleads⟩ := leads_of_folderPlace? hplace
    have hgoes : after.Goes (after.start root) (steps root) := by
      rw [h.start_eq]
      exact (hleads.goes hd.plain.linkFree rfl).keeps h.keeps
    have hresolve : after.resolve true root = .ok _ := resolve_eq_ok_iff.mpr ⟨husable, hgoes.leads⟩
    rw [folderPlace?, hresolve, h.start_eq]
    exact congrArg some (hleads.place_eq_foldl hd.plain.linkFree).symm
  have hadmitted : ∀ files : List Found, files.filter (isAdmitted config root) =
      (files.filter (config.includes ·.path)).filter fun f =>
        !isExcluded config root f.path && f.size ≤ config.maxFileSize := by
    intro files
    rw [List.filter_filter]
    apply List.filter_congr
    intro f _
    rw [isAdmitted, Bool.and_assoc, Bool.and_comm]
  rw [directory_eq_ok_iff]
  refine ⟨place, hplace', ?_⟩
  rw [select, hadmitted] at hselected ⊢
  rw [filter_walk_eq hd h hplace, hselected]

lemma exists_name_of_mem_walkFolder {f : Found} (hd : d.Sound) (hpath : Sidesteps d output path)
    (hf : f ∈ walkFolder d depth levels path place) :
    ∃ folder name, f.path = Path.join folder name ∧ IsEntryName name ∧ Sidesteps d output folder := by
  induction depth generalizing levels path place with
  | zero => cases hf
  | succ depth ih =>
    rw [walkFolder_succ] at hf
    obtain ⟨⟨entry, e⟩, hentry, hvisit⟩ := List.mem_flatMap.mp hf
    obtain ⟨name, rfl⟩ | hnone := visit_cases place (entry, e)
    · have hname : IsEntryName name := hd.name _ hentry name (by simp)
      rw [visit_concat] at hvisit
      split at hvisit
      · cases hvisit
      · cases e with
        | folder => exact ih (hpath.join_name hname) hvisit
        | file content =>
          rw [List.mem_singleton.mp hvisit]
          exact ⟨path, name, rfl, hname, hpath⟩
        | link target => cases hvisit
    · rw [hnone] at hvisit
      cases hvisit

/-- The files that a scan finds hold the same before and after documents have been exported. -/
theorem read_eq_of_mem_directory (hd : Undisturbed config env output root d) (h : Overlays output d after)
    (hpaths : directory d env config root = .ok paths) (hpath : path ∈ paths) :
    (after.read path).toOption = (d.read path).toOption := by
  obtain ⟨place, hplace, hselected⟩ := directory_eq_ok_iff.mp hpaths
  rw [← hselected, select, List.mem_mergeSort] at hpath
  obtain ⟨f, hf, rfl⟩ := List.mem_map.mp hpath
  obtain ⟨hwalk, hadmitted⟩ := List.mem_filter.mp hf
  have hincluded : config.includes f.path = true := by
    rw [isAdmitted, Bool.and_eq_true, Bool.and_eq_true] at hadmitted
    exact hadmitted.1.1
  rw [walk] at hwalk
  split at hwalk
  · cases hwalk
  · have hroot := sidesteps_of_leads hd.plain (leads_of_folderPlace? hplace).2
    obtain ⟨folder, name, hjoin, hname, hfolder⟩ := exists_name_of_mem_walkFolder hd.plain.sound hroot hwalk
    rw [hjoin] at hincluded ⊢
    apply h.toOption_read hd.plain (hfolder.join_name hname)
    rintro ⟨_, _, source, hsource⟩
    rw [placeOf_join_name hname] at hsource
    rw [(List.cons.inj (List.append_inj' hsource rfl).2).1, includes_join_fileName hd.extensions] at hincluded
    cases hincluded

end Scan

end CodeOutline
