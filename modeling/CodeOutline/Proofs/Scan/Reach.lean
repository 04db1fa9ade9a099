import CodeOutline.Proofs.Scan.Visit
import Mathlib.Data.List.Nodup

/-! Which entries below a folder a walk comes to, and that it comes to each of them once. -/

namespace CodeOutline

namespace Disk

/-- A disk that lists each entry once. -/
structure IsTree (d : Disk) : Prop extends d.Sound where
  nodup : (d.entries.map (·.1)).Nodup

instance (d : Disk) : Decidable d.IsTree :=
  decidable_of_iff (d.Sound ∧ (d.entries.map (·.1)).Nodup) ⟨fun ⟨hsound, hnodup⟩ => ⟨hsound, hnodup⟩, fun h => ⟨h.toSound, h.nodup⟩⟩

end Disk

namespace Path

open Disk

variable {folder : String} {names : List String}

lemma components_foldl_join (h : ∀ name ∈ names, IsEntryName name) (folder : String) :
    components (names.foldl join folder) = components folder ++ names.map .normal := by
  induction names generalizing folder with
  | nil => exact (List.append_nil _).symm
  | cons name rest ih =>
    rw [List.forall_mem_cons] at h
    rw [List.foldl_cons, ih h.2, h.1.components_join, List.append_assoc]
    rfl

lemma opened_append {name : String} (h : IsEntryName name) (folder : String) : opened (folder ++ name) = folder ++ name ++ "/" := by
  obtain ⟨_, _, hne, hslash⟩ := h
  refine if_neg (not_or.mpr ⟨fun hempty => ?_, fun hlast => ?_⟩)
  · exact hne (String.append_eq_empty_iff.mp hempty).2
  · rw [String.toList_append, List.getLast?_append_of_ne_nil _ (mt String.toList_eq_nil_iff.mp hne)] at hlast
    exact hslash (List.mem_of_getLast? hlast)

lemma foldl_join_eq (h : ∀ name ∈ names, IsEntryName name) (hne : names ≠ []) (folder : String) :
    names.foldl join folder = join folder ("/".intercalate names) := by
  induction names generalizing folder with
  | nil => exact absurd rfl hne
  | cons name rest ih =>
    cases rest with
    | nil => rfl
    | cons next rest =>
      have hrest := (List.forall_mem_cons.mp h).2
      have hname := h name List.mem_cons_self
      have hpiece : ∀ {names : List String}, (∀ name ∈ names, IsEntryName name) → isAbsolute ("/".intercalate names) = false :=
        fun h => isAbsolute_intercalate fun name hname => (h name hname).2.2
      rw [List.foldl_cons, ih hrest (by simp), join_eq _ (hpiece hrest), join_eq _ (hpiece h), join_eq _ hname.isAbsolute_eq,
        opened_append hname, String.intercalate_cons_cons]
      simp only [String.append_assoc]

end Path

namespace Scan

open Ignore Disk

variable {d : Disk} {path name root : String} {place : Place} {levels : Levels} {depth : Nat} {e : Entry} {f : Found}
  {names : List String} {content : List UInt8}

/-- From the folder at `place`, which `path` leads to, a walk comes to the entry behind `names` when the rules skip
neither the entry nor a folder on the way. -/
inductive Reaches (d : Disk) : Levels → String → Place → List String → Entry → Prop
  | entry {levels : Levels} {path : String} {place : Place} {name : String} {e : Entry} :
      d.find? (place ++ [name]) = some e →
      (levels.push (Level.ofFolder d path)).skips (Path.join path name) name (e = .folder) = false →
      Reaches d levels path place [name] e
  | deeper {levels : Levels} {path : String} {place : Place} {name : String} {names : List String} {e : Entry} :
      d.find? (place ++ [name]) = some .folder →
      (levels.push (Level.ofFolder d path)).skips (Path.join path name) name true = false →
      Reaches d (levels.push (Level.ofFolder d path)) (Path.join path name) (place ++ [name]) names e →
      Reaches d levels path place (name :: names) e

lemma Reaches.ne_nil (h : Reaches d levels path place names e) : names ≠ [] := by
  cases h <;> simp

lemma Reaches.find? (h : Reaches d levels path place names e) : d.find? (place ++ names) = some e := by
  induction h with
  | entry hfind => exact hfind
  | deeper _ _ _ ih => simpa using ih

lemma Reaches.isEntryName (h : Reaches d levels path place names e) (hd : d.Sound) : ∀ name ∈ names, IsEntryName name :=
  fun _ hname => hd.names h.find? _ (List.mem_append_right place hname)

lemma Reaches.lt_depth (h : Reaches d levels path place names e)
    (hdepth : ∀ entry ∈ d.entries, entry.1.length < place.length + depth) : names.length < depth := by
  have hlength := hdepth _ (mem_entries_of_find? (by simp [h.ne_nil]) h.find?)
  rw [List.length_append] at hlength
  omega

lemma mem_walkFolder_of_reaches (h : Reaches d levels path place names e)
    (hdepth : ∀ entry ∈ d.entries, entry.1.length < place.length + depth) (he : e = .file content) :
    ⟨names.foldl Path.join path, content.length⟩ ∈ walkFolder d depth levels path place := by
  induction h generalizing depth with
  | entry hfind hskips =>
    obtain ⟨depth, rfl⟩ := Nat.exists_eq_add_one.mpr (Nat.zero_lt_of_lt ((Reaches.entry hfind hskips).lt_depth hdepth))
    rw [walkFolder_succ, List.mem_flatMap]
    refine ⟨_, mem_entries_of_find? (by simp) hfind, ?_⟩
    subst he
    rw [visit_concat, hskips]
    exact List.mem_singleton_self _
  | @deeper levels path place name names e hfind hskips hdeeper ih =>
    obtain ⟨depth, rfl⟩ := Nat.exists_eq_add_one.mpr (Nat.zero_lt_of_lt ((Reaches.deeper hfind hskips hdeeper).lt_depth hdepth))
    rw [walkFolder_succ, List.mem_flatMap]
    refine ⟨_, mem_entries_of_find? (by simp) hfind, ?_⟩
    rw [visit_concat, if_neg (by simp [hskips])]
    refine ih (fun entry hentry => ?_) he
    have hlength := hdepth entry hentry
    rw [List.length_append, List.length_singleton]
    omega

lemma exists_reaches_of_mem_visit (hfind : d.find? (place ++ [name]) = some e)
    (hwalk : ∀ levels path place, f ∈ walkFolder d depth levels path place →
      ∃ names content, Reaches d levels path place names (.file content) ∧ f = ⟨names.foldl Path.join path, content.length⟩)
    (h : f ∈ visit d depth (levels.push (Level.ofFolder d path)) path place (place ++ [name], e)) :
    ∃ names content, Reaches d levels path place (name :: names) (.file content) ∧
      f = ⟨(name :: names).foldl Path.join path, content.length⟩ := by
  rw [visit_concat] at h
  split at h
  · cases h
  · rename_i hskips
    rw [Bool.not_eq_true] at hskips
    cases e with
    | folder =>
      obtain ⟨names, content, hreaches, rfl⟩ := hwalk _ _ _ h
      exact ⟨names, content, .deeper hfind hskips hreaches, rfl⟩
    | file content => exact ⟨[], content, .entry hfind hskips, List.mem_singleton.mp h⟩
    | link target => cases h

lemma exists_reaches_of_mem_walkFolder (hd : d.Sound) (h : f ∈ walkFolder d depth levels path place) :
    ∃ names content, Reaches d levels path place names (.file content) ∧ f = ⟨names.foldl Path.join path, content.length⟩ := by
  induction depth generalizing levels path place with
  | zero => cases h
  | succ depth ih =>
    rw [walkFolder_succ, List.mem_flatMap] at h
    obtain ⟨⟨entry, e⟩, hentry, hf⟩ := h
    obtain ⟨name, rfl⟩ | hnone := visit_cases place (entry, e)
    · obtain ⟨names, content, h⟩ := exists_reaches_of_mem_visit (hd.find_eq _ hentry) (fun _ _ _ => ih) hf
      exact ⟨name :: names, content, h⟩
    · rw [hnone] at hf
      cases hf

lemma mem_walkFolder_iff (hd : d.Sound) (hdepth : ∀ entry ∈ d.entries, entry.1.length < place.length + depth) :
    f ∈ walkFolder d depth levels path place ↔
      ∃ names content, Reaches d levels path place names (.file content) ∧ f = ⟨names.foldl Path.join path, content.length⟩ := by
  refine ⟨exists_reaches_of_mem_walkFolder hd, ?_⟩
  rintro ⟨names, content, hreaches, rfl⟩
  exact mem_walkFolder_of_reaches hreaches hdepth rfl

lemma exists_name_of_mem_visit (hd : d.Sound) {entry : Place × Entry} (hentry : entry ∈ d.entries)
    (hf : f ∈ visit d depth (levels.push (Level.ofFolder d path)) path place entry) :
    ∃ name rest, entry.1 = place ++ [name] ∧ Path.components f.path = Path.components path ++ .normal name :: rest := by
  obtain ⟨entry, e⟩ := entry
  obtain ⟨name, rfl⟩ | hnone := visit_cases place (entry, e)
  · obtain ⟨names, content, hreaches, rfl⟩ := exists_reaches_of_mem_visit (hd.find_eq _ hentry)
      (fun _ _ _ => exists_reaches_of_mem_walkFolder hd) hf
    exact ⟨name, _, rfl, Path.components_foldl_join (hreaches.isEntryName hd) path⟩
  · rw [hnone] at hf
    cases hf

/-- What is found at different entries of a folder differs right behind the folder's path. -/
lemma disjoint_visit (hd : d.Sound) {entry other : Place × Entry} (hentry : entry ∈ d.entries) (hother : other ∈ d.entries)
    (hne : entry.1 ≠ other.1) :
    List.Disjoint (visit d depth (levels.push (Level.ofFolder d path)) path place entry)
      (visit d depth (levels.push (Level.ofFolder d path)) path place other) := by
  intro f hf hf'
  obtain ⟨name, rest, hplace, hcomponents⟩ := exists_name_of_mem_visit hd hentry hf
  obtain ⟨name', rest', hplace', hcomponents'⟩ := exists_name_of_mem_visit hd hother hf'
  obtain ⟨hname, -⟩ := List.cons.inj (List.append_cancel_left (hcomponents.symm.trans hcomponents'))
  exact hne (hplace.trans (Path.Component.normal.inj hname ▸ hplace'.symm))

lemma nodup_walkFolder (hd : d.IsTree) (depth : Nat) (levels : Levels) (path : String) (place : Place) :
    (walkFolder d depth levels path place).Nodup := by
  induction depth generalizing levels path place with
  | zero => exact List.nodup_nil
  | succ depth ih =>
    rw [walkFolder_succ, List.nodup_flatMap]
    constructor
    · rintro ⟨entry, e⟩ _
      obtain ⟨name, rfl⟩ | hnone := visit_cases place (entry, e)
      · rw [visit_concat]
        split
        · exact List.nodup_nil
        · cases e with
          | folder => exact ih _ _ _
          | file content => exact List.nodup_singleton _
          | link target => exact List.nodup_nil
      · rw [hnone]
        exact List.nodup_nil
    · refine (List.pairwise_map.mp hd.nodup).imp_of_mem ?_
      exact fun hentry hother hne => disjoint_visit hd.toSound hentry hother hne

end Scan

end CodeOutline
