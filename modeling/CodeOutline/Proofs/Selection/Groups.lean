import CodeOutline.Selection
import Mathlib.Data.List.Induction
import Mathlib.Data.List.Perm.Basic

/-! The groups that files fall into, one file after the other: a group for each folder in the order in which the folders
are met, with the folder's files in their order. -/

namespace CodeOutline.Selection

section

variable {α β : Type} [DecidableEq β] {keys : List β} {items : List α} {key : α → β}

lemma eraseDups_concat (keys : List β) (k : β) :
    (keys ++ [k]).eraseDups = if k ∈ keys then keys.eraseDups else keys.eraseDups ++ [k] := by
  rw [List.eraseDups_append, List.cons_removeAll, List.nil_removeAll]
  by_cases h : k ∈ keys <;> simp [h, List.eraseDups_cons]

lemma nodup_eraseDups (keys : List β) : keys.eraseDups.Nodup := by
  induction keys using List.reverseRecOn with
  | nil => exact List.nodup_nil
  | append_singleton keys k ih =>
    rw [eraseDups_concat]
    split
    · exact ih
    · next h =>
      refine List.nodup_append.mpr ⟨ih, List.pairwise_singleton _ k, fun a ha b hb hab => h ?_⟩
      rw [← List.mem_singleton.mp hb, ← hab]
      exact List.mem_eraseDups.mp ha

lemma perm_flatMap_filter_mem (hkeys : keys.Nodup) :
    (keys.flatMap fun k => items.filter (key · = k)).Perm (items.filter (key · ∈ keys)) := by
  induction keys with
  | nil => simp
  | cons k keys ih =>
    obtain ⟨hk, hkeys⟩ := List.nodup_cons.mp hkeys
    have hown : (items.filter (key · ∈ k :: keys)).filter (key · = k) = items.filter (key · = k) := by
      rw [List.filter_filter]
      refine List.filter_congr fun item _ => ?_
      by_cases h : key item = k <;> simp [h]
    have hothers : (items.filter (key · ∈ k :: keys)).filter (!key · = k) = items.filter (key · ∈ keys) := by
      rw [List.filter_filter]
      refine List.filter_congr fun item _ => ?_
      by_cases h : key item = k <;> simp [h, hk]
    have hboth := List.filter_append_perm (key · = k) (items.filter (key · ∈ k :: keys))
    rw [hown, hothers] at hboth
    exact ((ih hkeys).append_left _).trans hboth

/-- Grouping by keys that are all different loses and repeats nothing. -/
lemma perm_flatMap_filter (hkeys : keys.Nodup) (h : ∀ item ∈ items, key item ∈ keys) :
    (keys.flatMap fun k => items.filter (key · = k)).Perm items := by
  have hall : items.filter (key · ∈ keys) = items := List.filter_eq_self.mpr fun item hitem => by simpa using h item hitem
  have hperm := @perm_flatMap_filter_mem α β _ keys items key hkeys
  rwa [hall] at hperm

end

variable {member : String × Nat} {groups : List FileGroup}

lemma place_of_notMem (h : folderOf member.1 ∉ groups.map FileGroup.folder) :
    place member groups = groups ++ [⟨folderOf member.1, [member]⟩] := by
  induction groups with
  | nil => rfl
  | cons group groups ih =>
    obtain ⟨hgroup, hgroups⟩ := not_or.mp (mt List.mem_cons.mpr h)
    rw [place, if_neg (Ne.symm hgroup), ih hgroups, List.cons_append]

lemma place_of_mem (hnodup : (groups.map FileGroup.folder).Nodup) (h : folderOf member.1 ∈ groups.map FileGroup.folder) :
    place member groups = groups.map fun group =>
      ⟨group.folder, group.members ++ if group.folder = folderOf member.1 then [member] else []⟩ := by
  induction groups with
  | nil => cases h
  | cons group groups ih =>
    obtain ⟨hgroup, hgroups⟩ := List.nodup_cons.mp hnodup
    by_cases hown : group.folder = folderOf member.1
    · have hothers : ∀ other ∈ groups, other.folder ≠ folderOf member.1 := fun other hother heq =>
        hgroup (hown ▸ heq ▸ List.mem_map_of_mem hother)
      have hrest : groups = groups.map fun group =>
          ⟨group.folder, group.members ++ if group.folder = folderOf member.1 then [member] else []⟩ := by
        conv_lhs => rw [← List.map_id groups]
        refine List.map_congr_left fun other hother => ?_
        rw [if_neg (hothers other hother), List.append_nil]
        rfl
      rw [place, if_pos hown, List.map_cons, if_pos hown, ← hrest]
    · have hmem := (List.mem_cons.mp h).resolve_left (Ne.symm hown)
      rw [place, if_neg hown, List.map_cons, if_neg hown, List.append_nil, ih hgroups hmem]

def foldersOf (members : List (String × Nat)) : List String := (members.map fun member => folderOf member.1).eraseDups

/-- The groups of files that have been met in this order. -/
def grouped (members : List (String × Nat)) : List FileGroup :=
  (foldersOf members).map fun folder => ⟨folder, members.filter (folderOf ·.1 = folder)⟩

lemma map_folder_grouped (members : List (String × Nat)) : (grouped members).map FileGroup.folder = foldersOf members := by
  rw [grouped, List.map_map]
  exact List.map_id _

lemma nodup_foldersOf (members : List (String × Nat)) : (foldersOf members).Nodup := nodup_eraseDups _

lemma filter_folder_concat (members : List (String × Nat)) (member : String × Nat) (folder : String) :
    (members ++ [member]).filter (folderOf ·.1 = folder) =
      members.filter (folderOf ·.1 = folder) ++ if folder = folderOf member.1 then [member] else [] := by
  rw [List.filter_append, List.filter_singleton]
  by_cases h : folder = folderOf member.1 <;> simp [h, eq_comm]

lemma place_grouped (members : List (String × Nat)) (member : String × Nat) :
    place member (grouped members) = grouped (members ++ [member]) := by
  have hfolders : foldersOf (members ++ [member]) =
      if folderOf member.1 ∈ foldersOf members then foldersOf members
      else foldersOf members ++ [folderOf member.1] := by
    simp only [foldersOf, List.map_append, List.map_singleton, eraseDups_concat, List.mem_eraseDups]
  by_cases hmem : folderOf member.1 ∈ foldersOf members
  · rw [place_of_mem (map_folder_grouped members ▸ nodup_foldersOf members) (map_folder_grouped members ▸ hmem),
      grouped, grouped, hfolders, if_pos hmem, List.map_map]
    refine List.map_congr_left fun folder _ => ?_
    rw [filter_folder_concat]
    rfl
  · have hold : ∀ folder ∈ foldersOf members,
        (members ++ [member]).filter (folderOf ·.1 = folder) = members.filter (folderOf ·.1 = folder) := by
      intro folder hfolder
      have hne : folder ≠ folderOf member.1 := fun heq => hmem (heq ▸ hfolder)
      rw [filter_folder_concat, if_neg hne, List.append_nil]
    have hnew : (members ++ [member]).filter (folderOf ·.1 = folderOf member.1) = [member] := by
      have hnone : members.filter (folderOf ·.1 = folderOf member.1) = [] := by
        refine List.filter_eq_nil_iff.mpr fun other hother heq => hmem (List.mem_eraseDups.mpr ?_)
        rw [← of_decide_eq_true heq]
        exact List.mem_map_of_mem hother
      rw [filter_folder_concat, if_pos rfl, hnone, List.nil_append]
    rw [place_of_notMem (map_folder_grouped members ▸ hmem), grouped, grouped, hfolders, if_neg hmem, List.map_append,
      List.map_singleton, hnew]
    congr 1
    exact List.map_congr_left fun folder hfolder => by rw [hold folder hfolder]

lemma foldl_place_grouped (members rest : List (String × Nat)) :
    rest.foldl (fun groups member => place member groups) (grouped members) = grouped (members ++ rest) := by
  induction rest generalizing members with
  | nil => rw [List.append_nil, List.foldl_nil]
  | cons member rest ih => rw [List.foldl_cons, place_grouped, ih, List.append_assoc, List.singleton_append]

lemma groupsOf_eq (files : List String) : groupsOf files = grouped files.zipIdx := foldl_place_grouped [] files.zipIdx

lemma foldersOf_zipIdx (files : List String) : foldersOf files.zipIdx = (files.map folderOf).eraseDups := by
  have hpaths : files.zipIdx.map (fun member => folderOf member.1) = (files.zipIdx.map Prod.fst).map folderOf := by
    rw [List.map_map]
    rfl
  rw [foldersOf, hpaths, List.zipIdx_map_fst]

lemma perm_members_groupsOf (files : List String) : ((groupsOf files).flatMap FileGroup.members).Perm files.zipIdx := by
  rw [groupsOf_eq, grouped, List.flatMap_map]
  refine perm_flatMap_filter (nodup_foldersOf _) fun member hmember => ?_
  exact List.mem_eraseDups.mpr (List.mem_map_of_mem hmember)

end CodeOutline.Selection
