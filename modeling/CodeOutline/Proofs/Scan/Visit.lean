import CodeOutline.Proofs.Disk.Above
import CodeOutline.Scan.Directory

/-! The walk of a folder, one visit for each entry of the disk. -/

namespace CodeOutline.Scan

open Ignore Disk

variable {d : Disk} {path name root : String} {place : Place} {levels : Levels} {depth : Nat} {e : Entry}
  {config : Config.Scan} {env : Environment} {paths : List String}

/-- What the visit of the folder at `place` finds at an entry, given the levels that hold in the folder. -/
def visit (d : Disk) (depth : Nat) (levels : Levels) (path : String) (place : Place) : Place × Entry → List Found
  | (entry, e) =>
    match entry.getLast? with
    | none => []
    | some name =>
      if entry.dropLast ≠ place ∨ levels.skips (Path.join path name) name (e = .folder) then []
      else
        match e with
        | .folder => walkFolder d depth levels (Path.join path name) (place ++ [name])
        | .file content => [⟨Path.join path name, content.length⟩]
        | .link _ => []

lemma visit_of_ne {entry : Place} (h : entry.dropLast ≠ place) : visit d depth levels path place (entry, e) = [] := by
  rw [visit]
  cases entry.getLast? with
  | none => rfl
  | some name => exact if_pos (Or.inl h)

lemma visit_concat (d : Disk) (depth : Nat) (levels : Levels) (path : String) (place : Place) (name : String) (e : Entry) :
    visit d depth levels path place (place ++ [name], e) =
      if levels.skips (Path.join path name) name (e = .folder) then []
      else
        match e with
        | .folder => walkFolder d depth levels (Path.join path name) (place ++ [name])
        | .file content => [⟨Path.join path name, content.length⟩]
        | .link _ => [] := by
  simp [visit]

lemma flatMap_filterMap {α β γ : Type} (g : α → Option β) (f : β → List γ) (l : List α) :
    (l.filterMap g).flatMap f = l.flatMap fun a => (g a).elim [] f := by
  induction l with
  | nil => rfl
  | cons a l ih =>
    rw [List.filterMap_cons, List.flatMap_cons, ← ih]
    cases g a with
    | none => rfl
    | some b => rfl

lemma walkFolder_succ (d : Disk) (depth : Nat) (levels : Levels) (path : String) (place : Place) :
    walkFolder d (depth + 1) levels path place =
      d.entries.flatMap (visit d depth (levels.push (Level.ofFolder d path)) path place) := by
  rw [walkFolder, children, flatMap_filterMap]
  congr 1
  funext ⟨entry, e⟩
  rw [visit]
  cases hname : entry.getLast? with
  | none => simp [hname]
  | some name =>
    by_cases hplace : entry.dropLast = place
    · cases e <;> simp [hname, hplace]
    · simp [hname, hplace]

lemma visit_cases (place : Place) (entry : Place × Entry) :
    (∃ name, entry.1 = place ++ [name]) ∨ ∀ d depth levels path, visit d depth levels path place entry = [] := by
  obtain ⟨entry, e⟩ := entry
  obtain rfl | ⟨above, name, rfl⟩ := List.eq_nil_or_concat entry
  · exact Or.inr fun _ _ _ _ => rfl
  · by_cases hplace : above = place
    · exact Or.inl ⟨name, by rw [hplace, List.concat_eq_append]⟩
    · exact Or.inr fun d depth levels path => visit_of_ne (by simpa using hplace)

lemma walkFolder_of_le {deeper : Nat} (hdepth : ∀ entry ∈ d.entries, entry.1.length < place.length + depth)
    (hle : depth ≤ deeper) : walkFolder d deeper levels path place = walkFolder d depth levels path place := by
  induction depth generalizing deeper levels path place with
  | zero =>
    cases deeper with
    | zero => rfl
    | succ deeper =>
      rw [walkFolder_succ, walkFolder, List.flatMap_eq_nil_iff]
      intro entry hentry
      obtain ⟨name, hname⟩ | hnone := visit_cases place entry
      · have hlength := hdepth entry hentry
        simp [hname] at hlength
      · exact hnone d deeper _ path
  | succ depth ih =>
    cases deeper with
    | zero => cases hle
    | succ deeper =>
      rw [walkFolder_succ, walkFolder_succ]
      apply List.flatMap_congr
      rintro ⟨entry, e⟩ _
      obtain ⟨name, rfl⟩ | hnone := visit_cases place (entry, e)
      · rw [visit_concat, visit_concat, ih (fun entry hentry => ?_) (Nat.le_of_succ_le_succ hle)]
        have hlength := hdepth entry hentry
        simp
        omega
      · rw [hnone, hnone]

lemma length_lt_depthLimit {entry : Place × Entry} (h : entry ∈ d.entries) : entry.1.length < depthLimit d := by
  have hmax : ∀ (lengths : List Nat) (first : Nat), (∀ n ∈ lengths, n ≤ lengths.foldl max first) ∧ first ≤ lengths.foldl max first := by
    intro lengths
    induction lengths with
    | nil => simp
    | cons n rest ih =>
      intro first
      obtain ⟨hrest, hfirst⟩ := ih (max first n)
      rw [List.foldl_cons, List.forall_mem_cons]
      exact ⟨⟨(Nat.le_max_right first n).trans hfirst, hrest⟩, (Nat.le_max_left first n).trans hfirst⟩
  exact Nat.lt_succ_of_le ((hmax _ 0).1 _ (List.mem_map_of_mem h))

lemma resolve_of_folderPlace? (hplace : d.folderPlace? root = some place) :
    d.resolve true root = .ok (.entry place .folder) := by
  rw [folderPlace?] at hplace
  cases hresolve : d.resolve true root with
  | error failure => simp [hresolve] at hplace
  | ok goal =>
    cases goal with
    | vacant => simp [hresolve] at hplace
    | entry found e =>
      cases e with
      | folder =>
        simp only [hresolve] at hplace
        rw [Option.some.inj hplace]
      | file | link => simp [hresolve] at hplace

lemma leads_of_folderPlace? (hplace : d.folderPlace? root = some place) :
    IsUsable root ∧ Leads d true mostLinks (true && endsAsFolder root) (d.start root) (steps root) (.entry place .folder) :=
  resolve_eq_ok_iff.mp (resolve_of_folderPlace? hplace)

lemma directory_eq_ok_iff : directory d env config root = .ok paths ↔
    ∃ place, d.folderPlace? root = some place ∧ select config root (walk d env root place) = paths := by
  rw [directory]
  cases hplace : d.folderPlace? root with
  | none => split <;> simp
  | some place => simp [exists?_of_resolve (resolve_of_folderPlace? hplace)]

end CodeOutline.Scan
