import CodeOutline.Proofs.Document.Overlay

/-! How far an export reaches: it names one file in the output folder, whatever the source is called, and no other file
is changed. -/

namespace CodeOutline

namespace Disk

variable {d made after : Disk} {followLast asFolder : Bool} {links : Nat} {here place : Place} {steps : List String}
  {goal : Goal} {path : String} {content : List UInt8}

def SameBesidesFolders (d after : Disk) : Prop :=
  ∀ place e, e ≠ .folder → (after.find? place = some e ↔ d.find? place = some e)

/-- A file at this place is on both disks, with the same content, or on neither. -/
def SameFile (d after : Disk) (place : Place) : Prop :=
  ∀ content, after.find? place = some (.file content) ↔ d.find? place = some (.file content)

/-- An empty path stands for the working folder. -/
def LeadsInto (d : Disk) (folder : String) (place : Place) : Prop :=
  folder = "" ∧ place = d.current ∨ d.resolve true folder = .ok (.entry place .folder)

lemma SameBesidesFolders.refl (d : Disk) : d.SameBesidesFolders d := fun _ _ _ => Iff.rfl

lemma SameBesidesFolders.trans (h : d.SameBesidesFolders made) (h' : made.SameBesidesFolders after) :
    d.SameBesidesFolders after := fun place e he => (h' place e he).trans (h place e he)

lemma SameBesidesFolders.sameFile (h : d.SameBesidesFolders after) (place : Place) : d.SameFile after place :=
  fun content => h place _ (by simp)

lemma sameBesidesFolders_makeFolder (h : d.makeFolder path = .ok made) : d.SameBesidesFolders made := by
  obtain ⟨place, asFolder, hresolve, rfl⟩ := exists_of_makeFolder h
  have hnone : d.find? place = none := (resolve_eq_ok_iff.mp hresolve).2.stands
  have hroot : place ≠ [] := Takes.ne_root (Or.inl hnone)
  intro other e he
  by_cases hsame : other = place
  · rw [hsame, find?_put_self hroot, hnone]
    simp [he.symm]
  · rw [find?_put_of_ne hsame]

/-- A way that does not follow a link at its end goes the same way or ends at that link. -/
lemma Leads.unfollow (h : Leads d followLast links asFolder here steps goal) :
    Leads d false links asFolder here steps goal ∨
      ∃ place target, Leads d false links asFolder here steps (.entry place (.link target)) := by
  induction h with
  | here => exact Or.inl .here
  | stay _ ih => exact ih.imp .stay fun ⟨place, target, h⟩ => ⟨place, target, .stay h⟩
  | up _ ih => exact ih.imp .up fun ⟨place, target, h⟩ => ⟨place, target, .up h⟩
  | vacant hname hfind => exact Or.inl (.vacant hname hfind)
  | down hname hfind _ ih =>
    exact ih.imp (.down hname hfind) fun ⟨place, target, h⟩ => ⟨place, target, .down hname hfind h⟩
  | file hname hfind => exact Or.inl (.file hname hfind)
  | link hname _ hfind => exact Or.inr ⟨_, _, .link hname rfl hfind⟩
  | @through _ asFolder _ _ _ rest _ hname hfind htarget _ _ ih =>
    by_cases hends : rest = [] ∧ asFolder = false
    · obtain ⟨rfl, rfl⟩ := hends
      exact Or.inr ⟨_, _, .link hname rfl hfind⟩
    · have hgoes : ¬(rest = [] ∧ false = false ∧ asFolder = false) := by simpa using hends
      exact ih.imp (.through hname hfind htarget hgoes) fun ⟨place, target, h⟩ =>
        ⟨place, target, .through hname hfind htarget hgoes h⟩

lemma resolve_unfollow (h : d.resolve true path = .ok goal) (hends : endsAsFolder path = false) :
    d.resolve false path = .ok goal ∨ ∃ place target, d.resolve false path = .ok (.entry place (.link target)) := by
  simp only [resolve_eq_ok_iff, hends, Bool.and_false] at h ⊢
  exact h.2.unfollow.imp (⟨h.1, ·⟩) fun ⟨place, target, hleads⟩ => ⟨place, target, h.1, hleads⟩

/-- A way to a folder leads there whether or not a folder is asked for. -/
lemma Leads.toFolder (h : Leads d true links asFolder here steps goal) (hgoal : goal = .entry place .folder)
    (other : Bool) : Leads d true links other here steps goal := by
  induction h generalizing other with
  | here => exact .here
  | stay _ ih => exact .stay (ih hgoal other)
  | up _ ih => exact .up (ih hgoal other)
  | vacant | file | link => cases hgoal
  | down hname hfind _ ih => exact .down hname hfind (ih hgoal other)
  | through hname hfind htarget _ _ ih => exact .through hname hfind htarget (by simp) (ih hgoal _)

end Disk

namespace Document

open Disk

variable {folder path : String} {doc : Document} {d made after : Disk} {place : Place} {content : List UInt8}

lemma fileName_no_backslash (path : String) : '\\' ∉ (fileName path).toList := by
  rw [toList_fileName, List.mem_append, not_or]
  refine ⟨fun h => ?_, by decide⟩
  obtain ⟨c, _, hc⟩ := List.mem_map.mp (mem_of_mem_stem h)
  split at hc
  · cases hc
  · rename_i hother
    exact hother (Or.inl hc)

lemma sameBesidesFolders_makeRoom (folder : String) (d : Disk) : d.SameBesidesFolders (makeRoom folder d).2 := by
  unfold makeRoom
  split
  · exact .refl d
  · exact preserves_makeFolders (fun _ _ _ _ hsame hmade => hsame.trans (sameBesidesFolders_makeFolder hmade)) (.refl d)

lemma isUsable_folder (h : IsUsable (doc.file folder)) (hne : folder ≠ "") : IsUsable folder := by
  have hfile : doc.file folder = Path.opened folder ++ fileName doc.path := Path.join_eq folder (isAbsolute_fileName _)
  refine h.of_sublist ?_ hne
  rw [hfile, String.toList_append, Path.opened]
  refine List.Sublist.trans ?_ (List.sublist_append_left _ _)
  split
  · exact List.Sublist.refl _
  · rw [String.toList_append]
    exact List.sublist_append_left _ _

/-- A document that a path leads to without a link at the end is in the output folder. -/
lemma exists_leadsInto (h : d.resolve false (doc.file folder) = .ok (.entry place (.file content))) :
    ∃ into, d.LeadsInto folder into ∧ place = into ++ [fileName doc.path] := by
  obtain ⟨husable, hleads⟩ := resolve_eq_ok_iff.mp h
  rw [file, Path.isAbsolute_join (isAbsolute_fileName _), steps_join_fileName] at hleads
  obtain ⟨into, hinto, hplace⟩ := hleads.place_eq (fileName_ne (by decide) _) (fileName_ne (by decide) _) rfl rfl rfl
  refine ⟨into, ?_, hplace⟩
  by_cases hempty : folder = ""
  · subst hempty
    cases hinto
    exact Or.inl ⟨rfl, rfl⟩
  · exact Or.inr (resolve_eq_ok_iff.mpr ⟨isUsable_folder husable hempty, hinto.toFolder rfl _⟩)

/-- One component of a path, of the form of a document's name. -/
structure IsDocumentName (name : String) : Prop where
  components_eq : Path.components name = [.normal name]
  no_slash : '/' ∉ name.toList
  no_backslash : '\\' ∉ name.toList
  suffix : "_docs.md".toList <:+ name.toList

/-- What an export comes to. The text is in the file that the path leads to, which is one in the output folder itself
unless a link stood there before, and no other file is changed. A fault changes no file at all. -/
inductive Confined (folder : String) (doc : Document) (d : Disk) : Except Fault String × Disk → Prop
  | written {after : Disk} {place : Place} :
      after.resolve true (Path.join folder (fileName doc.path)) =
        .ok (.entry place (.file (Text.Utf8.encode doc.text))) →
      (∀ other, other ≠ place → d.SameFile after other) →
      ((∃ link target, d.find? link = some (.link target) ∧
          after.resolve false (Path.join folder (fileName doc.path)) = .ok (.entry link (.link target))) ∨
        after.resolve false (Path.join folder (fileName doc.path)) =
            .ok (.entry place (.file (Text.Utf8.encode doc.text))) ∧
          ∃ into, after.LeadsInto folder into ∧ place = into ++ [fileName doc.path]) →
      Confined folder doc d (.ok (Path.join folder (fileName doc.path)), after)
  | failed {after : Disk} {fault : Fault} : (∀ place, d.SameFile after place) → Confined folder doc d (.error fault, after)

lemma isDocumentName_fileName (path : String) : IsDocumentName (fileName path) where
  components_eq := (isEntryName_fileName path).components_eq
  no_slash := fileName_no_slash path
  no_backslash := fileName_no_backslash path
  suffix := by
    rw [toList_fileName]
    exact List.suffix_append _ _

lemma confined_of_write (hmade : d.SameBesidesFolders made)
    (h : made.write (doc.file folder) (Text.Utf8.encode doc.text) = .ok after) :
    Confined folder doc d (.ok (doc.file folder), after) := by
  obtain ⟨place, goal, hresolve, hopen, rfl⟩ := write_eq_ok h
  have htakes : made.Takes place := (resolve_eq_ok_iff.mp hresolve).2.takes hopen
  have hput : (made.put place (.file (Text.Utf8.encode doc.text))).find? place = some (.file (Text.Utf8.encode doc.text)) :=
    find?_put_self htakes.ne_root
  have hafter := resolve_keeps hresolve hopen (keeps_put_file htakes) hput
  refine .written hafter (fun other hother content => ?_) ?_
  · rw [find?_put_of_ne hother]
    exact hmade.sameFile other content
  · obtain hfile | ⟨link, target, hlink⟩ := resolve_unfollow hafter (endsAsFolder_join_fileName folder doc.path)
    · exact Or.inr ⟨hfile, exists_leadsInto hfile⟩
    · -- the link is no file, so it is not what has been written
      have hfind : (made.put place _).find? link = some (.link target) := (resolve_eq_ok_iff.mp hlink).2.stands
      have hne : link ≠ place := by
        rintro rfl
        cases hput.symm.trans hfind
      rw [find?_put_of_ne hne] at hfind
      exact Or.inl ⟨link, target, (hmade link _ (by simp)).mp hfind, hlink⟩

/-- However the source of a document is called and wherever it is exported to, the document gets a name in that folder
and no file but its own is changed. -/
theorem confined_exportTo (folder : String) (doc : Document) (d : Disk) :
    IsDocumentName (fileName doc.path) ∧ Confined folder doc d (exportTo folder doc d) := by
  refine ⟨isDocumentName_fileName doc.path, ?_⟩
  obtain ⟨⟨result, after⟩, hexport⟩ : ∃ x, exportTo folder doc d = x := ⟨_, rfl⟩
  have hmade := sameBesidesFolders_makeRoom folder d
  rw [hexport]
  obtain ⟨rfl, hwrite⟩ | ⟨⟨fault, rfl⟩, rfl⟩ := exportTo_steps hexport
  · exact confined_of_write hmade hwrite
  · exact .failed hmade.sameFile

end Document

end CodeOutline
