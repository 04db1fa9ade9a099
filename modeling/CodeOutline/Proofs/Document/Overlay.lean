import CodeOutline.Proofs.Disk.Room
import CodeOutline.Proofs.Document.Export

/-! What exporting adds to a disk: folders on the way to the output folder, and files of documents in it. -/

namespace CodeOutline

namespace Disk

variable {d after : Disk} {folder upTo : String} {place : Place}

lemma Keeps.find?_eq_none (h : d.Keeps after) (hnone : after.find? place = none) : d.find? place = none := by
  cases hfind : d.find? place with
  | none => rfl
  | some e =>
    cases e with
    | folder => simp [h.folder place hfind] at hnone
    | file content =>
      obtain ⟨now, hnow⟩ := h.file place content hfind
      simp [hnow] at hnone
    | link target => simp [h.link place target hfind] at hnone

lemma exists_prefix_of_moves (h : moves upTo <+: moves folder) :
    ∃ before, before <+: steps folder ∧ before.filter (· ≠ ".") = moves upTo := by
  obtain ⟨rest, hrest⟩ := h
  obtain ⟨before, later, hsteps, hbefore, _⟩ := List.filter_eq_append_iff.mp hrest.symm
  exact ⟨before, ⟨later, hsteps.symm⟩, hbefore⟩

end Disk

namespace Document

open Disk

variable {folder upTo : String} {d m made after : Disk} {place : Place} {content : List UInt8} {doc : Document}
  {docs : List Document}

/-- A folder on the way to `folder` that is not there. -/
def IsMissing (d : Disk) (folder : String) (place : Place) : Prop :=
  d.find? place = none ∧ ∃ before, before <+: steps folder ∧ place = before.foldl move (d.start folder)

/-- A place where a document can be written. -/
def IsTarget (d : Disk) (folder : String) (place : Place) : Prop :=
  ¬IsMissing d folder place ∧ d.find? place ≠ some .folder ∧ ∃ path, place = d.placeOf folder ++ [fileName path]

def IsTouched (d : Disk) (folder : String) (place : Place) : Prop := IsMissing d folder place ∨ IsTarget d folder place

open scoped Classical in
/-- A disk with what exporting to `folder` can add to it. Whatever else is there is listed in the same order. -/
structure Overlays (folder : String) (d after : Disk) : Prop where
  sound : after.Sound
  linkFree : after.IsLinkFree
  keeps : d.Keeps after
  entries_eq : after.entries.filter (fun entry => ¬IsTouched d folder entry.1) =
    d.entries.filter (fun entry => ¬IsTouched d folder entry.1)
  missing : ∀ place, IsMissing d folder place → after.find? place = none ∨ after.find? place = some .folder
  target : ∀ place, IsTarget d folder place → after.find? place ≠ some .folder

lemma Overlays.refl (folder : String) (hd : d.Sound) (hlinks : d.IsLinkFree) : Overlays folder d d :=
  ⟨hd, hlinks, .refl d, rfl, fun _ h => Or.inl h.1, fun _ h => h.2.1⟩

lemma Overlays.find?_eq (h : Overlays folder d after) (hplace : ¬IsTouched d folder place) :
    after.find? place = d.find? place := by
  classical
  have hfilter : ∀ entries : List (Place × Entry), entries.find? (·.1 = place) =
      (entries.filter fun entry => ¬IsTouched d folder entry.1).find? (·.1 = place) := by
    intro entries
    rw [List.find?_filter]
    congr 1
    funext entry
    by_cases hsame : entry.1 = place
    · simp [hsame, hplace]
    · simp [hsame]
  rw [find?, find?, hfilter, h.entries_eq, ← hfilter]

lemma Overlays.put (h : Overlays folder d m) {above : Place} {name : String} {e : Entry} (hplace : place = above ++ [name])
    (habove : m.find? above = some .folder) (hname : IsEntryName name) (hlink : ∀ target, e ≠ .link target)
    (hkind : e = .folder ∨ m.find? place ≠ some .folder) (hkeeps : m.Keeps (m.put place e))
    (htouched : IsMissing d folder place ∧ e = .folder ∨ IsTarget d folder place ∧ e ≠ .folder) :
    Overlays folder d (m.put place e) := by
  have hput : (m.put place e).find? place = some e := find?_put_self (by simp [hplace])
  refine ⟨?_, h.linkFree.put hlink place, h.keeps.trans hkeeps, ?_, ?_, ?_⟩
  · rw [hplace] at hkind ⊢
    exact h.sound.put habove hname hkind
  · rw [← h.entries_eq]
    have hplace : IsTouched d folder place := htouched.imp And.left And.left
    rw [Disk.put, List.filter_cons_of_neg (by simpa using hplace), List.filter_filter]
    apply List.filter_congr
    intro entry _
    by_cases hsame : entry.1 = place
    · simp [hsame, hplace]
    · simp [hsame]
  · intro other hother
    by_cases hsame : other = place
    · rw [hsame] at hother ⊢
      obtain ⟨_, rfl⟩ | ⟨htarget, _⟩ := htouched
      · exact Or.inr hput
      · exact absurd hother htarget.1
    · rw [find?_put_of_ne hsame]
      exact h.missing other hother
  · intro other hother
    by_cases hsame : other = place
    · rw [hsame] at hother ⊢
      obtain ⟨hmissing, _⟩ | ⟨_, hne⟩ := htouched
      · exact absurd hmissing hother.1
      · rw [hput]
        exact fun heq => hne (Option.some.inj heq)
    · rw [find?_put_of_ne hsame]
      exact h.target other hother

lemma Overlays.start_eq (h : Overlays folder d m) (path : String) : m.start path = d.start path :=
  Disk.start_eq h.keeps.current_eq path

lemma Overlays.makeFolder (h : Overlays folder d m) (hway : IsOnWay folder upTo) (hmade : m.makeFolder upTo = .ok made) :
    Overlays folder d made := by
  have hkeeps := (grows_makeFolder hmade).keeps
  obtain ⟨before, name, hsteps, _, hgoes, hname, hnone, rfl⟩ := exists_last_of_makeFolder h.linkFree hmade
  have hlast : (steps upTo).foldl move (m.start upTo) = before.foldl move (m.start upTo) ++ [name] := by
    rw [hsteps, List.foldl_append, List.foldl_cons, List.foldl_nil, hname.move_eq]
  have hentry : IsEntryName name := by
    have hmem : name ∈ steps upTo := by simp [hsteps]
    obtain ⟨hne, hslash⟩ := isPiece_of_mem_steps hmem
    exact ⟨hname.1, hname.2.1, hne, hslash⟩
  have hmissing : IsMissing d folder ((steps upTo).foldl move (m.start upTo)) := by
    obtain ⟨start, hstart, hmoves⟩ := exists_prefix_of_moves hway.2
    refine ⟨h.keeps.find?_eq_none hnone, start, hstart, ?_⟩
    rw [← foldl_move_filter _ (steps upTo), ← moves, ← hmoves, foldl_move_filter, h.start_eq, Disk.start, hway.1, Disk.start]
  exact h.put hlast (hgoes.find?_eq h.sound (find?_start h.sound upTo)) hentry (by simp) (Or.inl rfl) hkeeps
    (Or.inl ⟨hmissing, rfl⟩)

lemma Overlays.makeRoom (h : Overlays folder d m) : Overlays folder d (makeRoom folder m).2 := by
  rw [Document.makeRoom]
  split
  · exact h
  · exact preserves_makeFolders (fun _ _ _ hway hover hmade => hover.makeFolder hway hmade) h

lemma isEntryName_fileName (path : String) : IsEntryName (fileName path) :=
  ⟨fileName_ne (by decide) path, fileName_ne (by decide) path, fileName_ne (by decide) path, fileName_no_slash path⟩

/-- A file can be written at this place by way of the path. -/
def Opens (d : Disk) (path : String) (place : Place) : Prop := ∃ goal, d.resolve true path = .ok goal ∧ goal.IsOpen place

lemma write_of_opens {path : String} (h : Opens d path place) : d.write path content = .ok (d.put place (.file content)) := by
  obtain ⟨goal, hresolve, rfl | ⟨old, rfl⟩⟩ := h
  · rw [write, hresolve]
    rfl
  · rw [write, hresolve]
    rfl

lemma opens_of_write {path : String} (h : d.write path content = .ok after) :
    ∃ place, Opens d path place ∧ after = d.put place (.file content) := by
  obtain ⟨place, goal, hresolve, hopen, hafter⟩ := write_eq_ok h
  exact ⟨place, ⟨goal, hresolve, hopen⟩, hafter⟩

lemma opens_file_iff (hd : d.IsLinkFree) : Opens d (doc.file folder) place ↔
    IsUsable (doc.file folder) ∧ d.Goes (d.start folder) (steps folder) ∧ IsName (fileName doc.path) ∧
      place = d.placeOf folder ++ [fileName doc.path] ∧ d.Takes place := by
  have hstart : (if Path.isAbsolute (doc.file folder) then [] else d.current) = d.start folder := by
    rw [file, Path.isAbsolute_join (isAbsolute_fileName _), Disk.start]
  have hends : (true && endsAsFolder (doc.file folder)) = false := endsAsFolder_join_fileName folder doc.path
  have hsteps : steps (doc.file folder) = steps folder ++ [fileName doc.path] := steps_join_fileName folder doc.path
  simp only [Opens, resolve_eq_ok_iff, hstart, hends, hsteps, placeOf_eq]
  constructor
  · rintro ⟨goal, ⟨husable, hleads⟩, hopen⟩
    have hgoal : ∀ place, goal ≠ .entry place .folder := by
      obtain rfl | ⟨old, rfl⟩ := hopen <;> simp
    have hplace : goal.place = place := by
      obtain rfl | ⟨old, rfl⟩ := hopen <;> rfl
    obtain ⟨before, name, hlast, hgoes, hname⟩ := hleads.exists_last hd hgoal
    obtain ⟨rfl, hsame⟩ := List.append_inj' hlast rfl
    obtain rfl : fileName doc.path = name := (List.cons.inj hsame).1
    refine ⟨husable, hgoes, hname, ?_, hleads.takes hopen⟩
    rw [← hplace, hleads.place_eq_foldl hd, List.foldl_append, List.foldl_cons, List.foldl_nil, hname.move_eq]
  · rintro ⟨husable, hgoes, hname, rfl, hnone | ⟨old, hold⟩⟩
    · exact ⟨_, ⟨husable, hgoes.leads_append (.vacant hname hnone)⟩, Or.inl rfl⟩
    · exact ⟨_, ⟨husable, hgoes.leads_append (.file hname hold)⟩, Or.inr ⟨old, rfl⟩⟩

lemma Overlays.placeOf_eq (h : Overlays folder d m) (path : String) : m.placeOf path = d.placeOf path := by
  rw [Disk.placeOf_eq, Disk.placeOf_eq, h.start_eq]

lemma Overlays.write (h : Overlays folder d m) (hopens : Opens m (doc.file folder) place) :
    Overlays folder d (m.put place (.file content)) := by
  obtain ⟨_, hgoes, _, hplace, htakes⟩ := (opens_file_iff h.linkFree).mp hopens
  have hnone := (takes_iff h.linkFree).mp htakes
  have htarget : IsTarget d folder place := by
    refine ⟨?_, mt (h.keeps.folder place) hnone, doc.path, by rw [hplace, h.placeOf_eq]⟩
    rintro ⟨_, before, ⟨later, hsteps⟩, hbefore⟩
    -- the way to the output folder leads through folders only
    rw [← hsteps, goes_append, h.start_eq] at hgoes
    apply hnone
    rw [hbefore]
    exact hgoes.1.find?_eq h.sound (h.start_eq folder ▸ find?_start h.sound folder)
  have habove : m.find? (m.placeOf folder) = some .folder := by
    rw [Disk.placeOf_eq]
    exact hgoes.find?_eq h.sound (find?_start h.sound folder)
  exact h.put hplace habove (isEntryName_fileName doc.path) (by simp) (Or.inr hnone) (keeps_put_file htakes)
    (Or.inr ⟨htarget, by simp⟩)

lemma Overlays.exportTo (h : Overlays folder d m) (doc : Document) : Overlays folder d (exportTo folder doc m).2 := by
  rw [exportTo_eq]
  have hroom := h.makeRoom
  obtain ⟨⟨result, made⟩, hmade⟩ : ∃ x, Document.makeRoom folder m = x := ⟨_, rfl⟩
  rw [hmade] at hroom ⊢
  cases result with
  | error failure => exact hroom
  | ok =>
    cases hwrite : made.write (Path.join folder (fileName doc.path)) (Text.Utf8.encode doc.text) with
    | error failure =>
      simp only [hwrite]
      exact hroom
    | ok after =>
      simp only [hwrite]
      obtain ⟨place, hopens, rfl⟩ := opens_of_write hwrite
      exact hroom.write hopens

def exportAll (folder : String) : List Document → Disk → List String × Disk
  | [], d => ([], d)
  | doc :: rest, d =>
    let written := exportTo folder doc d
    let later := exportAll folder rest written.2
    (written.1.toOption.toList ++ later.1, later.2)

lemma Overlays.exportAll (h : Overlays folder d m) (docs : List Document) : Overlays folder d (exportAll folder docs m).2 := by
  induction docs generalizing m with
  | nil => exact h
  | cons doc rest ih => exact ih (h.exportTo doc)

end Document

end CodeOutline
