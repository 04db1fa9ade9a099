import CodeOutline.Document.Export
import CodeOutline.Proofs.Disk.Change
import CodeOutline.Proofs.Path

/-! Exported documents: what their files are called, where these are and what they hold. -/

namespace CodeOutline

namespace Document

variable {folder path : String} {doc : Document} {d after : Disk}

def file (folder : String) (doc : Document) : String := Path.join folder (fileName doc.path)

lemma flatten_no_slash (cs : List Char) : '/' ∉ flatten cs := by
  intro h
  obtain ⟨c, _, hc⟩ := List.mem_map.mp h
  split at hc
  · cases hc
  · rename_i hother
    exact hother (Or.inr hc)

lemma mem_of_mem_stem {flat : List Char} {c : Char} (h : c ∈ stem flat) : c ∈ flat := by
  unfold stem at h
  split at h
  · rename_i hcut
    rw [Text.cutLast?_eq_some hcut]
    exact List.mem_append_left _ h
  · exact h

lemma toList_fileName (path : String) : (fileName path).toList = stem (flatten path.toList) ++ suffix.toList := by
  simp [fileName]

lemma fileName_no_slash (path : String) : '/' ∉ (fileName path).toList := by
  rw [toList_fileName, List.mem_append, not_or]
  exact ⟨fun h => flatten_no_slash _ (mem_of_mem_stem h), by decide⟩

lemma length_fileName (path : String) : 8 ≤ (fileName path).toList.length := by
  have hsuffix : suffix.toList.length = 8 := by decide
  rw [toList_fileName, List.length_append]
  omega

lemma fileName_ne {name : String} (h : name.toList.length < 8) (path : String) : fileName path ≠ name := by
  rintro rfl
  have := length_fileName path
  omega

lemma isAbsolute_fileName (path : String) : Path.isAbsolute (fileName path) = false := by
  have hslash := fileName_no_slash path
  cases htext : (fileName path).toList with
  | nil => simp [Path.isAbsolute, htext]
  | cons c rest =>
    rw [htext, List.mem_cons, not_or] at hslash
    simp [Path.isAbsolute, htext, Ne.symm hslash.1]

lemma endsAsFolder_join_fileName (folder path : String) :
    Disk.endsAsFolder (Path.join folder (fileName path)) = false := by
  have hlast : (Path.join folder (fileName path)).toList.getLast? = some 'd' := by
    rw [Path.join_eq folder (isAbsolute_fileName path), String.toList_append, toList_fileName, ← List.append_assoc,
      List.getLast?_append_of_ne_nil _ (by decide)]
    decide
  simp [Disk.endsAsFolder, hlast]

lemma steps_join_fileName (folder path : String) :
    Disk.steps (Path.join folder (fileName path)) = Disk.steps folder ++ [fileName path] := by
  have hpieces : Path.pieces (fileName path) = [(fileName path).toList] := by
    have hne : (fileName path).toList ≠ [] := by
      have := length_fileName path
      exact List.ne_nil_of_length_pos (by omega)
    rw [Path.pieces, Text.splitAt_of_not_mem (fileName_no_slash path)]
    simp [hne]
  rw [Disk.steps, Path.pieces_join (isAbsolute_fileName path), hpieces, List.map_append]
  simp [Disk.steps]

def makeRoom (folder : String) (d : Disk) : Except Disk.Failure Unit × Disk :=
  if d.exists? folder then (.ok (), d) else d.makeFolders folder

lemma grows_makeRoom (folder : String) (d : Disk) : d.Grows (makeRoom folder d).2 := by
  unfold makeRoom
  split
  · exact Disk.Grows.refl d
  · exact Disk.grows_makeFolders d folder

lemma exportTo_eq (folder : String) (doc : Document) (d : Disk) :
    exportTo folder doc d = match makeRoom folder d with
      | (.error failure, made) => (.error ⟨folder, failure⟩, made)
      | (.ok (), made) =>
        match made.write (Path.join folder (fileName doc.path)) (Text.Utf8.encode doc.text) with
        | .ok after => (.ok (Path.join folder (fileName doc.path)), after)
        | .error failure => (.error ⟨Path.join folder (fileName doc.path), failure⟩, made) := by
  simp only [exportTo, makeRoom]
  generalize (if d.exists? folder = true then (Except.ok (), d) else d.makeFolders folder) = room
  obtain ⟨result, made⟩ := room
  cases result with
  | error failure => simp only
  | ok =>
    cases hwrite : made.write (Path.join folder (fileName doc.path)) (Text.Utf8.encode doc.text) <;>
      simp only [hwrite]

/-- What happens to the disk behind the making of the folder. -/
lemma exportTo_steps {result : Except Disk.Fault String} (h : exportTo folder doc d = (result, after)) :
    (result = .ok (doc.file folder) ∧
      (makeRoom folder d).2.write (doc.file folder) (Text.Utf8.encode doc.text) = .ok after) ∨
      (∃ fault, result = .error fault) ∧ after = (makeRoom folder d).2 := by
  rw [exportTo_eq] at h
  cases hroom : makeRoom folder d with
  | mk room made =>
    rw [hroom] at h
    cases room with
    | error failure =>
      cases h
      exact Or.inr ⟨⟨_, rfl⟩, rfl⟩
    | ok =>
      cases hwrite : made.write (Path.join folder (fileName doc.path)) (Text.Utf8.encode doc.text) with
      | error failure =>
        simp only [hwrite] at h
        cases h
        exact Or.inr ⟨⟨_, rfl⟩, rfl⟩
      | ok written =>
        simp only [hwrite] at h
        cases h
        exact Or.inl ⟨rfl, hwrite⟩

/-- Folders are made for a document and it is written to its file, or a fault leaves all that was there. -/
lemma exportTo_cases {result : Except Disk.Fault String} (h : exportTo folder doc d = (result, after)) :
    (result = .ok (doc.file folder) ∧
      ∃ made, d.Grows made ∧ made.write (doc.file folder) (Text.Utf8.encode doc.text) = .ok after) ∨
      (∃ fault, result = .error fault) ∧ d.Grows after := by
  have hgrows := grows_makeRoom folder d
  obtain ⟨hpath, hwrite⟩ | ⟨hfault, rfl⟩ := exportTo_steps h
  · exact Or.inl ⟨hpath, _, hgrows, hwrite⟩
  · exact Or.inr ⟨hfault, hgrows⟩

lemma exportTo_eq_ok (h : exportTo folder doc d = (.ok path, after)) :
    path = doc.file folder ∧ ∃ made, d.Grows made ∧ made.write (doc.file folder) (Text.Utf8.encode doc.text) = .ok after := by
  obtain ⟨hpath, hwritten⟩ | ⟨⟨fault, hfault⟩, _⟩ := exportTo_cases h
  · exact ⟨Except.ok.inj hpath, hwritten⟩
  · cases hfault

/-- A document is in its file, at this place, and nothing else has changed but what was not there. -/
structure IsExported (folder : String) (doc : Document) (d after : Disk) (place : Disk.Place) : Prop where
  keeps : d.Keeps after
  holds : after.resolve true (doc.file folder) = .ok (.entry place (.file (Text.Utf8.encode doc.text)))
  others : ∀ other e, other ≠ place → d.find? other = some e → after.find? other = some e

end Document

end CodeOutline
