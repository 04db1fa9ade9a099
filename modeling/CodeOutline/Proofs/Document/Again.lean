import CodeOutline.Proofs.Document.Overlay

/-! Exporting the same documents again: the same of them are written, and the disk stays as it is. -/

namespace CodeOutline

open Disk

variable {d m made after : Disk} {folder : String} {place : Place} {doc : Document} {docs : List Document}
  {files : List (Place × List UInt8)}

namespace Disk

/-- Files are written where no folder is, and nothing else is changed. -/
structure Fills (d after : Disk) : Prop where
  linkFree : after.IsLinkFree
  keeps : d.Keeps after
  folder : ∀ place, after.find? place = some .folder → d.find? place = some .folder

lemma Fills.refl (hd : d.IsLinkFree) : d.Fills d := ⟨hd, .refl d, fun _ h => h⟩

lemma Fills.trans (h : d.Fills m) (h' : m.Fills after) : d.Fills after :=
  ⟨h'.linkFree, h.keeps.trans h'.keeps, fun place hfolder => h.folder place (h'.folder place hfolder)⟩

lemma fills_put {content : List UInt8} (hd : d.IsLinkFree) (htakes : d.Takes place) :
    d.Fills (d.put place (.file content)) := by
  refine ⟨hd.put (by simp) place, keeps_put_file htakes, fun other hfolder => ?_⟩
  by_cases hsame : other = place
  · rw [hsame, find?_put_self htakes.ne_root] at hfolder
    cases hfolder
  · rwa [find?_put_of_ne hsame] at hfolder

lemma Fills.put {content : List UInt8} (h : d.Fills m) (hne : place ≠ []) :
    (d.put place (.file content)).Fills (m.put place (.file content)) := by
  refine ⟨h.linkFree.put (by simp) place, ⟨h.keeps.current_eq, ?_, ?_, ?_⟩, ?_⟩
  · intro other hfind
    by_cases hsame : other = place
    · rw [hsame, find?_put_self hne] at hfind
      cases hfind
    · rw [find?_put_of_ne hsame] at hfind ⊢
      exact h.keeps.folder other hfind
  · intro other target hfind
    by_cases hsame : other = place
    · rw [hsame, find?_put_self hne] at hfind
      cases hfind
    · rw [find?_put_of_ne hsame] at hfind ⊢
      exact h.keeps.link other target hfind
  · intro other old hfind
    by_cases hsame : other = place
    · exact ⟨content, by rw [hsame, find?_put_self hne]⟩
    · rw [find?_put_of_ne hsame] at hfind ⊢
      exact h.keeps.file other old hfind
  · intro other hfind
    by_cases hsame : other = place
    · rw [hsame, find?_put_self hne] at hfind
      cases hfind
    · rw [find?_put_of_ne hsame] at hfind ⊢
      exact h.folder other hfind

def putAll (d : Disk) (files : List (Place × List UInt8)) : Disk :=
  files.foldl (fun d file => d.put file.1 (.file file.2)) d

lemma find?_putAll_of_not_mem (h : place ∉ files.map Prod.fst) : (d.putAll files).find? place = d.find? place := by
  induction files generalizing d with
  | nil => rfl
  | cons file rest ih =>
    rw [List.map_cons, List.mem_cons, not_or] at h
    exact (ih h.2).trans (find?_put_of_ne h.1)

lemma find?_putAll_of_mem (h : place ∈ files.map Prod.fst) (hne : place ≠ []) :
    (d.putAll files).find? place = (m.putAll files).find? place := by
  induction files generalizing d m with
  | nil => cases h
  | cons file rest ih =>
    by_cases hrest : place ∈ rest.map Prod.fst
    · exact ih hrest
    · obtain rfl : place = file.1 := (List.mem_cons.mp h).resolve_right hrest
      have hlast : ∀ d : Disk, (d.putAll (file :: rest)).find? file.1 = some (.file file.2) := fun d =>
        (find?_putAll_of_not_mem hrest).trans (find?_put_self hne)
      rw [hlast, hlast]

lemma find?_putAll_again (d : Disk) (files : List (Place × List UInt8)) (place : Place) :
    ((d.putAll files).putAll files).find? place = (d.putAll files).find? place := by
  by_cases hroot : place = []
  · rw [hroot, find?_root, find?_root]
  · by_cases hmem : place ∈ files.map Prod.fst
    · exact find?_putAll_of_mem hmem hroot
    · exact find?_putAll_of_not_mem hmem

lemma exists_of_isFolder (h : d.isFolder folder = true) : d.exists? folder = true := by
  rw [isFolder, folderPlace?] at h
  rw [exists?, status]
  cases hresolve : d.resolve true folder with
  | error failure => simp [hresolve] at h
  | ok goal =>
    cases goal with
    | vacant place asFolder => simp [hresolve] at h
    | entry place e => rfl

lemma resolve_of_exists? (h : d.exists? folder = true) : ∃ place e, d.resolve true folder = .ok (.entry place e) := by
  rw [exists?, status] at h
  cases hresolve : d.resolve true folder with
  | error failure =>
    rw [hresolve] at h
    cases h
  | ok goal =>
    cases goal with
    | vacant place asFolder =>
      rw [hresolve] at h
      cases h
    | entry place e => exact ⟨place, e, rfl⟩

lemma exists?_keeps (hd : d.IsLinkFree) (hkeeps : d.Keeps after) (h : d.exists? folder = true) :
    after.exists? folder = true := by
  obtain ⟨place, e, hresolve⟩ := resolve_of_exists? h
  obtain ⟨husable, hleads⟩ := resolve_eq_ok_iff.mp hresolve
  cases e with
  | folder =>
    have hgoes : after.Goes (if Path.isAbsolute folder then [] else after.current) (steps folder) := by
      rw [hkeeps.current_eq]
      exact (hleads.goes hd rfl).keeps hkeeps
    exact exists?_of_resolve (resolve_eq_ok_iff.mpr ⟨husable, hgoes.leads⟩)
  | file content =>
    obtain ⟨now, hnow⟩ := hkeeps.file place content hleads.stands
    exact exists?_of_resolve (resolve_keeps hresolve (Or.inr ⟨content, rfl⟩) hkeeps hnow)
  | link target => exact absurd rfl hleads.ne_link

end Disk

namespace Document

/-- Nothing has to be made for documents to be written. -/
def IsSettled (folder : String) (d : Disk) : Prop := folder = "" ∨ d.exists? folder = true

lemma makeRoom_of_isSettled (h : IsSettled folder d) : makeRoom folder d = (.ok (), d) := by
  obtain rfl | hexists := h
  · rw [makeRoom]
    split <;> rfl
  · rw [makeRoom, if_pos hexists]

lemma isSettled_of_makeRoom (hd : d.IsLinkFree) (h : makeRoom folder d = (.ok (), made)) : IsSettled folder made := by
  by_cases hempty : folder = ""
  · exact Or.inl hempty
  · rw [makeRoom] at h
    split at h
    · rename_i hexists
      cases h
      exact Or.inr hexists
    · exact Or.inr (exists_of_isFolder (isFolder_of_makeFolders hd hempty h))

lemma isLinkFree_makeRoom (hd : d.IsLinkFree) : (makeRoom folder d).2.IsLinkFree := by
  rw [makeRoom]
  split
  · exact hd
  · exact isLinkFree_makeFolders hd

lemma IsSettled.fills (h : IsSettled folder d) (hd : d.IsLinkFree) (hfills : d.Fills after) : IsSettled folder after :=
  h.imp_right (exists?_keeps hd hfills.keeps)

lemma exportTo_of_opens (hsettled : IsSettled folder d) (h : Opens d (doc.file folder) place) :
    exportTo folder doc d = (.ok (doc.file folder), d.put place (.file (Text.Utf8.encode doc.text))) := by
  rw [exportTo_eq, makeRoom_of_isSettled hsettled]
  simp only
  rw [← file, write_of_opens h]

lemma exportTo_of_not_opens (hsettled : IsSettled folder d) (h : ∀ place, ¬Opens d (doc.file folder) place) :
    ∃ fault, exportTo folder doc d = (.error fault, d) := by
  rw [exportTo_eq, makeRoom_of_isSettled hsettled]
  simp only
  rw [← file]
  cases hwrite : d.write (doc.file folder) (Text.Utf8.encode doc.text) with
  | error failure => exact ⟨_, rfl⟩
  | ok after =>
    obtain ⟨place, hopens, _⟩ := opens_of_write hwrite
    exact absurd hopens (h place)

lemma opens_iff_of_fills (hd : d.IsLinkFree) (h : d.Fills after) :
    Opens after (doc.file folder) place ↔ Opens d (doc.file folder) place := by
  have hgoes : after.Goes (d.start folder) (steps folder) ↔ d.Goes (d.start folder) (steps folder) :=
    ⟨fun hgoes => hgoes.mono h.folder, fun hgoes => hgoes.keeps h.keeps⟩
  have htakes : after.Takes place ↔ d.Takes place := by
    rw [takes_iff h.linkFree, takes_iff hd]
    exact not_congr ⟨h.folder place, h.keeps.folder place⟩
  rw [opens_file_iff h.linkFree, opens_file_iff hd, placeOf_eq, placeOf_eq, start_eq h.keeps.current_eq, hgoes, htakes]

/-- Once nothing has to be made, which documents get written, and where, does not depend on the files. -/
lemma exportAll_of_isSettled (hd : d.IsLinkFree) (hsettled : IsSettled folder d) (docs : List Document) :
    ∃ paths files, d.Fills (d.putAll files) ∧
      ∀ m, d.Fills m → exportAll folder docs m = (paths, m.putAll files) := by
  -- whether the next document can be written is the same on every disk that differs from `d` in files alone
  induction docs generalizing d with
  | nil => exact ⟨[], [], .refl hd, fun m _ => rfl⟩
  | cons doc rest ih =>
    by_cases hopens : ∃ place, Opens d (doc.file folder) place
    · obtain ⟨place, hopens⟩ := hopens
      have htakes : d.Takes place := ((opens_file_iff hd).mp hopens).2.2.2.2
      have hput : d.Fills (d.put place (.file (Text.Utf8.encode doc.text))) := fills_put hd htakes
      obtain ⟨paths, files, hfills, hall⟩ := ih hput.linkFree (hsettled.fills hd hput)
      refine ⟨doc.file folder :: paths, (place, Text.Utf8.encode doc.text) :: files, hput.trans hfills, fun m hm => ?_⟩
      have hwritten := exportTo_of_opens (hsettled.fills hd hm) ((opens_iff_of_fills hd hm).mpr hopens)
      rw [exportAll, hwritten]
      simp only [hall _ (hm.put htakes.ne_root)]
      rfl
    · have hnone : ∀ place, ¬Opens d (doc.file folder) place := fun place hplace => hopens ⟨place, hplace⟩
      obtain ⟨paths, files, hfills, hall⟩ := ih hd hsettled
      refine ⟨paths, files, hfills, fun m hm => ?_⟩
      obtain ⟨fault, hfault⟩ := exportTo_of_not_opens (hsettled.fills hd hm)
        (fun place => mt (opens_iff_of_fills hd hm).mp (hnone place))
      rw [exportAll, hfault]
      simp only [hall m hm]
      rfl

/-- Where no room can be made for documents, none is written later either. -/
lemma exportTo_of_makeRoom_error {failure : Disk.Failure} (hd : d.IsLinkFree)
    (h : makeRoom folder d = (.error failure, made)) (doc : Document) :
    ∃ fault, exportTo folder doc made = (.error fault, made) := by
  have hfolders : d.makeFolders folder = (.error failure, made) := by
    rw [makeRoom] at h
    split at h
    · cases h
    · exact h
  obtain ⟨failure', hagain⟩ := makeFolders_again hd hfolders
  have hlinks : made.IsLinkFree := by
    have hall : (d.makeFolders folder).2.IsLinkFree := isLinkFree_makeFolders hd
    rwa [hfolders] at hall
  by_cases hexists : made.exists? folder = true
  · apply exportTo_of_not_opens (Or.inr hexists)
    intro place hopens
    obtain ⟨_, hgoes, _⟩ := (opens_file_iff hlinks).mp hopens
    obtain ⟨_, _, hresolve⟩ := resolve_of_exists? hexists
    have hfolder : made.isFolder folder = true :=
      (isFolder_iff hlinks).mpr ⟨(resolve_eq_ok_iff.mp hresolve).1, hgoes⟩
    have hmade : made.makeFolders folder = (.ok (), made) := by
      rw [makeFolders, if_neg (resolve_eq_ok_iff.mp hresolve).1.2.1, ensureFolder_of_isFolder hlinks hfolder]
    rw [hmade] at hagain
    cases hagain
  · rw [exportTo_eq, makeRoom, if_neg hexists, hagain]
    exact ⟨_, rfl⟩

lemma exportAll_of_faults (h : ∀ doc ∈ docs, ∃ fault, exportTo folder doc d = (.error fault, d)) :
    exportAll folder docs d = ([], d) := by
  induction docs with
  | nil => rfl
  | cons doc rest ih =>
    obtain ⟨fault, hfault⟩ := h doc List.mem_cons_self
    rw [exportAll, hfault]
    simp only [ih fun other hother => h other (List.mem_cons_of_mem doc hother)]
    rfl

theorem exportAll_again {paths : List String} (hd : d.IsLinkFree) (h : exportAll folder docs d = (paths, after)) :
    ∃ final, exportAll folder docs after = (paths, final) ∧ ∀ place, final.find? place = after.find? place := by
  cases docs with
  | nil =>
    cases h
    exact ⟨d, rfl, fun _ => rfl⟩
  | cons doc rest =>
    obtain ⟨⟨result, made⟩, hmade⟩ : ∃ x, makeRoom folder d = x := ⟨_, rfl⟩
    cases result with
    | error failure =>
      -- what the first attempt has made on the way stays, and no later one gets further
      have hfaults := exportTo_of_makeRoom_error hd hmade
      have hnone : exportAll folder (doc :: rest) d = ([], made) := by
        have hfirst : exportTo folder doc d = (.error ⟨folder, failure⟩, made) := by
          rw [exportTo_eq, hmade]
        rw [exportAll, hfirst]
        simp only [exportAll_of_faults fun doc _ => hfaults doc]
        rfl
      obtain ⟨rfl, rfl⟩ := Prod.mk.inj (hnone.symm.trans h)
      exact ⟨made, exportAll_of_faults fun doc _ => hfaults doc, fun _ => rfl⟩
    | ok =>
      have hsettled := isSettled_of_makeRoom hd hmade
      have hlinks : made.IsLinkFree := by
        have hall : (makeRoom folder d).2.IsLinkFree := isLinkFree_makeRoom hd
        rwa [hmade] at hall
      obtain ⟨paths', files, hfills, hall⟩ := exportAll_of_isSettled hlinks hsettled (doc :: rest)
      have hfirst : exportTo folder doc d = exportTo folder doc made := by
        rw [exportTo_eq, exportTo_eq, hmade, makeRoom_of_isSettled hsettled]
      rw [exportAll, hfirst, ← exportAll, hall made (.refl hlinks)] at h
      obtain ⟨rfl, rfl⟩ := Prod.mk.inj h
      exact ⟨_, hall _ hfills, find?_putAll_again made files⟩

end Document

end CodeOutline
