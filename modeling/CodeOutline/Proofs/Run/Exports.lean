import CodeOutline.Proofs.Run.Conservation

/-! The documents of a run on the disk: which of them are there when it ends. -/

namespace CodeOutline

namespace Disk

def LeadsToFile (d : Disk) (path : String) (place : Place) : Prop :=
  ∃ content, d.resolve true path = .ok (.entry place (.file content))

end Disk

namespace Run

variable {folder : String} {d after : Disk} {doc : Document} {written before later : List Document} {place : Disk.Place}

/-- The changes of a disk as documents are exported, with those that get written. -/
inductive Exports (folder : String) : Disk → List Document → Disk → Prop
  | none {d : Disk} : Exports folder d [] d
  | failed {d next after : Disk} {written : List Document} : d.Grows next → Exports folder next written after →
      Exports folder d written after
  | wrote {d next after : Disk} {doc : Document} {place : Disk.Place} {written : List Document} :
      Document.IsExported folder doc d next place → Exports folder next written after →
      Exports folder d (doc :: written) after

lemma Exports.keeps (h : Exports folder d written after) : d.Keeps after := by
  induction h with
  | none => exact .refl _
  | failed hgrows _ ih => exact hgrows.keeps.trans ih
  | wrote hdoc _ ih => exact hdoc.keeps.trans ih

lemma Exports.resolve_of_isExported {next : Disk} (h : Exports folder next written after)
    (hdoc : Document.IsExported folder doc d next place) :
    ∃ now, after.find? place = some (.file now) ∧ after.resolve true (doc.file folder) = .ok (.entry place (.file now)) := by
  obtain ⟨now, hnow⟩ := h.keeps.file place _ (Disk.find?_of_resolve hdoc.holds)
  exact ⟨now, hnow, Disk.resolve_keeps hdoc.holds (Or.inr ⟨_, rfl⟩) h.keeps hnow⟩

lemma Exports.find_eq {content : List UInt8} (h : Exports folder d written after)
    (hother : ∀ doc ∈ written, ¬after.LeadsToFile (doc.file folder) place)
    (hfile : d.find? place = some (.file content)) : after.find? place = some (.file content) := by
  induction h with
  | none => exact hfile
  | failed hgrows _ ih => exact ih hother (hgrows.find_eq place _ hfile)
  | @wrote d next after doc own written hdoc hrest ih =>
    obtain ⟨now, _, hresolve⟩ := hrest.resolve_of_isExported hdoc
    have hne : place ≠ own := by
      rintro rfl
      exact hother doc List.mem_cons_self ⟨now, hresolve⟩
    exact ih (fun other hmem => hother other (List.mem_cons_of_mem doc hmem)) (hdoc.others place _ hne hfile)

lemma Exports.drop (h : Exports folder d (before ++ later) after) : ∃ next, Exports folder next later after := by
  generalize hall : before ++ later = all at h
  induction h generalizing before with
  | none =>
    obtain ⟨_, rfl⟩ := List.append_eq_nil_iff.mp hall
    exact ⟨_, .none⟩
  | failed _ _ ih => exact ih hall
  | @wrote d next after doc own written hdoc hrest ih =>
    cases before with
    | nil =>
      obtain rfl : later = doc :: written := hall
      exact ⟨d, .wrote hdoc hrest⟩
    | cons first before => exact ih (List.cons.inj hall).2

/-- A file holds the text of the last document that is written to it. -/
lemma Exports.holds (h : Exports folder d (before ++ doc :: later) after) :
    ∃ place, after.LeadsToFile (doc.file folder) place ∧
      ((∀ other ∈ later, ¬after.LeadsToFile (other.file folder) place) →
        after.read (doc.file folder) = .ok (Text.Utf8.encode doc.text)) := by
  -- what comes before the document does not matter, and what fails before it leaves the files alone
  obtain ⟨next, hnext⟩ := h.drop
  generalize hall : doc :: later = all at hnext
  induction hnext with
  | none => cases hall
  | failed _ _ ih => exact ih h hall
  | wrote hdoc hrest =>
    obtain ⟨rfl, rfl⟩ := List.cons.inj hall
    obtain ⟨now, _, hresolve⟩ := hrest.resolve_of_isExported hdoc
    refine ⟨_, ⟨now, hresolve⟩, fun hother => ?_⟩
    have hfind := hrest.find_eq hother (Disk.find?_of_resolve hdoc.holds)
    exact Disk.read_of_resolve (Disk.resolve_keeps hdoc.holds (Or.inr ⟨_, rfl⟩) hrest.keeps hfind)

end Run

end CodeOutline
