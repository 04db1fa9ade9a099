import CodeOutline.Proofs.Disk.Walk
import CodeOutline.Proofs.Fallible

/-! Changes of a disk: what writing and making folders leave as it was, and where paths lead afterwards. -/

namespace CodeOutline.Disk

variable {d next after : Disk} {followLast asFolder : Bool} {links : Nat} {here place other : Place}
  {steps : List String} {goal : Goal} {content : List UInt8} {path : String} {e : Entry}

lemma find?_root : d.find? [] = some .folder := if_pos rfl

lemma find?_put_self (h : place ≠ []) : (d.put place e).find? place = some e := by
  simp [find?, put, h]

lemma find?_put_of_ne (h : other ≠ place) : (d.put place e).find? other = d.find? other := by
  have hrest : (d.entries.filter (·.1 ≠ place)).find? (·.1 = other) = d.entries.find? (·.1 = other) := by
    rw [List.find?_filter]
    congr 1
    funext entry
    grind
  simp only [find?, put, List.find?_cons, decide_eq_false (Ne.symm h), hrest]

/-- Everything that is there stays as it is. -/
structure Grows (d after : Disk) : Prop where
  current_eq : after.current = d.current
  find_eq : ∀ place e, d.find? place = some e → after.find? place = some e

/-- Folders and links stay as they are, and files stay files. -/
structure Keeps (d after : Disk) : Prop where
  current_eq : after.current = d.current
  folder : ∀ place, d.find? place = some .folder → after.find? place = some .folder
  link : ∀ place target, d.find? place = some (.link target) → after.find? place = some (.link target)
  file : ∀ place content, d.find? place = some (.file content) → ∃ now, after.find? place = some (.file now)

lemma Grows.refl (d : Disk) : d.Grows d := ⟨rfl, fun _ _ h => h⟩

lemma Grows.trans (h : d.Grows next) (h' : next.Grows after) : d.Grows after :=
  ⟨h'.current_eq.trans h.current_eq, fun place e he => h'.find_eq place e (h.find_eq place e he)⟩

lemma Grows.keeps (h : d.Grows after) : d.Keeps after :=
  ⟨h.current_eq, fun place => h.find_eq place _, fun place _ => h.find_eq place _,
    fun place content hfile => ⟨content, h.find_eq place _ hfile⟩⟩

lemma Keeps.refl (d : Disk) : d.Keeps d := (Grows.refl d).keeps

lemma Keeps.trans (h : d.Keeps next) (h' : next.Keeps after) : d.Keeps after where
  current_eq := h'.current_eq.trans h.current_eq
  folder place hf := h'.folder place (h.folder place hf)
  link place target hl := h'.link place target (h.link place target hl)
  file place content hf := by
    obtain ⟨now, hnow⟩ := h.file place content hf
    exact h'.file place now hnow

lemma grows_put (h : d.find? place = none) (e : Entry) : d.Grows (d.put place e) := by
  refine ⟨rfl, fun other found hfound => ?_⟩
  have hne : other ≠ place := by
    rintro rfl
    rw [h] at hfound
    cases hfound
  rw [find?_put_of_ne hne, hfound]

def Takes (d : Disk) (place : Place) : Prop := d.find? place = none ∨ ∃ old, d.find? place = some (.file old)

lemma Takes.ne_root (h : d.Takes place) : place ≠ [] := by
  rintro rfl
  obtain hnone | ⟨old, hold⟩ := h
  · cases find?_root.symm.trans hnone
  · cases find?_root.symm.trans hold

lemma keeps_put_file (h : d.Takes place) : d.Keeps (d.put place (.file content)) := by
  obtain hnone | ⟨old, hold⟩ := id h
  · exact (grows_put hnone _).keeps
  · have hother : ∀ other e, e ≠ .file old → d.find? other = some e → (d.put place (.file content)).find? other = some e := by
      intro other e he hfind
      have hne : other ≠ place := by
        rintro rfl
        rw [hold] at hfind
        exact he (Option.some.inj hfind).symm
      rw [find?_put_of_ne hne, hfind]
    refine ⟨rfl, fun other => hother other _ (by simp), fun other target => hother other _ (by simp), ?_⟩
    intro other found hfound
    by_cases hne : other = place
    · exact ⟨content, by rw [hne, find?_put_self h.ne_root]⟩
    · exact ⟨found, by rw [find?_put_of_ne hne, hfound]⟩

/-- A goal where a file may be written, at its place. -/
def Goal.IsOpen (place : Place) (goal : Goal) : Prop := goal = .vacant place false ∨ ∃ old, goal = .entry place (.file old)

lemma Leads.takes (h : Leads d followLast links asFolder here steps goal) (hopen : goal.IsOpen place) :
    d.Takes place := by
  obtain rfl | ⟨old, rfl⟩ := hopen
  · exact Or.inl h.stands
  · exact Or.inr ⟨old, h.stands⟩

/-- Once a file is where a way may end, the way leads to it. -/
lemma Leads.keeps (h : Leads d followLast links asFolder here steps goal) (hopen : goal.IsOpen place)
    (hkeeps : d.Keeps after) (hfile : after.find? place = some (.file content)) :
    Leads after followLast links asFolder here steps (.entry place (.file content)) := by
  induction h with
  | here => simp [Goal.IsOpen] at hopen
  | stay _ ih => exact .stay (ih hopen)
  | up _ ih => exact .up (ih hopen)
  | vacant hname hfind =>
    obtain hvacant | ⟨old, hold⟩ := hopen
    · obtain ⟨rfl, rfl⟩ := Goal.vacant.inj hvacant
      exact .file hname hfile
    · cases hold
  | down hname hfind _ ih => exact .down hname (hkeeps.folder _ hfind) (ih hopen)
  | file hname hfind =>
    obtain hvacant | ⟨old, hold⟩ := hopen
    · cases hvacant
    · obtain ⟨rfl, _⟩ := Goal.entry.inj hold
      exact .file hname hfile
  | link => simp [Goal.IsOpen] at hopen
  | through hname hfind htarget hlast _ ih => exact .through hname (hkeeps.link _ _ hfind) htarget hlast (ih hopen)

def IsUsable (path : String) : Prop :=
  path.toList.contains (Char.ofNat 0) = false ∧ path ≠ "" ∧ path.utf8ByteSize ≤ longestPath

lemma resolve_eq_ok_iff : d.resolve followLast path = .ok goal ↔ IsUsable path ∧
    Leads d followLast mostLinks (followLast && endsAsFolder path) (if Path.isAbsolute path then [] else d.current)
      (Disk.steps path) goal := by
  rw [← walk_eq_ok_iff, IsUsable, resolve]
  cases hnul : path.toList.contains (Char.ofNat 0) with
  | true => simp
  | false =>
    by_cases hempty : path = ""
    · simp [hempty]
    · by_cases hlong : longestPath < path.utf8ByteSize
      · simp [hempty, hlong, Nat.not_le.mpr hlong]
      · simp [hempty, hlong, Nat.le_of_not_lt hlong]

lemma resolve_keeps (h : d.resolve followLast path = .ok goal) (hopen : goal.IsOpen place) (hkeeps : d.Keeps after)
    (hfile : after.find? place = some (.file content)) :
    after.resolve followLast path = .ok (.entry place (.file content)) := by
  rw [resolve_eq_ok_iff] at h ⊢
  rw [hkeeps.current_eq]
  exact ⟨h.1, h.2.keeps hopen hkeeps hfile⟩

lemma find?_of_resolve (h : d.resolve followLast path = .ok (.entry place (.file content))) :
    d.find? place = some (.file content) := (resolve_eq_ok_iff.mp h).2.stands

lemma read_of_resolve (h : d.resolve true path = .ok (.entry place (.file content))) : d.read path = .ok content := by
  simp only [read, status, h]
  rfl

lemma exists?_of_resolve (h : d.resolve true path = .ok (.entry place e)) : d.exists? path = true := by
  rw [exists?, status, h]
  rfl

lemma read_eq_ok (h : d.read path = .ok content) : ∃ place, d.resolve true path = .ok (.entry place (.file content)) := by
  obtain ⟨e, hstatus, hcontent⟩ := exists_of_bind_eq_ok h
  obtain ⟨goal, hresolve, hentry⟩ := exists_of_bind_eq_ok hstatus
  cases goal with
  | vacant => cases hentry
  | entry place found =>
    cases hentry
    cases e with
    | folder | link => cases hcontent
    | file old =>
      cases hcontent
      exact ⟨place, hresolve⟩

lemma read_ne_ok_of_endsAsFolder (hends : endsAsFolder path = true) : d.read path ≠ .ok content := by
  intro h
  obtain ⟨place, hresolve⟩ := read_eq_ok h
  exact (resolve_eq_ok_iff.mp hresolve).2.ne_file (by simp [hends]) rfl

lemma write_eq_ok (h : d.write path content = .ok after) :
    ∃ place goal, d.resolve true path = .ok goal ∧ goal.IsOpen place ∧ after = d.put place (.file content) := by
  obtain ⟨goal, hresolve, hput⟩ := exists_of_bind_eq_ok h
  cases goal with
  | vacant place asFolder =>
    cases asFolder with
    | true => cases hput
    | false => exact ⟨place, _, hresolve, Or.inl rfl, (Except.ok.inj hput).symm⟩
  | entry place e =>
    cases e with
    | folder => cases hput
    | file old => exact ⟨place, _, hresolve, Or.inr ⟨old, rfl⟩, (Except.ok.inj hput).symm⟩
    | link target => exact absurd rfl ((resolve_eq_ok_iff.mp hresolve).2.ne_link)

lemma grows_makeFolder (h : d.makeFolder path = .ok after) : d.Grows after := by
  obtain ⟨goal, hresolve, hput⟩ := exists_of_bind_eq_ok h
  cases goal with
  | entry => cases hput
  | vacant place asFolder =>
    have hnone : d.find? place = none := (resolve_eq_ok_iff.mp hresolve).2.stands
    exact Except.ok.inj hput ▸ grows_put hnone _

lemma grows_ensureFolder {above : Disk → Except Failure Unit × Disk} (habove : ∀ d : Disk, d.Grows (above d).2) :
    d.Grows (ensureFolder path above d).2 := by
  unfold ensureFolder
  cases hmade : d.makeFolder path with
  | ok made => exact grows_makeFolder hmade
  | error failure =>
    cases failure with
    | notFound =>
      have hgrows := habove d
      cases habove : above d with
      | mk result next =>
        rw [habove] at hgrows
        cases result with
        | error => exact hgrows
        | ok =>
          cases hagain : next.makeFolder path with
          | ok made =>
            simp only [hagain]
            exact hgrows.trans (grows_makeFolder hagain)
          | error =>
            simp only [hagain]
            exact hgrows
    | _ => exact Grows.refl d

lemma grows_ensureFolders (reversed : List Path.Component) (d : Disk) : d.Grows (ensureFolders reversed d).2 := by
  induction reversed generalizing d with
  | nil => exact Grows.refl d
  | cons c above ih => exact grows_ensureFolder ih

lemma grows_makeFolders (d : Disk) (path : String) : d.Grows (d.makeFolders path).2 := by
  unfold makeFolders
  split
  · exact Grows.refl d
  · exact grows_ensureFolder (grows_ensureFolders _)

end CodeOutline.Disk
