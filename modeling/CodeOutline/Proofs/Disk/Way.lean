import CodeOutline.Proofs.Disk.Change
import CodeOutline.Proofs.Path
import Mathlib.Data.List.Induction

/-! Ways over a disk without links: where they go can be read off their steps. -/

namespace CodeOutline.Disk

def Goal.place : Goal → Place
  | .entry place _ | .vacant place _ => place

variable {d after : Disk} {followLast asFolder : Bool} {links : Nat} {here place : Place} {step : String}
  {steps before later : List String} {goal : Goal} {name path : String} {e : Entry}

def move (here : Place) (step : String) : Place :=
  if step = "." then here else if step = ".." then here.dropLast else here ++ [step]

def start (d : Disk) (path : String) : Place := if Path.isAbsolute path then [] else d.current

lemma start_eq (h : after.current = d.current) (path : String) : after.start path = d.start path := by
  rw [start, start, h]

@[simp] lemma move_dot (here : Place) : move here "." = here := rfl

@[simp] lemma move_up (here : Place) : move here ".." = here.dropLast := rfl

lemma move_name (hdot : step ≠ ".") (hup : step ≠ "..") : move here step = here ++ [step] := by
  rw [move, if_neg hdot, if_neg hup]

lemma IsName.move_eq (h : IsName step) : move here step = here ++ [step] := move_name h.1 h.2.1

lemma placeOf_eq (d : Disk) (path : String) : d.placeOf path = (Disk.steps path).foldl move (d.start path) := by
  have hpiece : ∀ (piece : List Char) (text : String), String.ofList piece = text ↔ piece = text.toList := by
    intro piece text
    rw [← String.toList_inj, String.toList_ofList]
  rw [placeOf, Disk.steps, List.foldl_map, start]
  congr 1
  funext here piece
  simp only [move, hpiece]
  rfl

def IsLinkFree (d : Disk) : Prop := ∀ place target, d.find? place ≠ some (.link target)

lemma Leads.place_eq_foldl (h : Leads d followLast links asFolder here steps goal) (hd : d.IsLinkFree) :
    goal.place = steps.foldl move here := by
  induction h with
  | here => rfl
  | stay _ ih | up _ ih => exact ih
  | vacant hname | file hname => exact hname.move_eq.symm
  | down hname _ _ ih => rw [ih, List.foldl_cons, hname.move_eq]
  | link _ _ hfind | through _ hfind => exact absurd hfind (hd _ _)

/-- From a folder the steps lead through folders only. -/
def Goes (d : Disk) : Place → List String → Prop
  | _, [] => True
  | here, step :: rest =>
    (step = "." ∨ step = ".." ∨ IsName step ∧ d.find? (here ++ [step]) = some .folder) ∧ Goes d (move here step) rest

lemma goes_append : d.Goes here (before ++ later) ↔ d.Goes here before ∧ d.Goes (before.foldl move here) later := by
  induction before generalizing here with
  | nil => simp [Goes]
  | cons step rest ih => rw [List.cons_append, Goes, Goes, ih, and_assoc, List.foldl_cons]

lemma goes_filter : d.Goes here (steps.filter (· ≠ ".")) ↔ d.Goes here steps := by
  induction steps generalizing here with
  | nil => rfl
  | cons step rest ih =>
    by_cases hdot : step = "."
    · rw [hdot, List.filter_cons_of_neg (by simp), ih]
      simp [Goes]
    · rw [List.filter_cons_of_pos (by simpa using hdot), Goes, Goes, ih]

lemma foldl_move_filter (here : Place) (steps : List String) :
    (steps.filter (· ≠ ".")).foldl move here = steps.foldl move here := by
  induction steps generalizing here with
  | nil => rfl
  | cons step rest ih =>
    by_cases hdot : step = "."
    · rw [hdot, List.filter_cons_of_neg (by simp), ih]
      rfl
    · rw [List.filter_cons_of_pos (by simpa using hdot), List.foldl_cons, List.foldl_cons, ih]

lemma Goes.leads (h : d.Goes here steps) :
    Leads d followLast links asFolder here steps (.entry (steps.foldl move here) .folder) := by
  induction steps generalizing here with
  | nil => exact .here
  | cons step rest ih =>
    obtain ⟨rfl | rfl | ⟨hname, hfind⟩, hrest⟩ := h
    · exact .stay (ih hrest)
    · exact .up (ih hrest)
    · rw [hname.move_eq] at hrest
      rw [List.foldl_cons, hname.move_eq]
      exact .down hname hfind (ih hrest)

lemma Goes.leads_append (h : d.Goes here before)
    (hleads : Leads d followLast links asFolder (before.foldl move here) later goal) :
    Leads d followLast links asFolder here (before ++ later) goal := by
  induction before generalizing here with
  | nil => exact hleads
  | cons step rest ih =>
    obtain ⟨rfl | rfl | ⟨hname, hfind⟩, hrest⟩ := h
    · exact .stay (ih hrest hleads)
    · exact .up (ih hrest hleads)
    · rw [hname.move_eq] at hrest
      rw [List.foldl_cons, hname.move_eq] at hleads
      exact .down hname hfind (ih hrest hleads)

lemma Leads.goes (h : Leads d followLast links asFolder here steps goal) (hd : d.IsLinkFree)
    (hgoal : goal = .entry place .folder) : d.Goes here steps := by
  induction h with
  | here => trivial
  | stay _ ih => exact ⟨Or.inl rfl, ih hgoal⟩
  | up _ ih => exact ⟨Or.inr (Or.inl rfl), ih hgoal⟩
  | vacant | file | link => cases hgoal
  | down hname hfind _ ih => exact ⟨Or.inr (Or.inr ⟨hname, hfind⟩), hname.move_eq ▸ ih hgoal⟩
  | through _ hfind => exact absurd hfind (hd _ _)

/-- Whatever a way leads to, it goes through folders before its last step. -/
lemma Leads.goes_before {all : List String} (h : Leads d followLast links asFolder here all goal) (hd : d.IsLinkFree)
    (hall : before ++ later = all) (hlater : later ≠ []) : d.Goes here before := by
  induction h generalizing before with
  | here => exact absurd (List.append_eq_nil_iff.mp hall).2 hlater
  | stay _ ih =>
    cases before with
    | nil => trivial
    | cons step before =>
      obtain ⟨rfl, hrest⟩ := List.cons.inj hall
      exact ⟨Or.inl rfl, ih hrest⟩
  | up _ ih =>
    cases before with
    | nil => trivial
    | cons step before =>
      obtain ⟨rfl, hrest⟩ := List.cons.inj hall
      exact ⟨Or.inr (Or.inl rfl), ih hrest⟩
  | vacant | file | link =>
    cases before with
    | nil => trivial
    | cons step before => exact absurd (List.append_eq_nil_iff.mp (List.cons.inj hall).2).2 hlater
  | down hname hfind _ ih =>
    cases before with
    | nil => trivial
    | cons step before =>
      obtain ⟨rfl, hrest⟩ := List.cons.inj hall
      exact ⟨Or.inr (Or.inr ⟨hname, hfind⟩), hname.move_eq ▸ ih hrest⟩
  | through _ hfind => exact absurd hfind (hd _ _)

/-- What is no folder is reached by a name from a folder. -/
lemma Leads.exists_last (h : Leads d followLast links asFolder here steps goal) (hd : d.IsLinkFree)
    (hgoal : ∀ place, goal ≠ .entry place .folder) :
    ∃ before name, steps = before ++ [name] ∧ d.Goes here before ∧ IsName name := by
  induction h with
  | here => exact absurd rfl (hgoal _)
  | stay _ ih =>
    obtain ⟨before, name, rfl, hgoes, hname⟩ := ih hgoal
    exact ⟨"." :: before, name, rfl, ⟨Or.inl rfl, hgoes⟩, hname⟩
  | up _ ih =>
    obtain ⟨before, name, rfl, hgoes, hname⟩ := ih hgoal
    exact ⟨".." :: before, name, rfl, ⟨Or.inr (Or.inl rfl), hgoes⟩, hname⟩
  | @vacant _ _ _ step hname | @file _ _ step _ hname | @link _ _ step _ hname =>
    exact ⟨[], step, rfl, trivial, hname⟩
  | @down _ _ _ step _ _ hstep hfind _ ih =>
    obtain ⟨before, name, rfl, hgoes, hname⟩ := ih hgoal
    exact ⟨step :: before, name, rfl, ⟨Or.inr (Or.inr ⟨hstep, hfind⟩), hstep.move_eq ▸ hgoes⟩, hname⟩
  | through _ hfind => exact absurd hfind (hd _ _)

lemma isFolder_iff (hd : d.IsLinkFree) : d.isFolder path = true ↔ IsUsable path ∧ d.Goes (d.start path) (Disk.steps path) := by
  have hplace : d.isFolder path = true ↔ ∃ place, d.resolve true path = .ok (.entry place .folder) := by
    rw [isFolder, folderPlace?]
    cases d.resolve true path with
    | error failure => simp
    | ok goal =>
      cases goal with
      | vacant place asFolder => simp
      | entry place e => cases e <;> simp
  rw [hplace]
  constructor
  · rintro ⟨place, h⟩
    obtain ⟨husable, hleads⟩ := resolve_eq_ok_iff.mp h
    exact ⟨husable, hleads.goes hd rfl⟩
  · rintro ⟨husable, hgoes⟩
    exact ⟨_, resolve_eq_ok_iff.mpr ⟨husable, hgoes.leads⟩⟩

lemma Goes.mono (h : d.Goes here steps)
    (hfolder : ∀ place, d.find? place = some .folder → after.find? place = some .folder) : after.Goes here steps := by
  induction steps generalizing here with
  | nil => trivial
  | cons step rest ih =>
    obtain ⟨hstep, hrest⟩ := h
    exact ⟨hstep.imp_right (Or.imp_right (And.imp_right (hfolder _))), ih hrest⟩

lemma Goes.keeps (h : d.Goes here steps) (hkeeps : d.Keeps after) : after.Goes here steps := h.mono hkeeps.folder

lemma takes_iff (hd : d.IsLinkFree) : d.Takes place ↔ d.find? place ≠ some .folder := by
  rw [Takes]
  cases hfind : d.find? place with
  | none => simp
  | some e =>
    cases e with
    | folder | file content => simp
    | link target => exact absurd hfind (hd _ _)

def IsEntryName (name : String) : Prop := name ≠ "." ∧ name ≠ ".." ∧ name ≠ "" ∧ '/' ∉ name.toList

/-- Each entry is listed once, under a folder and with proper names, and the working folder is one. -/
structure Sound (d : Disk) : Prop where
  find_eq : ∀ entry ∈ d.entries, d.find? entry.1 = some entry.2
  ne_root : ∀ entry ∈ d.entries, entry.1 ≠ []
  parent : ∀ entry ∈ d.entries, d.find? entry.1.dropLast = some .folder
  name : ∀ entry ∈ d.entries, ∀ name ∈ entry.1, IsEntryName name
  current : d.find? d.current = some .folder

instance : DecidablePred IsEntryName := fun _ => inferInstanceAs (Decidable (_ ∧ _))

lemma IsEntryName.isAbsolute_eq (h : IsEntryName name) : Path.isAbsolute name = false := by
  obtain ⟨_, _, _, hslash⟩ := h
  cases hlist : name.toList with
  | nil => simp [Path.isAbsolute, hlist]
  | cons c rest =>
    rw [hlist, List.mem_cons, not_or] at hslash
    simp [Path.isAbsolute, hlist, Ne.symm hslash.1]

lemma IsEntryName.pieces_eq (h : IsEntryName name) : Path.pieces name = [name.toList] := by
  obtain ⟨_, _, hne, hslash⟩ := h
  have hlist : name.toList ≠ [] := mt String.toList_eq_nil_iff.mp hne
  rw [Path.pieces, Text.splitAt_of_not_mem hslash]
  simp [hlist]

lemma IsEntryName.ofText_eq (h : IsEntryName name) : Path.Component.ofText name.toList = .normal name := by
  have hcurrent : name.toList ≠ ['.'] := fun heq => h.1 (String.toList_inj.mp heq)
  have hparent : name.toList ≠ ['.', '.'] := fun heq => h.2.1 (String.toList_inj.mp heq)
  rw [Path.Component.ofText, if_neg hcurrent, if_neg hparent, String.ofList_toList]

lemma IsEntryName.named_eq (h : IsEntryName name) : Path.named name = [.normal name] := by
  rw [Path.named, h.pieces_eq, List.map_singleton, h.ofText_eq]
  rfl

lemma IsEntryName.components_join (h : IsEntryName name) (folder : String) :
    Path.components (Path.join folder name) = Path.components folder ++ [.normal name] := by
  rw [Path.components, Path.components, Path.pieces_join h.isAbsolute_eq, Path.isAbsolute_join h.isAbsolute_eq,
    h.pieces_eq, List.map_append, List.map_singleton, h.ofText_eq]
  cases (Path.pieces folder).map Path.Component.ofText with
  | nil => split <;> simp
  | cons first rest => cases first <;> split <;> simp

lemma IsEntryName.components_eq (h : IsEntryName name) : Path.components name = [.normal name] := by
  have hjoin : Path.join "" name = name := by
    rw [Path.join_eq "" h.isAbsolute_eq]
    exact String.empty_append
  rw [← hjoin, h.components_join, hjoin]
  rfl

lemma IsEntryName.fileName?_join (h : IsEntryName name) (folder : String) :
    Path.fileName? (Path.join folder name) = some name := by
  rw [Path.fileName?_join folder h.isAbsolute_eq (by simp [h.named_eq])]
  obtain ⟨start, hstart⟩ := Path.exists_components_eq name
  rw [Path.fileName?, hstart, h.named_eq, List.getLast?_append_of_ne_nil _ (by simp)]
  rfl

section Extension

variable {stem extension : List Char}

lemma IsEntryName.suffix?_join (h : IsEntryName name) (htext : name.toList = stem ++ '.' :: extension)
    (hdot : '.' ∉ extension) (folder : String) :
    Path.suffix? (Path.join folder name) = some (String.ofList extension) := by
  simp only [Path.suffix?, h.fileName?_join, Option.bind_eq_bind, Option.bind_some, htext,
    Text.cutLast?_append stem hdot]
  rfl

lemma IsEntryName.extension?_join (h : IsEntryName name) (htext : name.toList = stem ++ '.' :: extension)
    (hdot : '.' ∉ extension) (hstem : stem ≠ []) (folder : String) :
    Path.extension? (Path.join folder name) = some (String.ofList extension) := by
  simp only [Path.extension?, h.fileName?_join, Option.bind_eq_bind, Option.bind_some, htext,
    Text.cutLast?_append stem hdot, if_neg hstem]
  rfl

end Extension

instance (d : Disk) : Decidable d.Sound :=
  decidable_of_iff ((∀ entry ∈ d.entries, d.find? entry.1 = some entry.2) ∧ (∀ entry ∈ d.entries, entry.1 ≠ []) ∧
      (∀ entry ∈ d.entries, d.find? entry.1.dropLast = some .folder) ∧
      (∀ entry ∈ d.entries, ∀ name ∈ entry.1, IsEntryName name) ∧ d.find? d.current = some .folder)
    ⟨fun ⟨hfind, hroot, hparent, hname, hcurrent⟩ => ⟨hfind, hroot, hparent, hname, hcurrent⟩,
      fun h => ⟨h.find_eq, h.ne_root, h.parent, h.name, h.current⟩⟩

lemma mem_entries_of_find? (hne : place ≠ []) (h : d.find? place = some e) : (place, e) ∈ d.entries := by
  rw [find?, if_neg hne] at h
  obtain ⟨⟨found, e'⟩, hfound, rfl⟩ := Option.map_eq_some_iff.mp h
  have hplace : found = place := by simpa using List.find?_some hfound
  exact hplace ▸ List.mem_of_find?_eq_some hfound

lemma isLinkFree_of_forall (h : ∀ entry ∈ d.entries, ∀ target, entry.2 ≠ .link target) : d.IsLinkFree := by
  intro place target hfind
  by_cases hne : place = []
  · rw [hne, find?_root] at hfind
    cases hfind
  · exact h _ (mem_entries_of_find? hne hfind) target rfl

lemma Sound.find?_dropLast (h : d.Sound) (hfind : d.find? place = some e) : d.find? place.dropLast = some .folder := by
  by_cases hne : place = []
  · rw [hne]
    exact find?_root
  · exact h.parent _ (mem_entries_of_find? hne hfind)

lemma Sound.find?_above (h : d.Sound) (hfind : d.find? (here ++ [step]) = some e) : d.find? here = some .folder := by
  simpa using h.find?_dropLast hfind

lemma Sound.find?_take (h : d.Sound) (hfind : d.find? place = some .folder) (n : Nat) :
    d.find? (place.take n) = some .folder := by
  induction place using List.reverseRecOn generalizing n with
  | nil => simpa using hfind
  | append_singleton above name ih =>
    by_cases hn : n ≤ above.length
    · rw [List.take_append_of_le_length hn]
      exact ih (h.find?_above hfind) n
    · rw [List.take_of_length_le (by simp; omega)]
      exact hfind

lemma Sound.names (h : d.Sound) (hfind : d.find? place = some e) : ∀ name ∈ place, IsEntryName name := by
  by_cases hne : place = []
  · simp [hne]
  · exact h.name _ (mem_entries_of_find? hne hfind)

lemma Sound.put (h : d.Sound) (hhere : d.find? here = some .folder) (hname : IsEntryName step)
    (hkind : e = .folder ∨ d.find? (here ++ [step]) ≠ some .folder) : (d.put (here ++ [step]) e).Sound := by
  have hfolder : ∀ place, d.find? place = some .folder → (d.put (here ++ [step]) e).find? place = some .folder := by
    intro place hplace
    by_cases hsame : place = here ++ [step]
    · rw [hsame] at hplace ⊢
      rw [find?_put_self (by simp), hkind.resolve_right (fun hne => hne hplace)]
    · rw [find?_put_of_ne hsame, hplace]
  have hmem : ∀ entry ∈ (d.put (here ++ [step]) e).entries,
      entry = (here ++ [step], e) ∨ entry ∈ d.entries ∧ entry.1 ≠ here ++ [step] := by
    intro entry hentry
    simpa [Disk.put] using hentry
  refine ⟨?_, ?_, ?_, ?_, hfolder _ h.current⟩
  · intro entry hentry
    obtain rfl | ⟨hold, hne⟩ := hmem entry hentry
    · exact find?_put_self (by simp)
    · rw [find?_put_of_ne hne, h.find_eq entry hold]
  · intro entry hentry
    obtain rfl | ⟨hold, _⟩ := hmem entry hentry
    · simp
    · exact h.ne_root entry hold
  · intro entry hentry
    obtain rfl | ⟨hold, _⟩ := hmem entry hentry
    · simpa using hfolder here hhere
    · exact hfolder _ (h.parent entry hold)
  · intro entry hentry
    obtain rfl | ⟨hold, _⟩ := hmem entry hentry
    · intro name hmem
      obtain habove | hlast := List.mem_append.mp hmem
      · exact h.names hhere name habove
      · rw [List.mem_singleton.mp hlast]
        exact hname
    · exact h.name entry hold

lemma Goes.find?_eq (h : d.Goes here steps) (hd : d.Sound) (hhere : d.find? here = some .folder) :
    d.find? (steps.foldl move here) = some .folder := by
  induction steps generalizing here with
  | nil => exact hhere
  | cons step rest ih =>
    obtain ⟨rfl | rfl | ⟨hname, hfind⟩, hrest⟩ := h
    · exact ih hrest hhere
    · exact ih hrest (hd.find?_dropLast hhere)
    · exact ih hrest (hname.move_eq ▸ hfind)

lemma find?_start (hd : d.Sound) (path : String) : d.find? (d.start path) = some .folder := by
  rw [start]
  split
  · exact find?_root
  · exact hd.current

end CodeOutline.Disk
