import CodeOutline.Proofs.Document.Overlay

/-! Lookups on a disk that documents have been exported to: what they find does not depend on the documents. -/

namespace CodeOutline

open Disk

variable {d after : Disk} {folder path : String} {here place : Place} {steps before : List String} {goal : Goal}
  {links : Nat} {asFolder : Bool} {name : String} {e : Entry}

namespace Disk

/-- The names of a place that is reached from a folder are among the steps, or the place up to there is a folder. -/
lemma mem_of_prefix_foldl (hd : d.Sound) (hhere : d.find? here = some .folder) {above : Place}
    (h : above ++ [name] <+: before.foldl move here) : name ∈ before ∨ d.find? (above ++ [name]) = some .folder := by
  induction before using List.reverseRecOn with
  | nil =>
    obtain ⟨rest, hrest⟩ := h
    have htake := hd.find?_take hhere (above ++ [name]).length
    rw [List.foldl_nil] at hrest
    rw [← hrest, List.take_left] at htake
    exact Or.inr htake
  | append_singleton before step ih =>
    rw [List.foldl_append, List.foldl_cons, List.foldl_nil, move] at h
    have hmore : above ++ [name] <+: before.foldl move here →
        name ∈ before ++ [step] ∨ d.find? (above ++ [name]) = some .folder := fun h =>
      (ih h).imp_left (List.mem_append_left [step])
    split at h
    · exact hmore h
    · split at h
      · exact hmore (h.trans (List.dropLast_prefix _))
      · obtain heq | hbefore := List.prefix_concat_iff.mp h
        · obtain rfl : name = step := (List.cons.inj (List.append_inj' heq rfl).2).1
          exact Or.inl (by simp)
        · exact hmore hbefore

lemma status_eq_ok_iff : d.status path = .ok e ↔ ∃ place, d.resolve true path = .ok (.entry place e) := by
  rw [status]
  cases hresolve : d.resolve true path with
  | error failure => simp [bind, Except.bind]
  | ok goal =>
    cases goal with
    | vacant place asFolder => simp [bind, Except.bind]
    | entry place found => simp [bind, Except.bind, pure, Except.pure]

lemma find?_of_status {content : List UInt8} (hd : d.IsLinkFree) (h : d.status path = .ok (.file content)) :
    d.find? (d.placeOf path) = some (.file content) := by
  obtain ⟨place, hresolve⟩ := status_eq_ok_iff.mp h
  have hleads := (resolve_eq_ok_iff.mp hresolve).2
  have hplace : place = d.placeOf path := by
    rw [placeOf_eq]
    exact hleads.place_eq_foldl hd
  exact hplace ▸ hleads.stands

lemma toOption_read (d : Disk) (path : String) :
    (d.read path).toOption = (d.status path).toOption.bind fun e =>
      match e with
      | .file content => some content
      | _ => none := by
  rw [read]
  cases d.status path with
  | error failure => rfl
  | ok e => cases e <;> rfl

variable {other : String}

lemma steps_join (h : Path.isAbsolute other = false) : Disk.steps (Path.join path other) = Disk.steps path ++ Disk.steps other := by
  rw [Disk.steps, Path.pieces_join h, List.map_append, ← Disk.steps, ← Disk.steps]

lemma start_join (d : Disk) (h : Path.isAbsolute other = false) : d.start (Path.join path other) = d.start path := by
  rw [start, Path.isAbsolute_join h, start]

lemma placeOf_join (d : Disk) (h : Path.isAbsolute other = false) :
    d.placeOf (Path.join path other) = (Disk.steps other).foldl move (d.placeOf path) := by
  rw [placeOf_eq, placeOf_eq, steps_join h, start_join d h, List.foldl_append]

lemma exists?_eq (d : Disk) (path : String) : d.exists? path = (d.status path).toOption.isSome := rfl

end Disk

namespace Document

/-- Nowhere do the steps go up from a folder that is missing on the way to `folder`. -/
def SidestepsFrom (d : Disk) (folder : String) (here : Place) (steps : List String) : Prop :=
  ∀ before later, steps = before ++ ".." :: later → ¬IsMissing d folder (before.foldl move here)

def Sidesteps (d : Disk) (folder path : String) : Prop := SidestepsFrom d folder (d.start path) (Disk.steps path)

lemma SidestepsFrom.tail {step : String} (h : SidestepsFrom d folder here (step :: steps)) :
    SidestepsFrom d folder (move here step) steps := by
  rintro before later rfl
  exact h (step :: before) later rfl

lemma SidestepsFrom.append {later : List String} (h : SidestepsFrom d folder here before) (hlater : ".." ∉ later) :
    SidestepsFrom d folder here (before ++ later) := by
  intro first last heq
  obtain ⟨rest, rfl, hrest⟩ | ⟨rest, rfl, hrest⟩ := List.append_eq_append_iff.mp heq
  · exact absurd (hrest ▸ by simp) hlater
  · cases rest with
    | nil =>
      rw [List.nil_append] at hrest
      exact absurd (hrest ▸ List.mem_cons_self) hlater
    | cons step rest =>
      obtain ⟨rfl, _⟩ := List.cons.inj hrest
      exact h first rest rfl

lemma sidestepsFrom_of_not_mem (h : ".." ∉ steps) : SidestepsFrom d folder here steps := by
  rintro before later rfl
  simp at h

lemma Sidesteps.join {other : String} (h : Sidesteps d folder path) (hrelative : Path.isAbsolute other = false)
    (hup : ".." ∉ Disk.steps other) : Sidesteps d folder (Path.join path other) := by
  rw [Sidesteps, steps_join hrelative, start_join d hrelative]
  exact SidestepsFrom.append h hup

lemma mem_steps_of_isMissing (hd : d.Sound) {above : Place} (h : IsMissing d folder (above ++ [name])) :
    name ∈ Disk.steps folder := by
  obtain ⟨hnone, before, hbefore, hplace⟩ := h
  have hpre : above ++ [name] <+: before.foldl move (d.start folder) := hplace ▸ List.prefix_refl _
  obtain hmem | hfolder := mem_of_prefix_foldl hd (find?_start hd folder) hpre
  · exact hbefore.subset hmem
  · rw [hnone] at hfolder
    cases hfolder

lemma getLast?_fileName (path : String) : (fileName path).toList.getLast? = some 'd' := by
  rw [toList_fileName, List.getLast?_append_of_ne_nil _ (by decide)]
  decide

lemma not_isTarget {above : Place} (h : name.toList.getLast? ≠ some 'd') : ¬IsTarget d folder (above ++ [name]) := by
  rintro ⟨_, _, source, hplace⟩
  apply h
  rw [(List.cons.inj (List.append_inj' hplace rfl).2).1]
  exact getLast?_fileName source

/-- From a missing folder there is no way to anything that was there before. -/
lemma Overlays.touched_of_leads (h : Overlays folder d after) (hd : d.Sound)
    (hleads : Leads after true links asFolder here steps goal) (hhere : IsMissing d folder here)
    (hup : SidestepsFrom d folder here steps) (hgoal : goal = .entry place e) : IsTouched d folder place := by
  have hbelow : ∀ {here step} {e : Entry}, IsMissing d folder here → after.find? (here ++ [step]) = some e →
      IsTouched d folder (here ++ [step]) := by
    intro here step e hhere hfind
    by_contra huntouched
    rw [h.find?_eq huntouched] at hfind
    cases hhere.1.symm.trans (hd.find?_above hfind)
  -- the way stays in folders that were missing, up to a document at its end
  induction hleads with
  | here =>
    cases hgoal
    exact Or.inl hhere
  | stay _ ih => exact ih hhere hup.tail hgoal
  | up => exact absurd hhere (hup [] _ rfl)
  | vacant => cases hgoal
  | @down _ _ _ step _ _ hname hfind _ ih =>
    obtain hmissing | htarget := hbelow hhere hfind
    · exact ih hmissing (hname.move_eq ▸ hup.tail) hgoal
    · exact absurd hfind (h.target _ htarget)
  | file _ hfind =>
    cases hgoal
    exact hbelow hhere hfind
  | link _ hlast => cases hlast
  | through _ hfind => exact absurd hfind (h.linkFree _ _)

lemma Overlays.leads_before (h : Overlays folder d after) (hd : d.Sound)
    (hleads : Leads after true links asFolder here steps goal)
    (hup : SidestepsFrom d folder here steps) (hgoal : goal = .entry place e) (hplace : ¬IsTouched d folder place) :
    Leads d true links asFolder here steps goal := by
  induction hleads with
  | here => exact .here
  | stay _ ih => exact .stay (ih hup.tail hgoal)
  | up _ ih => exact .up (ih hup.tail hgoal)
  | vacant => cases hgoal
  | @down _ _ here step rest _ hname hfind hdown ih =>
    have hup' : SidestepsFrom d folder (here ++ [step]) rest := hname.move_eq ▸ hup.tail
    have huntouched : ¬IsTouched d folder (here ++ [step]) := by
      rintro (hmissing | htarget)
      · exact hplace (h.touched_of_leads hd hdown hmissing hup' hgoal)
      · exact h.target _ htarget hfind
    exact .down hname ((h.find?_eq huntouched).symm.trans hfind) (ih hup' hgoal)
  | file hname hfind =>
    cases hgoal
    exact .file hname ((h.find?_eq hplace).symm.trans hfind)
  | link _ hlast => cases hlast
  | through _ hfind => exact absurd hfind (h.linkFree _ _)

/-- A disk without links, on which the output folder and those on the way to it have no hidden names. -/
structure IsPlain (folder : String) (d : Disk) : Prop where
  sound : d.Sound
  linkFree : d.IsLinkFree
  visible : ∀ name ∈ Disk.steps folder, name ≠ "." → name ≠ ".." → name.toList.head? ≠ some '.'

lemma not_isMissing (hd : IsPlain folder d) {above : Place} (hhidden : name.toList.head? = some '.') (hdot : name ≠ ".")
    (hup : name ≠ "..") : ¬IsMissing d folder (above ++ [name]) := fun h =>
  hd.visible name (mem_steps_of_isMissing hd.sound h) hdot hup hhidden

variable (hd : IsPlain folder d) (h : Overlays folder d after) (hup : Sidesteps d folder path)

include hd h hup

lemma Overlays.toOption_status (hplace : ¬IsTouched d folder (d.placeOf path)) :
    (after.status path).toOption = (d.status path).toOption := by
  have hiff : ∀ e, after.status path = .ok e ↔ d.status path = .ok e := by
    intro e
    rw [status_eq_ok_iff, status_eq_ok_iff]
    constructor
    · rintro ⟨place, hresolve⟩
      obtain ⟨husable, hleads⟩ := resolve_eq_ok_iff.mp hresolve
      rw [← start, h.start_eq] at hleads
      have hsame : place = d.placeOf path := by
        rw [Disk.placeOf_eq]
        exact hleads.place_eq_foldl h.linkFree
      exact ⟨place, resolve_eq_ok_iff.mpr ⟨husable, h.leads_before hd.sound hleads hup rfl (hsame ▸ hplace)⟩⟩
    · rintro ⟨place, hresolve⟩
      obtain ⟨husable, hleads⟩ := resolve_eq_ok_iff.mp hresolve
      have hsame : place = d.placeOf path := by
        rw [Disk.placeOf_eq]
        exact hleads.place_eq_foldl hd.linkFree
      cases e with
      | folder =>
        have hgoes := (hleads.goes hd.linkFree rfl).keeps h.keeps
        rw [← start, ← h.start_eq] at hgoes
        exact ⟨_, resolve_eq_ok_iff.mpr ⟨husable, hgoes.leads⟩⟩
      | file content =>
        have hfile : after.find? place = some (.file content) := (h.find?_eq (hsame ▸ hplace)).trans hleads.stands
        exact ⟨place, resolve_keeps hresolve (Or.inr ⟨content, rfl⟩) h.keeps hfile⟩
      | link target => exact absurd rfl hleads.ne_link
  cases hstatus : d.status path with
  | ok e => rw [(hiff e).mpr hstatus]
  | error failure =>
    cases hstatus' : after.status path with
    | ok e => rw [(hiff e).mp hstatus'] at hstatus; cases hstatus
    | error failure' => rfl

lemma Overlays.toOption_read (hplace : ¬IsTarget d folder (d.placeOf path)) :
    (after.read path).toOption = (d.read path).toOption := by
  by_cases hmissing : IsMissing d folder (d.placeOf path)
  · have hnone : ∀ {d' : Disk}, d'.IsLinkFree → d'.start path = d.start path →
        (∀ content, d'.find? (d.placeOf path) ≠ some (.file content)) → (d'.read path).toOption = none := by
      intro d' hlinks' hstart hfile
      cases hread : d'.read path with
      | error failure => rfl
      | ok content =>
        obtain ⟨place, hresolve⟩ := read_eq_ok hread
        have hleads := (resolve_eq_ok_iff.mp hresolve).2
        have hsame : place = d.placeOf path := by
          rw [Disk.placeOf_eq, ← hstart]
          exact hleads.place_eq_foldl hlinks'
        exact absurd (hsame ▸ hleads.stands) (hfile content)
    rw [hnone h.linkFree (h.start_eq path), hnone hd.linkFree rfl]
    · intro content hfile
      rw [hmissing.1] at hfile
      cases hfile
    · intro content hfile
      obtain hgone | hfolder := h.missing _ hmissing
      · rw [hgone] at hfile
        cases hfile
      · rw [hfolder] at hfile
        cases hfile
  · rw [Disk.toOption_read, Disk.toOption_read, h.toOption_status hd hup (not_or.mpr ⟨hmissing, hplace⟩)]

end Document

end CodeOutline
