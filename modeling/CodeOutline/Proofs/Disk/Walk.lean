import CodeOutline.Disk
import Mathlib.Data.List.Basic

/-! The ways that paths take over a disk, step by step, to the entry or the free name that they lead to. -/

namespace CodeOutline.Disk

variable {d : Disk} {followLast asFolder : Bool} {links : Nat} {here place : Place} {steps : List String} {goal : Goal}
  {content : List UInt8} {target : String}

def IsName (step : String) : Prop := step ≠ "." ∧ step ≠ ".." ∧ step.utf8ByteSize ≤ longestName

/-- From a folder the steps lead to a goal, through at most `links` links. -/
inductive Leads (d : Disk) (followLast : Bool) : Nat → Bool → Place → List String → Goal → Prop
  | here {links : Nat} {asFolder : Bool} {here : Place} : Leads d followLast links asFolder here [] (.entry here .folder)
  | stay {links : Nat} {asFolder : Bool} {here : Place} {rest : List String} {goal : Goal} :
      Leads d followLast links asFolder here rest goal → Leads d followLast links asFolder here ("." :: rest) goal
  | up {links : Nat} {asFolder : Bool} {here : Place} {rest : List String} {goal : Goal} :
      Leads d followLast links asFolder here.dropLast rest goal →
      Leads d followLast links asFolder here (".." :: rest) goal
  | vacant {links : Nat} {asFolder : Bool} {here : Place} {step : String} : IsName step →
      d.find? (here ++ [step]) = none → Leads d followLast links asFolder here [step] (.vacant (here ++ [step]) asFolder)
  | down {links : Nat} {asFolder : Bool} {here : Place} {step : String} {rest : List String} {goal : Goal} : IsName step →
      d.find? (here ++ [step]) = some .folder → Leads d followLast links asFolder (here ++ [step]) rest goal →
      Leads d followLast links asFolder here (step :: rest) goal
  | file {links : Nat} {here : Place} {step : String} {content : List UInt8} : IsName step →
      d.find? (here ++ [step]) = some (.file content) →
      Leads d followLast links false here [step] (.entry (here ++ [step]) (.file content))
  | link {links : Nat} {here : Place} {step target : String} : IsName step → followLast = false →
      d.find? (here ++ [step]) = some (.link target) →
      Leads d followLast links false here [step] (.entry (here ++ [step]) (.link target))
  | through {links : Nat} {asFolder : Bool} {here : Place} {step target : String} {rest : List String} {goal : Goal} :
      IsName step → d.find? (here ++ [step]) = some (.link target) → target ≠ "" →
      ¬(rest = [] ∧ followLast = false ∧ asFolder = false) →
      Leads d followLast links (asFolder || (rest.isEmpty && endsAsFolder target))
        (if Path.isAbsolute target then [] else here) (Disk.steps target ++ rest) goal →
      Leads d followLast (links + 1) asFolder here (step :: rest) goal

def throughLink (d : Disk) (followLast : Bool) :
    Nat → Bool → Place → String → List String → Except Failure Goal
  | 0, _, _, _, _ => .error .tooManyLinks
  | links + 1, asFolder, here, target, rest =>
    if target = "" then .error .notFound
    else
      d.walk followLast links (asFolder || (rest.isEmpty && endsAsFolder target))
        (if Path.isAbsolute target then [] else here) (Disk.steps target ++ rest)

lemma walk_eq : d.walk followLast links asFolder =
    d.walkSteps followLast asFolder (d.throughLink followLast links asFolder) := by
  cases links <;> rfl

lemma walk_of_leads (h : Leads d followLast links asFolder here steps goal) :
    d.walk followLast links asFolder here steps = .ok goal := by
  induction h with
  | here => rw [walk_eq]; rfl
  | stay _ ih =>
    rw [walk_eq] at ih ⊢
    simpa [walkSteps] using ih
  | up _ ih =>
    rw [walk_eq] at ih ⊢
    simpa [walkSteps] using ih
  | vacant hname hfind =>
    rw [walk_eq]
    simp [walkSteps, hname.1, hname.2.1, Nat.not_lt.mpr hname.2.2, hfind]
  | down hname hfind _ ih =>
    rw [walk_eq] at ih ⊢
    simpa [walkSteps, hname.1, hname.2.1, Nat.not_lt.mpr hname.2.2, hfind] using ih
  | file hname hfind =>
    rw [walk_eq]
    simp [walkSteps, hname.1, hname.2.1, Nat.not_lt.mpr hname.2.2, hfind]
  | link hname hlast hfind =>
    rw [walk_eq]
    simp [walkSteps, hname.1, hname.2.1, Nat.not_lt.mpr hname.2.2, hfind, hlast]
  | @through links asFolder _ _ _ rest _ hname hfind htarget hlast _ ih =>
    rw [walk_eq]
    have hfollow : ¬(rest = [] ∧ ¬followLast = true ∧ ¬asFolder = true) := by simpa using hlast
    simp only [walkSteps, hname.1, hname.2.1, Nat.not_lt.mpr hname.2.2, hfind, if_false, if_neg hfollow]
    exact (if_neg htarget).trans ih

lemma leads_of_walkSteps {viaLink : Place → String → List String → Except Failure Goal}
    (hvia : ∀ here step target rest, IsName step → d.find? (here ++ [step]) = some (.link target) →
      ¬(rest = [] ∧ followLast = false ∧ asFolder = false) → viaLink here target rest = .ok goal →
      Leads d followLast links asFolder here (step :: rest) goal)
    (h : d.walkSteps followLast asFolder viaLink here steps = .ok goal) :
    Leads d followLast links asFolder here steps goal := by
  induction steps generalizing here with
  | nil => exact Except.ok.inj h ▸ .here
  | cons step rest ih =>
    unfold walkSteps at h
    by_cases hdot : step = "."
    · rw [if_pos hdot] at h
      exact hdot ▸ .stay (ih h)
    by_cases hup : step = ".."
    · rw [if_neg hdot, if_pos hup] at h
      exact hup ▸ .up (ih h)
    by_cases hlong : longestName < step.utf8ByteSize
    · rw [if_neg hdot, if_neg hup, if_pos hlong] at h
      cases h
    rw [if_neg hdot, if_neg hup, if_neg hlong] at h
    have hname : IsName step := ⟨hdot, hup, Nat.not_lt.mp hlong⟩
    cases hfind : d.find? (here ++ [step]) with
    | none =>
      simp only [hfind] at h
      split at h
      · rename_i hrest
        subst hrest
        exact Except.ok.inj h ▸ .vacant hname hfind
      · cases h
    | some e =>
      cases e with
      | folder =>
        simp only [hfind] at h
        exact .down hname hfind (ih h)
      | file content =>
        simp only [hfind] at h
        split at h
        · rename_i hends
          obtain ⟨rfl, hfolder⟩ := hends
          obtain rfl : asFolder = false := by simpa using hfolder
          exact Except.ok.inj h ▸ .file hname hfind
        · cases h
      | link target =>
        simp only [hfind] at h
        split at h
        · rename_i hends
          obtain ⟨rfl, hlast, hfolder⟩ := hends
          obtain rfl : asFolder = false := by simpa using hfolder
          exact Except.ok.inj h ▸ .link hname (by simpa using hlast) hfind
        · rename_i hends
          exact hvia here step target rest hname hfind (by simpa using hends) h

lemma leads_of_walk (h : d.walk followLast links asFolder here steps = .ok goal) :
    Leads d followLast links asFolder here steps goal := by
  -- a link that is followed uses up one of those that are left
  induction links generalizing asFolder here steps with
  | zero =>
    rw [walk_eq] at h
    refine leads_of_walkSteps (fun _ _ _ _ _ _ _ hvia => ?_) h
    cases hvia
  | succ links ih =>
    rw [walk_eq] at h
    refine leads_of_walkSteps (fun here step target rest hname hfind hlast hvia => ?_) h
    by_cases htarget : target = ""
    · rw [throughLink, if_pos htarget] at hvia
      cases hvia
    · rw [throughLink, if_neg htarget] at hvia
      exact .through hname hfind htarget hlast (ih hvia)

lemma walk_eq_ok_iff : d.walk followLast links asFolder here steps = .ok goal ↔
    Leads d followLast links asFolder here steps goal := ⟨leads_of_walk, walk_of_leads⟩

/-- What is known of the place of a goal. The folder where a way begins need not be listed. -/
def Goal.Stands (d : Disk) : Goal → Prop
  | .entry _ .folder => True
  | .entry place e => d.find? place = some e
  | .vacant place _ => d.find? place = none

lemma Leads.stands (h : Leads d followLast links asFolder here steps goal) : goal.Stands d := by
  induction h with
  | here => trivial
  | vacant _ hfind | file _ hfind | link _ _ hfind => exact hfind
  | stay _ ih | up _ ih | down _ _ _ ih | through _ _ _ _ _ ih => exact ih

lemma Leads.ne_link (h : Leads d true links asFolder here steps goal) : goal ≠ .entry place (.link target) := by
  induction h with
  | here | vacant | file => simp
  | link _ hlast => cases hlast
  | stay _ ih | up _ ih | down _ _ _ ih | through _ _ _ _ _ ih => exact ih

lemma Leads.ne_file (h : Leads d followLast links asFolder here steps goal) (hfolder : asFolder = true) :
    goal ≠ .entry place (.file content) := by
  induction h with
  | here | vacant => simp
  | file | link => cases hfolder
  | stay _ ih | up _ ih | down _ _ _ ih => exact ih hfolder
  | through _ _ _ _ _ ih => exact ih (by simp [hfolder])

lemma Leads.follow (h : Leads d false links asFolder here steps goal)
    (hgoal : ∀ place target, goal ≠ .entry place (.link target)) : Leads d true links asFolder here steps goal := by
  induction h with
  | here => exact .here
  | stay _ ih => exact .stay (ih hgoal)
  | up _ ih => exact .up (ih hgoal)
  | vacant hname hfind => exact .vacant hname hfind
  | down hname hfind _ ih => exact .down hname hfind (ih hgoal)
  | file hname hfind => exact .file hname hfind
  | link => exact absurd rfl (hgoal _ _)
  | through hname hfind htarget _ _ ih => exact .through hname hfind htarget (by simp) (ih hgoal)

/-- A file that a path ends at without a link at the end is in the folder that the path before it leads to. -/
lemma Leads.place_eq {name : String} {all : List String} (hdot : name ≠ ".") (hup : name ≠ "..")
    (h : Leads d false links asFolder here all goal) (hall : steps ++ [name] = all) (hfolder : asFolder = false)
    (hgoal : goal = .entry place (.file content)) :
    ∃ folder, Leads d true links true here steps (.entry folder .folder) ∧ place = folder ++ [name] := by
  induction h generalizing steps with
  | here => simp at hall
  | stay _ ih =>
    cases steps with
    | nil => exact absurd (List.cons.inj hall).1 hdot
    | cons step steps =>
      obtain ⟨rfl, hrest⟩ := List.cons.inj hall
      obtain ⟨folder, hleads, hplace⟩ := ih hrest hfolder hgoal
      exact ⟨folder, .stay hleads, hplace⟩
  | up _ ih =>
    cases steps with
    | nil => exact absurd (List.cons.inj hall).1 hup
    | cons step steps =>
      obtain ⟨rfl, hrest⟩ := List.cons.inj hall
      obtain ⟨folder, hleads, hplace⟩ := ih hrest hfolder hgoal
      exact ⟨folder, .up hleads, hplace⟩
  | vacant | link => cases hgoal
  | down hstep hfind hdown ih =>
    cases steps with
    | nil =>
      obtain ⟨rfl, rfl⟩ := List.cons.inj hall
      subst hgoal
      cases hdown
    | cons step steps =>
      obtain ⟨rfl, hrest⟩ := List.cons.inj hall
      obtain ⟨folder, hleads, hplace⟩ := ih hrest hfolder hgoal
      exact ⟨folder, .down hstep hfind hleads, hplace⟩
  | file =>
    cases steps with
    | nil =>
      cases hgoal
      exact ⟨_, .here, by rw [(List.cons.inj hall).1]⟩
    | cons step steps => simp at hall
  | @through _ asFolder _ _ target rest _ hstep hfind htarget hlast _ ih =>
    cases steps with
    | nil => exact absurd ⟨(List.cons.inj hall).2.symm, rfl, hfolder⟩ hlast
    | cons step steps =>
      obtain ⟨rfl, hrest⟩ := List.cons.inj hall
      -- the steps of the target come first, so the name is still the last step
      have hsteps : (Disk.steps target ++ steps) ++ [name] = Disk.steps target ++ rest := by
        rw [List.append_assoc]
        exact congrArg (Disk.steps target ++ ·) hrest
      have hopen : (asFolder || (rest.isEmpty && endsAsFolder target)) = false := by
        simp [hfolder, ← hrest]
      obtain ⟨folder, hleads, hplace⟩ := ih hsteps hopen hgoal
      exact ⟨folder, .through hstep hfind htarget (by simp) (by simpa using hleads), hplace⟩

end CodeOutline.Disk
