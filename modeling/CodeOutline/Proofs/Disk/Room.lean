import CodeOutline.Proofs.Disk.Above

/-! Making the folders of a path: what comes to be on the way, and what a further attempt does. -/

namespace CodeOutline.Disk

open CodeOutline.Path

variable {d next made : Disk} {folder path upTo : String} {place : Place} {reversed : List Component} {c : Component}
  {failure : Failure} {above : Disk → Except Failure Unit × Disk} {e : Entry} {x : Except Failure Unit × Disk} {P : Disk → Prop}

lemma IsLinkFree.put (hd : d.IsLinkFree) (he : ∀ target, e ≠ .link target) (place : Place) : (d.put place e).IsLinkFree := by
  intro other target hfind
  by_cases hsame : other = place
  · rw [hsame] at hfind
    by_cases hroot : place = []
    · rw [hroot, find?_root] at hfind
      cases hfind
    · rw [find?_put_self hroot] at hfind
      exact he target (Option.some.inj hfind)
  · rw [find?_put_of_ne hsame] at hfind
    exact hd other target hfind

lemma exists_of_makeFolder (h : d.makeFolder path = .ok made) :
    ∃ place asFolder, d.resolve false path = .ok (.vacant place asFolder) ∧ made = d.put place .folder := by
  obtain ⟨goal, hresolve, hput⟩ := exists_of_bind_eq_ok h
  cases goal with
  | entry => cases hput
  | vacant place asFolder => exact ⟨place, asFolder, hresolve, (Except.ok.inj hput).symm⟩

lemma exists_last_of_makeFolder (hd : d.IsLinkFree) (h : d.makeFolder path = .ok made) :
    ∃ before name, steps path = before ++ [name] ∧ IsUsable path ∧ d.Goes (d.start path) before ∧ IsName name ∧
      d.find? ((steps path).foldl move (d.start path)) = none ∧
      made = d.put ((steps path).foldl move (d.start path)) .folder := by
  obtain ⟨place, asFolder, hresolve, rfl⟩ := exists_of_makeFolder h
  obtain ⟨husable, hleads⟩ := resolve_eq_ok_iff.mp hresolve
  obtain ⟨before, name, hsteps, hgoes, hname⟩ := hleads.exists_last hd (by simp)
  have hplace : place = (steps path).foldl move (d.start path) := hleads.place_eq_foldl hd
  exact ⟨before, name, hsteps, husable, hgoes, hname, hplace ▸ hleads.stands, hplace ▸ rfl⟩

lemma isFolder_of_makeFolder (hd : d.IsLinkFree) (h : d.makeFolder path = .ok made) : made.isFolder path = true := by
  have hgrows := grows_makeFolder h
  obtain ⟨before, name, hsteps, husable, hgoes, hname, hnone, rfl⟩ := exists_last_of_makeFolder hd h
  rw [isFolder_iff (hd.put (by simp) _)]
  refine ⟨husable, ?_⟩
  rw [start_eq hgrows.current_eq]
  have hplace : (steps path).foldl move (d.start path) = before.foldl move (d.start path) ++ [name] := by
    rw [hsteps, List.foldl_append, List.foldl_cons, List.foldl_nil, hname.move_eq]
  rw [hplace] at hgrows hnone ⊢
  have hnew : (d.put (before.foldl move (d.start path) ++ [name]) .folder).find?
      (before.foldl move (d.start path) ++ [name]) = some .folder := find?_put_self (by simp)
  rw [hsteps, goes_append]
  exact ⟨hgoes.keeps hgrows.keeps, Or.inr (Or.inr ⟨hname, hnew⟩), trivial⟩

lemma resolve_of_isFolder (hd : d.IsLinkFree) (h : d.isFolder path = true) : ∃ goal, d.resolve false path = .ok goal := by
  obtain ⟨husable, hgoes⟩ := (isFolder_iff hd).mp h
  exact ⟨_, resolve_eq_ok_iff.mpr ⟨husable, hgoes.leads⟩⟩

lemma makeFolder_of_isFolder (hd : d.IsLinkFree) (h : d.isFolder path = true) :
    d.makeFolder path = .error .alreadyExists := by
  obtain ⟨husable, hgoes⟩ := (isFolder_iff hd).mp h
  have hresolve : d.resolve false path = .ok _ := resolve_eq_ok_iff.mpr ⟨husable, hgoes.leads⟩
  rw [makeFolder, hresolve]
  rfl

lemma ensureFolder_of_made (h : d.makeFolder path = .ok made) : ensureFolder path above d = (.ok (), made) := by
  rw [ensureFolder, h]

lemma ensureFolder_of_other (h : d.makeFolder path = .error failure) (hfailure : failure ≠ .notFound) :
    ensureFolder path above d = (if d.isFolder path then .ok () else .error failure, d) := by
  rw [ensureFolder, h]
  cases failure <;> first | rfl | exact absurd rfl hfailure

lemma ensureFolder_of_blocked (h : d.makeFolder path = .error .notFound) (habove : above d = (.error failure, next)) :
    ensureFolder path above d = (.error failure, next) := by
  rw [ensureFolder, h]
  simp only [habove]

lemma ensureFolder_of_above (h : d.makeFolder path = .error .notFound) (habove : above d = (.ok (), next)) :
    ensureFolder path above d =
      match next.makeFolder path with
      | .ok made => (.ok (), made)
      | .error failure => (if next.isFolder path then .ok () else .error failure, next) := by
  cases hmade : next.makeFolder path with
  | ok made | error failure => simp only [ensureFolder, h, habove, hmade]

/-- What a single attempt to make a folder comes to. -/
inductive Attempt (path : String) (d : Disk) : Except Failure Unit × Disk → Prop
  | made {made : Disk} : d.makeFolder path = .ok made → Attempt path d (.ok (), made)
  | there {failure : Failure} : d.makeFolder path = .error failure → d.isFolder path = true → Attempt path d (.ok (), d)
  | failed {failure : Failure} : d.makeFolder path = .error failure → d.isFolder path = false →
      Attempt path d (.error failure, d)

/-- A folder is ensured by one attempt, or by a second one behind the folders above it. -/
inductive Ensures (path : String) (above : Disk → Except Failure Unit × Disk) (d : Disk) :
    Except Failure Unit × Disk → Prop
  | once {x : Except Failure Unit × Disk} : d.makeFolder path ≠ .error .notFound → Attempt path d x →
      Ensures path above d x
  | blocked {failure : Failure} {next : Disk} : d.makeFolder path = .error .notFound → above d = (.error failure, next) →
      Ensures path above d (.error failure, next)
  | twice {next : Disk} {x : Except Failure Unit × Disk} : d.makeFolder path = .error .notFound →
      above d = (.ok (), next) → Attempt path next x → Ensures path above d x

lemma attempt_of_error (h : d.makeFolder path = .error failure) :
    Attempt path d (if d.isFolder path then .ok () else .error failure, d) := by
  cases hfolder : d.isFolder path with
  | true => exact .there h hfolder
  | false => exact .failed h hfolder

lemma ensureFolder_eq_iff : ensureFolder path above d = x ↔ Ensures path above d x := by
  constructor
  · rintro rfl
    cases hmade : d.makeFolder path with
    | ok made =>
      rw [ensureFolder_of_made hmade]
      exact .once (by simp [hmade]) (.made hmade)
    | error failure =>
      by_cases hnone : failure = .notFound
      · rw [hnone] at hmade
        obtain ⟨⟨result, next⟩, hresult⟩ : ∃ x, above d = x := ⟨_, rfl⟩
        cases result with
        | error =>
          rw [ensureFolder_of_blocked hmade hresult]
          exact .blocked hmade hresult
        | ok =>
          refine .twice hmade hresult ?_
          rw [ensureFolder_of_above hmade hresult]
          cases hagain : next.makeFolder path with
          | ok made => exact .made hagain
          | error failure => exact attempt_of_error hagain
      · refine .once (by simp [hmade, hnone]) ?_
        rw [ensureFolder_of_other hmade hnone]
        exact attempt_of_error hmade
  · intro h
    cases h with
    | once hne hx =>
      cases hx with
      | made hmade => exact ensureFolder_of_made hmade
      | there hmade hyes => rw [ensureFolder_of_other hmade fun hnone => hne (hnone ▸ hmade), if_pos hyes]
      | failed hmade hno => rw [ensureFolder_of_other hmade fun hnone => hne (hnone ▸ hmade), if_neg (by simp [hno])]
    | blocked hmade habove => exact ensureFolder_of_blocked hmade habove
    | twice hmade habove hx =>
      rw [ensureFolder_of_above hmade habove]
      cases hx with
      | made hagain => rw [hagain]
      | there hagain hyes => simp only [hagain, if_pos hyes]
      | failed hagain hno => simp only [hagain, hno, Bool.false_eq_true, if_false]

lemma ensureFolder_of_isFolder (hd : d.IsLinkFree) (h : d.isFolder path = true) :
    ensureFolder path above d = (.ok (), d) := by
  have hmade := makeFolder_of_isFolder hd h
  exact ensureFolder_eq_iff.mpr (.once (by simp [hmade]) (.there hmade h))

lemma preserves_ensureFolder (habove : ∀ d, P d → P (above d).2)
    (hmake : ∀ d made, P d → d.makeFolder path = .ok made → P made) (hd : P d) : P (ensureFolder path above d).2 := by
  have hattempt : ∀ {d x}, P d → Attempt path d x → P x.2 := by
    intro d x hd hx
    cases hx with
    | made hmade => exact hmake d _ hd hmade
    | there | failed => exact hd
  obtain ⟨x, hx⟩ : ∃ x, ensureFolder path above d = x := ⟨_, rfl⟩
  rw [hx]
  cases ensureFolder_eq_iff.mp hx with
  | once _ hx => exact hattempt hd hx
  | blocked _ hblocked =>
    have hnext := habove d hd
    rwa [hblocked] at hnext
  | twice _ hreached hx =>
    have hnext := habove d hd
    rw [hreached] at hnext
    exact hattempt hnext hx

def IsOnWay (folder upTo : String) : Prop := isAbsolute upTo = isAbsolute folder ∧ moves upTo <+: moves folder

lemma preserves_ensureFolders (hmake : ∀ d made upTo, IsOnWay folder upTo → P d → d.makeFolder upTo = .ok made → P made)
    (hpre : reversed.reverse <+: components folder) (hd : P d) : P (ensureFolders reversed d).2 := by
  induction reversed generalizing d with
  | nil => exact hd
  | cons c above ih =>
    have hupTo := isUpTo_pathUpTo hpre (List.cons_ne_nil c above)
    have hway : IsOnWay folder (pathUpTo (c :: above)) := by
      refine ⟨hupTo.isAbsolute_eq, ?_⟩
      rw [hupTo.moves_eq, ← filterMap_move?_components]
      exact hpre.filterMap _
    have habove : above.reverse <+: components folder := by
      rw [List.reverse_cons] at hpre
      exact (List.prefix_append _ _).trans hpre
    exact preserves_ensureFolder (fun d hd => ih habove hd) (fun d made => hmake d made _ hway) hd

/-- What every new folder on the way preserves, making a folder with those above it preserves. -/
lemma preserves_makeFolders (hmake : ∀ d made upTo, IsOnWay folder upTo → P d → d.makeFolder upTo = .ok made → P made)
    (hd : P d) : P (d.makeFolders folder).2 := by
  rw [makeFolders]
  split
  · exact hd
  · have hpre : (components folder).reverse.tail.reverse <+: components folder := by
      rw [List.tail_reverse, List.reverse_reverse]
      exact List.dropLast_prefix _
    exact preserves_ensureFolder (fun d hd => preserves_ensureFolders hmake hpre hd)
      (fun d made => hmake d made folder ⟨rfl, List.prefix_refl _⟩) hd

lemma isLinkFree_of_makeFolder (hd : d.IsLinkFree) (h : d.makeFolder path = .ok made) : made.IsLinkFree := by
  obtain ⟨place, _, _, rfl⟩ := exists_of_makeFolder h
  exact hd.put (by simp) place

/-- What making the folders above a path has to do for the attempts below it to be repeatable. -/
structure IsSteady (above : Disk → Except Failure Unit × Disk) : Prop where
  linkFree : ∀ d : Disk, d.IsLinkFree → (above d).2.IsLinkFree
  again_ok : ∀ d next : Disk, d.IsLinkFree → above d = (.ok (), next) → above next = (.ok (), next)
  again_error : ∀ (d next : Disk) failure, d.IsLinkFree → above d = (.error failure, next) →
    ∃ failure, above next = (.error failure, next)

lemma IsSteady.isLinkFree (habove : IsSteady above) (hd : d.IsLinkFree) {result : Except Failure Unit}
    (h : above d = (result, next)) : next.IsLinkFree := by
  have hnext := habove.linkFree d hd
  rwa [h] at hnext

lemma isLinkFree_ensureFolder (habove : IsSteady above) (hd : d.IsLinkFree) : (ensureFolder path above d).2.IsLinkFree :=
  preserves_ensureFolder habove.linkFree (fun _ _ => isLinkFree_of_makeFolder) hd

lemma isFolder_of_ensureFolder (habove : IsSteady above) (hd : d.IsLinkFree)
    (h : ensureFolder path above d = (.ok (), next)) : next.isFolder path = true := by
  have hattempt : ∀ {d : Disk}, d.IsLinkFree → Attempt path d (.ok (), next) → next.isFolder path = true := by
    intro d hd hx
    cases hx with
    | made hmade => exact isFolder_of_makeFolder hd hmade
    | there _ hyes => exact hyes
  cases ensureFolder_eq_iff.mp h with
  | once _ hx => exact hattempt hd hx
  | twice _ hreached hx => exact hattempt (habove.isLinkFree hd hreached) hx

/-- A failed attempt fails again and changes nothing more. -/
lemma ensureFolder_again (habove : IsSteady above)
    (hparent : ∀ (d : Disk) goal, d.IsLinkFree → d.resolve false path = .ok goal → above d = (.ok (), d))
    (hd : d.IsLinkFree) (h : ensureFolder path above d = (.error failure, next)) :
    ∃ failure, ensureFolder path above next = (.error failure, next) := by
  simp only [ensureFolder_eq_iff] at h ⊢
  cases h with
  | once hne hx =>
    cases hx with
    | failed hmade hno => exact ⟨failure, .once hne (.failed hmade hno)⟩
  | blocked _ hblocked =>
    obtain ⟨failure, hagain⟩ := habove.again_error d _ _ hd hblocked
    -- the path leads nowhere, as something above it would be there otherwise
    have hnowhere : ∀ goal, next.resolve false path ≠ .ok goal := by
      intro goal hgoal
      rw [hparent _ goal (habove.isLinkFree hd hblocked) hgoal] at hagain
      cases hagain
    have hno : next.isFolder path = false := by
      by_contra hyes
      obtain ⟨goal, hgoal⟩ := resolve_of_isFolder (habove.isLinkFree hd hblocked) (Bool.eq_true_of_not_eq_false hyes)
      exact hnowhere goal hgoal
    cases hmade : next.makeFolder path with
    | ok made =>
      obtain ⟨place, asFolder, hresolve, _⟩ := exists_of_makeFolder hmade
      exact absurd hresolve (hnowhere _)
    | error second =>
      by_cases hsecond : second = .notFound
      · exact ⟨failure, .blocked (hsecond ▸ hmade) hagain⟩
      · exact ⟨second, .once (by simp [hmade, hsecond]) (.failed hmade hno)⟩
  | twice _ hreached hx =>
    cases hx with
    | failed hmade hno =>
      by_cases hfailure : failure = .notFound
      · exact ⟨failure, .twice (hfailure ▸ hmade) (habove.again_ok d _ hd hreached) (.failed hmade hno)⟩
      · exact ⟨failure, .once (by simp [hmade, hfailure]) (.failed hmade hno)⟩

/-- Where a path leads somewhere, the one that is a move shorter leads to a folder. -/
lemma isFolder_of_resolve {goal : Goal} {step : String} (hd : d.IsLinkFree) (h : d.resolve false path = .ok goal)
    (hstart : isAbsolute upTo = isAbsolute path) (hmoves : moves path = moves upTo ++ [step]) (husable : IsUsable upTo) :
    d.isFolder upTo = true := by
  obtain ⟨before, later, hsteps, hbefore, hlater⟩ := List.filter_eq_append_iff.mp hmoves
  have hne : later ≠ [] := by
    rintro rfl
    cases hlater
  have hgoes := (resolve_eq_ok_iff.mp h).2.goes_before hd hsteps.symm hne
  rw [isFolder_iff hd]
  refine ⟨husable, goes_filter.mp ?_⟩
  rw [start, hstart, ← moves, ← hbefore]
  exact goes_filter.mpr hgoes

lemma ensureFolders_of_resolve {goal : Goal} {above : List Component} (hd : d.IsLinkFree) (husable : IsUsable folder)
    (hpre : above.reverse <+: components folder) (hstart : isAbsolute path = isAbsolute folder)
    (hmoves : moves path = above.reverse.filterMap Component.move? ++ c.move?.toList) (hc : above ≠ [] → c.move? ≠ none)
    (h : d.resolve false path = .ok goal) : ensureFolders above d = (.ok (), d) := by
  cases above with
  | nil => rfl
  | cons first more =>
    have hupTo := isUpTo_pathUpTo hpre (List.cons_ne_nil first more)
    obtain ⟨step, hstep⟩ := Option.ne_none_iff_exists'.mp (hc (List.cons_ne_nil first more))
    have hlonger : moves path = moves (pathUpTo (first :: more)) ++ [step] := by
      rw [hmoves, hupTo.moves_eq, hstep]
      rfl
    apply ensureFolder_of_isFolder hd
    exact isFolder_of_resolve hd h (hupTo.isAbsolute_eq.trans hstart.symm) hlonger
      (husable.of_sublist hupTo.sublist hupTo.ne_empty)

lemma move?_ne_none_of_above {above : List Component} (h : above.reverse ++ [c] <+: components folder) (hne : above ≠ []) :
    c.move? ≠ none := by
  obtain ⟨first, more, hfirst⟩ := List.exists_cons_of_ne_nil (mt List.reverse_eq_nil_iff.mp hne)
  obtain ⟨later, hlater⟩ := h
  have htail : c ∈ (components folder).tail := by
    rw [← hlater, hfirst]
    simp
  obtain ⟨step, hstep⟩ := exists_move_of_mem_tail htail
  simp [hstep]

lemma isSteady_ensureFolders (husable : IsUsable folder) (h : reversed.reverse <+: components folder) :
    IsSteady (ensureFolders reversed) := by
  induction reversed with
  | nil =>
    refine ⟨fun _ hd => hd, fun _ _ _ h => by cases h; rfl, fun _ _ _ _ h => by cases h⟩
  | cons c above ih =>
    have hlast : above.reverse ++ [c] <+: components folder := by simpa using h
    have hpre : above.reverse <+: components folder := (List.prefix_append _ _).trans hlast
    have hsteady := ih hpre
    have hupTo := isUpTo_pathUpTo h (List.cons_ne_nil c above)
    have hmoves : moves (pathUpTo (c :: above)) = above.reverse.filterMap Component.move? ++ c.move?.toList := by
      rw [hupTo.moves_eq, List.reverse_cons, List.filterMap_append]
      cases hc : c.move? <;> simp [hc]
    have hparent : ∀ (d : Disk) goal, d.IsLinkFree → d.resolve false (pathUpTo (c :: above)) = .ok goal →
        ensureFolders above d = (.ok (), d) := fun d goal hd hgoal =>
      ensureFolders_of_resolve hd husable hpre hupTo.isAbsolute_eq hmoves (move?_ne_none_of_above hlast) hgoal
    refine ⟨fun d hd => isLinkFree_ensureFolder hsteady hd, fun d next hd hok => ?_, fun d next failure hd herror => ?_⟩
    · have hlinks : (ensureFolder (pathUpTo (c :: above)) (ensureFolders above) d).2.IsLinkFree :=
        isLinkFree_ensureFolder hsteady hd
      rw [ensureFolders] at hok
      rw [hok] at hlinks
      exact ensureFolder_of_isFolder hlinks (isFolder_of_ensureFolder hsteady hd hok)
    · exact ensureFolder_again hsteady hparent hd herror

lemma ensureFolder_of_not_isUsable (husable : ¬IsUsable path) (hne : path ≠ "") (d : Disk) :
    ∃ failure, ensureFolder path above d = (.error failure, d) := by
  have hresolve : ∃ failure, failure ≠ Failure.notFound ∧ ∀ followLast, d.resolve followLast path = .error failure := by
    cases hnul : path.toList.contains (Char.ofNat 0) with
    | true => exact ⟨.nulInPath, by simp, fun _ => by rw [resolve, if_pos hnul]⟩
    | false =>
      have hlong : longestPath < path.utf8ByteSize := by
        by_contra hshort
        exact husable ⟨hnul, hne, Nat.le_of_not_lt hshort⟩
      exact ⟨.nameTooLong, by simp, fun _ => by rw [resolve, hnul, if_neg (by simp), if_neg hne, if_pos hlong]⟩
  obtain ⟨failure, hfailure, hall⟩ := hresolve
  have hmade : d.makeFolder path = .error failure := by
    rw [makeFolder, hall]
    rfl
  have hno : d.isFolder path = false := by
    rw [isFolder, folderPlace?, hall]
    rfl
  exact ⟨failure, ensureFolder_eq_iff.mpr (.once (by simp [hmade, hfailure]) (.failed hmade hno))⟩

lemma components_eq_of_tail {above : List Component} (h : (components folder).reverse.tail = above) (hne : above ≠ []) :
    ∃ c, components folder = above.reverse ++ [c] := by
  cases hrev : (components folder).reverse with
  | nil =>
    rw [hrev] at h
    exact absurd h.symm hne
  | cons c more =>
    rw [hrev] at h
    obtain rfl : more = above := h
    exact ⟨c, by rw [← List.reverse_reverse (components folder), hrev, List.reverse_cons]⟩

lemma isSteady_above (husable : IsUsable folder) : IsSteady (ensureFolders (components folder).reverse.tail) := by
  apply isSteady_ensureFolders husable
  rw [List.tail_reverse, List.reverse_reverse]
  exact List.dropLast_prefix _

lemma isLinkFree_makeFolders (hd : d.IsLinkFree) : (d.makeFolders folder).2.IsLinkFree :=
  preserves_makeFolders (fun _ _ _ _ => isLinkFree_of_makeFolder) hd

lemma isFolder_of_makeFolders (hd : d.IsLinkFree) (hne : folder ≠ "") (h : d.makeFolders folder = (.ok (), next)) :
    next.isFolder folder = true := by
  rw [makeFolders, if_neg hne] at h
  by_cases husable : IsUsable folder
  · exact isFolder_of_ensureFolder (isSteady_above husable) hd h
  · obtain ⟨failure, hfailed⟩ := ensureFolder_of_not_isUsable husable hne d
    rw [hfailed] at h
    cases h

/-- Where a folder could not be made, it can still not be made, and nothing more comes to be on the way. -/
theorem makeFolders_again (hd : d.IsLinkFree) (h : d.makeFolders folder = (.error failure, next)) :
    ∃ failure, next.makeFolders folder = (.error failure, next) := by
  rw [makeFolders] at h ⊢
  by_cases hempty : folder = ""
  · rw [if_pos hempty] at h
    cases h
  · rw [if_neg hempty] at h ⊢
    by_cases husable : IsUsable folder
    · refine ensureFolder_again (isSteady_above husable) (fun d goal hd hgoal => ?_) hd h
      obtain ⟨above, habove⟩ : ∃ above, (components folder).reverse.tail = above := ⟨_, rfl⟩
      rw [habove]
      by_cases hnone : above = []
      · rw [hnone]
        rfl
      · obtain ⟨c, hc⟩ := components_eq_of_tail habove hnone
        have hpre : above.reverse ++ [c] <+: components folder := hc ▸ List.prefix_refl _
        have hmoves : moves folder = above.reverse.filterMap Component.move? ++ c.move?.toList := by
          rw [← filterMap_move?_components, hc, List.filterMap_append]
          cases hmove : c.move? <;> simp [hmove]
        exact ensureFolders_of_resolve hd husable ((List.prefix_append _ _).trans hpre) rfl hmoves
          (fun _ => move?_ne_none_of_above hpre hnone) hgoal
    · obtain ⟨first, hfailed⟩ := ensureFolder_of_not_isUsable husable hempty d
      obtain ⟨_, rfl⟩ := Prod.mk.inj (hfailed.symm.trans h)
      exact ⟨first, hfailed⟩

end CodeOutline.Disk
