import CodeOutline.Proofs.Repository.Requests
import CodeOutline.Proofs.Run.Course

/-! Runs that end without a report: they have asked for nothing but a tree and changed nothing. -/

namespace CodeOutline.Run

open Activity

variable {setting : Setting} {options : Options} {model? used : Option Model} {disk : Disk} {s collected : State}
  {failure : Failure}

def treeRequest? (setting : Setting) : Origin → Option Http.Request
  | .folder _ => none
  | .repository url => (Repository.Reference.ofUrl? url).bind fun reference =>
    setting.client.treeRequest? reference setting.config.repository.branch

/-- A state of a run that has done nothing yet but ask for a tree. -/
structure HasListed (setting : Setting) (origin : Origin) (s after : State) : Prop where
  disk_eq : after.disk = s.disk
  prompts_eq : after.prompts = s.prompts
  past_eq : after.past = s.past ++ (treeRequest? setting origin).toList.map (setting.network.exchange s.past)

namespace Sources

lemma hasListed_ofFolder (setting : Setting) (path : String) (s : State) :
    HasListed setting (.folder path) s (ofFolder setting path s).2 := by
  rw [ofFolder, bind_of_eq (emit_eq _ s), bind_of_eq (get_eq _), State.note_disk]
  have hstate : HasListed setting (.folder path) s (s.note [.event (.stage .scanning)]) :=
    ⟨rfl, by simp [Notice.prompt?], by simp [treeRequest?]⟩
  cases Scan.directory s.disk setting.env setting.config.scan path <;> exact hstate

lemma select_eq_note (setting : Setting) (selectAll : Bool) (offered : List String) (s : State) :
    ∃ shown : List String, (select setting selectAll offered s).2 = s.note (shown.map Notice.shown) := by
  rw [select]
  split
  · exact ⟨[], rfl⟩
  · refine ⟨[(Selection.ask offered setting.input).2], ?_⟩
    cases Selection.ask offered setting.input with
    | mk selected dialog => cases selected <;> rfl

lemma ofListing_eq_note (setting : Setting) (selectAll : Bool) (reference : Repository.Reference)
    (reply : Except Repository.Failure (List Repository.Listed)) (s : State) :
    ∃ shown : List String, (ofListing setting selectAll reference reply s).2 = s.note (shown.map Notice.shown) := by
  cases reply with
  | error failure => exact ⟨[], rfl⟩
  | ok files =>
    obtain ⟨shown, hshown⟩ := select_eq_note setting selectAll (files.map (·.path)) s
    refine ⟨shown, hshown ▸ ?_⟩
    cases hs : select setting selectAll (files.map (·.path)) s with
    | mk selected chosen =>
      rw [ofListing, bind_of_eq hs]
      cases selected <;> rfl

lemma past_of_fetchTree {url : String} {reference : Repository.Reference} {past next : List Http.Exchange}
    {reply : Except Repository.Failure (List Repository.Listed)}
    (hr : Repository.Reference.ofUrl? url = some reference)
    (hl : setting.client.fetchTree reference setting.config.repository.branch setting.network past = (reply, next)) :
    next = past ++ (treeRequest? setting (.repository url)).toList.map (setting.network.exchange past) := by
  simp only [treeRequest?, hr, Option.bind_some]
  cases ht : setting.client.treeRequest? reference setting.config.repository.branch with
  | none =>
    rw [Repository.Client.fetchTree_eq_of_none ht] at hl
    simp [(Prod.mk.inj hl).2]
  | some request =>
    rw [Repository.Client.fetchTree_eq_of_some ht] at hl
    simp [(Prod.mk.inj hl).2]

lemma hasListed_ofRepository (setting : Setting) (selectAll : Bool) (url : String) (s : State) :
    HasListed setting (.repository url) s (ofRepository setting selectAll url s).2 := by
  cases hr : Repository.Reference.ofUrl? url with
  | none =>
    have hinvalid : ofRepository setting selectAll url s = (.error (.repository (.invalidUrl url)), s) := by
      rw [ofRepository, hr]
      rfl
    rw [hinvalid]
    exact ⟨rfl, rfl, by simp [treeRequest?, hr]⟩
  | some reference =>
    obtain ⟨⟨reply, past⟩, hl⟩ : ∃ listing, setting.client.fetchTree reference setting.config.repository.branch
      setting.network s.past = listing := ⟨_, rfl⟩
    obtain ⟨shown, hshown⟩ := ofListing_eq_note setting selectAll reference reply
      ({ s with past }.note [.event (.stage .fetching)])
    rw [ofRepository_eq hr hl, hshown]
    refine ⟨rfl, ?_, past_of_fetchTree hr hl⟩
    rw [State.note_note, State.prompts_note]
    simp [Notice.prompt?, State.prompts]

lemma hasListed_ofOrigin (setting : Setting) (selectAll : Bool) (origin : Origin) (s : State) :
    HasListed setting origin s (ofOrigin setting selectAll origin s).2 := by
  cases origin with
  | folder path => exact hasListed_ofFolder setting path s
  | repository url => exact hasListed_ofRepository setting selectAll url s

end Sources

lemma perform_of_error (hu : modelInUse options model? = .error failure) (s : State) :
    perform setting options model? s = (.error failure, s) := by
  rw [perform, hu]
  rfl

/-- A run fails for want of a model or of files to choose from. What concerns a single file, its document or the
model's reply never makes it fail. -/
lemma perform_eq_error_iff : (perform setting options model? s).1 = .error failure ↔
    modelInUse options model? = .error failure ∨
      (∃ used, modelInUse options model? = .ok used) ∧
        (Sources.ofOrigin setting options.selectAll options.origin s).1 = .error failure := by
  cases hu : modelInUse options model? with
  | error missing =>
    rw [perform_of_error hu]
    simp
  | ok used =>
    rw [perform_eq hu]
    cases hs : Sources.ofOrigin setting options.selectAll options.origin s with
    | mk result collected => cases result <;> simp

/-- A state of a run that has done nothing to the disk, has not asked the model, and has said nothing on the network
but perhaps one request for a tree. -/
structure Untouched (disk : Disk) (after : State) : Prop where
  disk_eq : after.disk = disk
  prompts_eq : after.prompts = []
  past_le : after.past.length ≤ 1
  method_eq : ∀ exchange ∈ after.past, exchange.request.method = .get

lemma untouched_start (disk : Disk) : Untouched disk (State.start disk) :=
  ⟨rfl, rfl, Nat.zero_le 1, fun _ h => absurd h List.not_mem_nil⟩

lemma method_of_mem_treeRequest? {origin : Origin} {r : Http.Request} (h : treeRequest? setting origin = some r) :
    r.method = .get := by
  cases origin with
  | folder path => cases h
  | repository url =>
    obtain ⟨reference, _, hr⟩ := Option.bind_eq_some_iff.mp h
    exact Http.Request.method_of_make? hr

lemma HasListed.untouched {origin : Origin} (h : HasListed setting origin (State.start disk) collected) :
    Untouched disk collected := by
  have hpast := h.past_eq
  refine ⟨h.disk_eq, h.prompts_eq, ?_, ?_⟩
  · rw [hpast]
    cases treeRequest? setting origin <;> simp [State.start]
  · intro exchange hmem
    cases ht : treeRequest? setting origin with
    | none => simp [hpast, ht, State.start] at hmem
    | some r =>
      obtain rfl : exchange = setting.network.exchange [] r := by simpa [hpast, ht, State.start] using hmem
      exact method_of_mem_treeRequest? ht

lemma untouched_of_perform {after : State}
    (h : perform setting options model? (State.start disk) = (.error failure, after)) : Untouched disk after := by
  cases hu : modelInUse options model? with
  | error missing =>
    rw [perform_of_error hu] at h
    cases h
    exact untouched_start disk
  | ok used =>
    have hlisted := Sources.hasListed_ofOrigin setting options.selectAll options.origin (State.start disk)
    rw [perform_eq hu] at h
    cases hs : Sources.ofOrigin setting options.selectAll options.origin (State.start disk) with
    | mk result collected =>
      rw [hs] at h hlisted
      cases result with
      | ok sources => cases h
      | error failure =>
        cases h
        exact hlisted.untouched

end CodeOutline.Run
