import CodeOutline.Proofs.Document.Export
import CodeOutline.Proofs.Run.Conversation

/-! What is told of a run while it goes on: every file is accounted for, and the model is asked about each
outline once. -/

namespace CodeOutline

namespace Run

open Activity

variable {α β : Type} {setting : Setting} {options : Options}

/-- How a stage goes through its items: each is announced and then kept, or passed over. -/
structure Phase (α β : Type) where
  announce : α → List Event
  path : α → String
  kept : β → List Event
  asks : α → List String
  Gives : α → β → Prop
  reasons : List Omission

namespace Phase

def reading : Phase String Outline where
  announce path := [.parsing path]
  path := id
  kept _ := []
  asks _ := []
  Gives path o := o.path = path
  reasons := [.unreadable, .unfetched, .noElements]

def documenting (total : Nat) : Phase (Outline × Nat) Document where
  announce numbered := [.documenting numbered.1.path numbered.2 total]
  path numbered := numbered.1.path
  kept _ := []
  asks numbered := [numbered.1.prompt]
  Gives numbered doc := doc.path = numbered.1.path
  reasons := [.undocumented]

def exporting (folder : String) : Phase Document String where
  announce _ := []
  path := Document.path
  kept path := [.exported path]
  asks _ := []
  Gives doc path := path = doc.file folder
  reasons := [.unwritten]

/-- The events of a stage, which go through its items in order. -/
inductive Log (phase : Phase α β) : List α → List β → List Event → Prop
  | nil : Log phase [] [] []
  | kept {a : α} {b : β} {items : List α} {results : List β} {events : List Event} : phase.Gives a b →
      Log phase items results events → Log phase (a :: items) (b :: results) (phase.announce a ++ phase.kept b ++ events)
  | passed {a : α} {why : Omission} {items : List α} {results : List β} {events : List Event} : why ∈ phase.reasons →
      Log phase items results events →
      Log phase (a :: items) results (phase.announce a ++ .skipped (phase.path a) why :: events)

end Phase

def isSkip : Event → Bool
  | .skipped .. => true
  | _ => false

/-- A stage has as many results as items that are not skipped. -/
structure Phase.Accounts (phase : Phase α β) (items : List α) (results : List β) (events : List Event) : Prop where
  log : phase.Log items results events
  length_eq : results.length = items.length - events.countP isSkip
  skips_le : events.countP isSkip ≤ items.length

/-- The events of a whole run over `paths`. -/
inductive Chronicle (options : Options) (paths : List String) : Report → List Document → List Event → Prop
  | nothingFound : paths = [] →
      Chronicle options paths ⟨0, [], 0, []⟩ [] [.stage (firstStage options.origin), .found 0]
  | stopped {parsed : List Outline} {reading : List Event} : paths ≠ [] →
      Phase.reading.Accounts paths parsed reading → options.extractOnly = true ∨ parsed = [] →
      Chronicle options paths ⟨paths.length, parsed, 0, []⟩ []
        ([.stage (firstStage options.origin), .found paths.length, .stage .parsing] ++ reading ++ [.parsed parsed.length])
  | documented {parsed : List Outline} {docs : List Document} {exported : List String}
      {reading documenting exporting : List Event} : paths ≠ [] → options.extractOnly = false → parsed ≠ [] →
      Phase.reading.Accounts paths parsed reading →
      (Phase.documenting parsed.length).Accounts parsed.zipIdx docs documenting →
      (Phase.exporting options.outputFolder).Accounts docs exported exporting →
      Chronicle options paths ⟨paths.length, parsed, docs.length, exported⟩ docs
        ([.stage (firstStage options.origin), .found paths.length, .stage .parsing] ++ reading ++
          [.parsed parsed.length, .stage .documenting] ++ documenting ++
          [.documented docs.length, .stage .exporting] ++ exporting)

namespace Phase

/-- What an activity does with one item, in the terms of the phase. -/
def Performs (phase : Phase α β) (told : β → List Notice) (f : α → Activity (Option β)) : Prop :=
  ∀ a s, ∃ before fate, f a s = State.settle before (phase.path a) told fate ∧
    before.events = s.events ++ phase.announce a ∧ before.prompts = s.prompts ++ phase.asks a ∧
    (∀ b, fate = .ok b → phase.Gives a b) ∧ ∀ why, fate = .error why → why ∈ phase.reasons

variable {phase : Phase α β} {told : β → List Notice} {f : α → Activity (Option β)} {s after : State}
  {items : List α} {results : List β} {events : List Event}

lemma log_of_gathering (hf : phase.Performs told f)
    (ht : ∀ b, (told b).filterMap Notice.event? = phase.kept b ∧ (told b).filterMap Notice.prompt? = [])
    (h : Gathering f s items results after) :
    ∃ events, phase.Log items results events ∧ after.events = s.events ++ events ∧
      after.prompts = s.prompts ++ items.flatMap phase.asks := by
  induction h with
  | nil => exact ⟨[], .nil, by simp, by simp⟩
  | @kept s next after a b rest results hstep _ ih =>
    obtain ⟨events, hlog, hevents, hprompts⟩ := ih
    obtain ⟨before, fate, heq, he, hp, hgives, _⟩ := hf a s
    rw [heq] at hstep
    cases fate with
    | error why => cases hstep
    | ok b =>
      cases hstep
      refine ⟨_, .kept (hgives b rfl) hlog, ?_, ?_⟩
      · simp [hevents, he, (ht b).1]
      · simp [hprompts, hp, (ht b).2]
  | @passed s next after a rest results hstep _ ih =>
    obtain ⟨events, hlog, hevents, hprompts⟩ := ih
    obtain ⟨before, fate, heq, he, hp, _, hreason⟩ := hf a s
    rw [heq] at hstep
    cases fate with
    | ok b => cases hstep
    | error why =>
      cases hstep
      refine ⟨_, .passed (hreason why rfl) hlog, ?_, ?_⟩
      · simp [hevents, he, Notice.event?]
      · simp [hprompts, hp, Notice.prompt?]

lemma accounts_of_log (ha : ∀ a, (phase.announce a).countP isSkip = 0) (hk : ∀ b, (phase.kept b).countP isSkip = 0)
    (h : phase.Log items results events) : phase.Accounts items results events := by
  have hsum : results.length + events.countP isSkip = items.length := by
    induction h with
    | nil => rfl
    | kept _ _ ih =>
      simp only [List.length_cons, List.countP_append, ha, hk]
      omega
    | passed _ _ ih =>
      simp only [List.length_cons, List.countP_append, ha, List.countP_cons, isSkip, if_true]
      omega
  exact ⟨h, by omega, by omega⟩

lemma accounts_of_gather (hf : phase.Performs told f)
    (ht : ∀ b, (told b).filterMap Notice.event? = phase.kept b ∧ (told b).filterMap Notice.prompt? = [])
    (ha : ∀ a, (phase.announce a).countP isSkip = 0) (hk : ∀ b, (phase.kept b).countP isSkip = 0)
    (h : gather f items s = (results, after)) :
    ∃ events, phase.Accounts items results events ∧ after.events = s.events ++ events ∧
      after.prompts = s.prompts ++ items.flatMap phase.asks := by
  obtain ⟨events, hlog, hevents, hprompts⟩ := log_of_gathering hf ht (gathering_of_gather h)
  exact ⟨events, accounts_of_log ha hk hlog, hevents, hprompts⟩

lemma paths_sublist_of_log {paths : List String} {parsed : List Outline} (h : reading.Log paths parsed events) :
    (parsed.map (·.path)).Sublist paths := by
  induction h with
  | nil => exact .slnil
  | kept hgives _ ih =>
    have hpath : _ = _ := hgives
    simpa [hpath] using ih
  | passed _ _ ih => exact ih.cons _

end Phase

namespace Sources

lemma worth_eq_ok {o kept : Outline} (h : worth o = .ok kept) : kept = o := by
  unfold worth at h
  split at h
  · cases h
  · exact (Except.ok.inj h).symm

lemma worth_eq_error {o : Outline} {why : Omission} (h : worth o = .error why) : why = .noElements := by
  unfold worth at h
  split at h
  · exact (Except.error.inj h).symm
  · cases h

lemma performs_readFile : Phase.reading.Performs (fun _ => []) readFile := by
  intro path s
  refine ⟨_, _, readFile_eq path s, State.events_note _ _, by simp [Phase.reading, Notice.prompt?], ?_, ?_⟩
  · intro o h
    unfold fileFate at h
    cases hf : Outline.ofFile s.disk path with
    | error fault =>
      rw [hf] at h
      cases h
    | ok found =>
      rw [hf] at h
      exact worth_eq_ok h ▸ path_of_ofFile path hf
  · intro why h
    unfold fileFate at h
    cases hf : Outline.ofFile s.disk path with
    | error fault =>
      rw [hf] at h
      cases h
      decide
    | ok found =>
      rw [hf] at h
      rw [worth_eq_error h]
      decide

lemma performs_fetchFile (setting : Setting) (reference : Repository.Reference) :
    Phase.reading.Performs (fun _ => []) (fetchFile setting reference) := by
  intro path s
  obtain ⟨⟨reply, past⟩, hf⟩ : ∃ answer, fetched setting reference path s.past = answer := ⟨_, rfl⟩
  refine ⟨_, _, fetchFile_eq hf, State.events_note _ _, State.prompts_note _ _, ?_, ?_⟩
  · intro o h
    cases reply with
    | error failure => cases h
    | ok content => exact worth_eq_ok h ▸ rfl
  · intro why h
    cases reply with
    | error failure =>
      cases h
      decide
    | ok content =>
      rw [worth_eq_error h]
      decide

lemma accounts_outlines {sources : Sources} {s read : State} {parsed : List Outline}
    (h : sources.outlines setting s = (parsed, read)) :
    ∃ events, Phase.reading.Accounts sources.paths parsed events ∧ read.events = s.events ++ events ∧
      read.prompts = s.prompts := by
  have hg : ∀ f : String → Activity (Option Outline), Phase.reading.Performs (fun _ => []) f →
      gather f sources.paths s = (parsed, read) →
      ∃ events, Phase.reading.Accounts sources.paths parsed events ∧ read.events = s.events ++ events ∧
        read.prompts = s.prompts := by
    intro f hf heq
    obtain ⟨events, haccounts, he, hp⟩ :=
      Phase.accounts_of_gather hf (fun _ => ⟨rfl, rfl⟩) (fun _ => rfl) (fun _ => rfl) heq
    exact ⟨events, haccounts, he, by simp [hp, Phase.reading]⟩
  cases sources with
  | onDisk paths => exact hg _ performs_readFile h
  | remote reference paths => exact hg _ (performs_fetchFile setting reference) h

end Sources

namespace Documents

lemma performs_generate (network : Http.Network) (model : Model) (total : Nat) :
    (Phase.documenting total).Performs (fun _ => []) (generate network model total) := by
  rintro ⟨o, index⟩ s
  refine ⟨_, _, generate_eq network model total o index s, State.events_note _ _, State.prompts_note _ _, ?_, ?_⟩
  · intro doc h
    cases hr : (answered network model o s.past).1 <;> rw [hr] at h <;> cases h
    rfl
  · intro why h
    cases hr : (answered network model o s.past).1 <;> rw [hr] at h <;> cases h
    exact List.mem_singleton_self _

lemma performs_write (folder : String) :
    (Phase.exporting folder).Performs (fun path => [.event (.exported path)]) (write folder) := by
  intro doc s
  refine ⟨_, _, write_eq folder doc s, (List.append_nil _).symm, (List.append_nil _).symm, ?_, ?_⟩
  · intro path h
    cases hr : Document.exportTo folder doc s.disk with
    | mk result disk =>
      rw [hr] at h
      cases result <;> cases h
      exact (Document.exportTo_eq_ok hr).1
  · intro why h
    cases hr : Document.exportTo folder doc s.disk with
    | mk result disk =>
      rw [hr] at h
      cases result <;> cases h
      exact List.mem_singleton_self _

lemma accounts_generateAll {network : Http.Network} {model : Model} {s after : State} {parsed : List Outline}
    {docs : List Document} (h : generateAll network model parsed s = (docs, after)) :
    ∃ events, (Phase.documenting parsed.length).Accounts parsed.zipIdx docs events ∧
      after.events = s.events ++ events ∧ after.prompts = s.prompts ++ parsed.map Outline.prompt := by
  obtain ⟨events, haccounts, he, hp⟩ := Phase.accounts_of_gather (performs_generate network model parsed.length)
    (fun _ => ⟨rfl, rfl⟩) (fun _ => rfl) (fun _ => rfl) h
  have hasks : parsed.zipIdx.flatMap (Phase.documenting parsed.length).asks = parsed.map Outline.prompt := by
    have hone : parsed.zipIdx.flatMap (Phase.documenting parsed.length).asks =
        (parsed.zipIdx.map Prod.fst).map Outline.prompt := by
      rw [List.map_map]
      exact List.flatMap_pure_eq_map _ _
    rw [hone, List.zipIdx_map_fst]
  exact ⟨events, haccounts, he, hasks ▸ hp⟩

lemma accounts_writeAll {folder : String} {s after : State} {docs : List Document} {exported : List String}
    (h : writeAll folder docs s = (exported, after)) :
    ∃ events, (Phase.exporting folder).Accounts docs exported events ∧ after.events = s.events ++ events ∧
      after.prompts = s.prompts := by
  obtain ⟨events, haccounts, he, hp⟩ := Phase.accounts_of_gather (performs_write folder)
    (fun _ => ⟨rfl, rfl⟩) (fun _ => rfl) (fun _ => rfl) h
  exact ⟨events, haccounts, he, by simp [hp, Phase.exporting]⟩

end Documents

def Report.prompts (options : Options) (report : Report) : List String :=
  if options.extractOnly then [] else report.parsed.map Outline.prompt

end Run

end CodeOutline
