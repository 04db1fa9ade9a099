import CodeOutline.Proofs.Run.Course

/-! The dialog of a run: what the user is shown who chooses among the files of a repository. -/

namespace CodeOutline.Run

open Activity

def Notice.shown? : Notice → Option String
  | shown text => some text
  | _ => none

def State.shown (s : State) : List String := s.notices.toList.filterMap Notice.shown?

/-- The paths that the user is asked to choose from: those of the repository's tree, unless all are taken. -/
def offered (setting : Setting) (options : Options) (past : List Http.Exchange) : List String :=
  match options.origin with
  | .folder _ => []
  | .repository url =>
    if options.selectAll then []
    else
      match (Repository.Reference.ofUrl? url).map fun reference =>
        (setting.client.fetchTree reference setting.config.repository.branch setting.network past).1 with
      | some (.ok files) => files.map (·.path)
      | _ => []

def dialog (setting : Setting) (options : Options) (past : List Http.Exchange) : List String :=
  if offered setting options past = [] then []
  else [(Selection.ask (offered setting options past) setting.input).2]

variable {setting : Setting} {options : Options} {s collected after : State}

@[simp] lemma State.shown_note (s : State) (notices : List Notice) :
    (s.note notices).shown = s.shown ++ notices.filterMap Notice.shown? := by
  rw [shown, toList_note, List.filterMap_append, shown]

lemma State.shown_settle {α : Type} (s : State) (path : String) (fate : Except Omission α) :
    (s.settle path (fun _ => []) fate).2.shown = s.shown := by
  cases fate <;> simp [settle, Notice.shown?]

namespace Sources

variable {sources : Sources}

lemma shown_of_outlines {parsed : List Outline} {read : State} (h : sources.outlines setting s = (parsed, read)) :
    read.shown = s.shown := by
  cases sources with
  | onDisk paths =>
    refine (gathering_of_gather h).preserves fun path s => ?_
    rw [readFile_eq, State.shown_settle, State.shown_note]
    exact List.append_nil _
  | remote reference paths =>
    refine (gathering_of_gather h).preserves fun path s => ?_
    obtain ⟨⟨reply, past⟩, hf⟩ : ∃ x, fetched setting reference path s.past = x := ⟨_, rfl⟩
    rw [fetchFile_eq hf, State.shown_settle, State.shown_note]
    exact List.append_nil _

lemma shown_of_select (setting : Setting) (selectAll : Bool) (paths : List String) (s : State) :
    (select setting selectAll paths s).2.shown =
      s.shown ++ if selectAll = true ∨ paths = [] then [] else [(Selection.ask paths setting.input).2] := by
  by_cases hall : selectAll = true ∨ paths = []
  · have hb : (selectAll || paths.isEmpty) = true := by simpa using hall
    rw [select, hb, if_pos hall, List.append_nil]
    rfl
  · have hb : (selectAll || paths.isEmpty) = false := by simpa using hall
    rw [select, hb, if_neg hall]
    cases ha : Selection.ask paths setting.input with
    | mk selected text =>
      have hnote : (note (.shown text) s).2.shown = s.shown ++ [text] := by
        rw [note_eq]
        simp [Notice.shown?]
      cases selected <;> exact hnote

lemma shown_of_ofFolder {root : String} (h : ofFolder setting root s = (.ok sources, collected)) :
    collected.shown = s.shown := by
  rw [ofFolder, bind_of_eq (emit_eq _ s), bind_of_eq (get_eq _), State.note_disk] at h
  cases hd : Scan.directory s.disk setting.env setting.config.scan root with
  | error failure =>
    rw [hd] at h
    cases h
  | ok paths =>
    rw [hd] at h
    cases h
    rw [State.shown_note]
    exact List.append_nil _

lemma shown_of_ofRepository {url : String} (ho : options.origin = .repository url)
    (h : ofRepository setting options.selectAll url s = (.ok sources, collected)) :
    collected.shown = s.shown ++ dialog setting options s.past := by
  cases hr : Repository.Reference.ofUrl? url with
  | none =>
    rw [ofRepository, hr] at h
    cases h
  | some reference =>
    obtain ⟨⟨reply, past⟩, hl⟩ : ∃ listing, setting.client.fetchTree reference setting.config.repository.branch
      setting.network s.past = listing := ⟨_, rfl⟩
    rw [ofRepository_eq hr hl] at h
    obtain ⟨files, paths, rfl, rfl, hs⟩ := ofListing_of_ok h
    have hshown := shown_of_select setting options.selectAll (files.map (·.path))
      ({ s with past }.note [.event (.stage .fetching)])
    rw [hs, State.shown_note] at hshown
    have hbefore : ({ s with past } : State).shown ++ [Notice.event (.stage .fetching)].filterMap Notice.shown? =
      s.shown := List.append_nil _
    have hoffered : offered setting options s.past = if options.selectAll then [] else files.map (·.path) := by
      rw [offered, ho]
      dsimp only
      rw [hr, Option.map_some, hl]
    rw [hshown, hbefore, dialog, hoffered]
    cases options.selectAll <;> simp

lemma shown_of_ofOrigin (h : ofOrigin setting options.selectAll options.origin s = (.ok sources, collected)) :
    collected.shown = s.shown ++ dialog setting options s.past := by
  cases ho : options.origin with
  | folder root =>
    rw [ho] at h
    have hnone : dialog setting options s.past = [] := by
      rw [dialog, offered, ho, if_pos rfl]
    rw [hnone, List.append_nil]
    exact shown_of_ofFolder h
  | repository url =>
    rw [ho] at h
    exact shown_of_ofRepository ho h

end Sources

/-- A run that stops before any documentation shows the dialog and nothing else. -/
lemma shown_of_perform {report : Report} (honly : options.extractOnly = true)
    (h : perform setting options none s = (.ok report, after)) :
    after.shown = s.shown ++ dialog setting options s.past := by
  obtain ⟨used, sources, collected, docs, hu, hs, hcourse⟩ := exists_course h
  obtain ⟨_, rfl⟩ | ⟨hnot, _⟩ := modelInUse_eq_ok hu
  · rw [← Sources.shown_of_ofOrigin hs]
    cases hcourse with
    | nothingFound _ =>
      rw [State.shown_note]
      exact List.append_nil _
    | stopped _ hr _ =>
      rw [State.shown_note, Sources.shown_of_outlines hr, State.shown_note]
      exact (List.append_nil _).trans (List.append_nil _)
    | documented _ _ hm => cases hm
  · rw [honly] at hnot
    cases hnot

end CodeOutline.Run
