import CodeOutline.Proofs.Run.Gathering
import CodeOutline.Run.Sources

/-! Collecting the paths of a run: which they are, and what is told meanwhile. -/

namespace CodeOutline.Run

open Activity

def firstStage : Origin → Stage
  | .folder _ => .scanning
  | .repository _ => .fetching

/-- The paths that the origin offers, or those of them that the user chooses. -/
def Collects (setting : Setting) (options : Options) (disk : Disk) (past : List Http.Exchange)
    (paths : List String) : Prop :=
  match options.origin with
  | .folder root => Scan.directory disk setting.env setting.config.scan root = .ok paths
  | .repository url => ∃ reference files, Repository.Reference.ofUrl? url = some reference ∧
      (setting.client.fetchTree reference setting.config.repository.branch setting.network past).1 = .ok files ∧
      if options.selectAll = true ∨ files = [] then paths = files.map (·.path)
      else (Selection.ask (files.map (·.path)) setting.input).1 = .ok paths

/-- Collecting the paths leaves the disk as it is and tells of nothing but its step. -/
structure Collected (setting : Setting) (options : Options) (s : State) (sources : Sources) (collected : State) :
    Prop where
  paths : Collects setting options s.disk s.past sources.paths
  disk_eq : collected.disk = s.disk
  events_eq : collected.events = s.events ++ [.stage (firstStage options.origin)]
  prompts_eq : collected.prompts = s.prompts

namespace Sources

variable {setting : Setting} {s collected : State} {sources : Sources}

lemma collected_of_ofFolder {options : Options} {root : String} (ho : options.origin = .folder root)
    (h : ofFolder setting root s = (.ok sources, collected)) : Collected setting options s sources collected := by
  rw [ofFolder, bind_of_eq (emit_eq _ s), bind_of_eq (get_eq _), State.note_disk] at h
  cases hd : Scan.directory s.disk setting.env setting.config.scan root with
  | error failure =>
    rw [hd] at h
    cases h
  | ok paths =>
    rw [hd] at h
    cases h
    exact ⟨by simpa only [Collects, ho, Sources.paths] using hd, rfl, by simp [ho, firstStage, Notice.event?],
      by simp [Notice.prompt?]⟩

lemma select_of_ok {selectAll : Bool} {offered chosen : List String}
    (h : select setting selectAll offered s = (.ok chosen, collected)) :
    (if selectAll = true ∨ offered = [] then chosen = offered else (Selection.ask offered setting.input).1 = .ok chosen) ∧
      ∃ shown : List String, collected = s.note (shown.map Notice.shown) := by
  by_cases hall : selectAll = true ∨ offered = []
  · have hb : (selectAll || offered.isEmpty) = true := by simpa using hall
    unfold select at h
    rw [hb] at h
    obtain ⟨hc, rfl⟩ := Prod.mk.inj h
    exact ⟨by rw [if_pos hall, ← Except.ok.inj hc], [], rfl⟩
  · have hb : (selectAll || offered.isEmpty) = false := by simpa using hall
    unfold select at h
    rw [hb] at h
    cases ha : Selection.ask offered setting.input with
    | mk selected dialog =>
      rw [ha] at h
      cases selected with
      | error failure => cases h
      | ok paths =>
        obtain ⟨hc, rfl⟩ := Prod.mk.inj h
        exact ⟨by rw [if_neg hall, ← Except.ok.inj hc], [dialog], rfl⟩

def ofListing (setting : Setting) (selectAll : Bool) (reference : Repository.Reference) :
    Except Repository.Failure (List Repository.Listed) → Activity (Except Failure Sources)
  | .error failure => return .error (.repository failure)
  | .ok files => do
    match ← select setting selectAll (files.map (·.path)) with
    | .ok paths => return .ok (remote reference paths)
    | .error failure => return .error failure

lemma ofListing_of_ok {selectAll : Bool} {reference : Repository.Reference}
    {reply : Except Repository.Failure (List Repository.Listed)}
    (h : ofListing setting selectAll reference reply s = (.ok sources, collected)) :
    ∃ files paths, reply = .ok files ∧ sources = remote reference paths ∧
      select setting selectAll (files.map (·.path)) s = (.ok paths, collected) := by
  cases reply with
  | error failure => cases h
  | ok files =>
    cases hs : select setting selectAll (files.map (·.path)) s with
    | mk selected chosen =>
      rw [ofListing, bind_of_eq hs] at h
      cases selected with
      | error failure => cases h
      | ok paths =>
        cases h
        exact ⟨files, paths, rfl, rfl, hs⟩

lemma ofRepository_eq {selectAll : Bool} {url : String} {reference : Repository.Reference}
    {reply : Except Repository.Failure (List Repository.Listed)} {past : List Http.Exchange}
    (hr : Repository.Reference.ofUrl? url = some reference)
    (hl : setting.client.fetchTree reference setting.config.repository.branch setting.network s.past = (reply, past)) :
    ofRepository setting selectAll url s =
      ofListing setting selectAll reference reply ({ s with past }.note [.event (.stage .fetching)]) := by
  rw [ofRepository, hr]
  change (emit (.stage .fetching) >>= _) s = _
  rw [bind_of_eq (emit_eq _ s), bind_of_eq (online_eq (s.note _) hl)]
  cases reply <;> rfl

lemma collected_of_ofRepository {options : Options} {url : String} (ho : options.origin = .repository url)
    (h : ofRepository setting options.selectAll url s = (.ok sources, collected)) :
    Collected setting options s sources collected := by
  cases hr : Repository.Reference.ofUrl? url with
  | none =>
    unfold ofRepository at h
    rw [hr] at h
    cases h
  | some reference =>
    obtain ⟨⟨reply, past⟩, hl⟩ : ∃ listing, setting.client.fetchTree reference setting.config.repository.branch
      setting.network s.past = listing := ⟨_, rfl⟩
    rw [ofRepository_eq hr hl] at h
    obtain ⟨files, paths, rfl, rfl, hs⟩ := ofListing_of_ok h
    obtain ⟨hp, shown, rfl⟩ := select_of_ok hs
    have hsilent : (shown.map Notice.shown).filterMap Notice.event? = [] ∧
        (shown.map Notice.shown).filterMap Notice.prompt? = [] := by
      simp [List.filterMap_map, Notice.event?, Notice.prompt?, Function.comp_def]
    refine ⟨?_, rfl, ?_, ?_⟩
    · simp only [Collects, ho]
      exact ⟨reference, files, hr, by rw [hl], by simpa [Sources.paths] using hp⟩
    · rw [State.note_note, State.events_note, List.filterMap_append, hsilent.1, List.append_nil, ho]
      rfl
    · rw [State.note_note, State.prompts_note, List.filterMap_append, hsilent.2, List.append_nil]
      exact List.append_nil _

lemma collected_of_ofOrigin {options : Options}
    (h : ofOrigin setting options.selectAll options.origin s = (.ok sources, collected)) :
    Collected setting options s sources collected := by
  cases ho : options.origin with
  | folder root =>
    rw [ho] at h
    exact collected_of_ofFolder ho h
  | repository url =>
    rw [ho] at h
    exact collected_of_ofRepository ho h

end Sources

end CodeOutline.Run
