import CodeOutline.Proofs.Run.Abort
import CodeOutline.Proofs.Run.Conversation
import Mathlib.Data.Prod.Basic

/-! Failures of single files: each file of a run is read and documented by itself, so what becomes of one has no
effect on what becomes of the others. -/

namespace CodeOutline

/-- The model's reply depends on nothing but the prompt. -/
def Model.Answers (model : Model) (network : Http.Network) (answer : String → Except Model.Failure String) : Prop :=
  ∀ prompt past, (model.complete none prompt network past).1 = answer prompt

namespace Run

open Activity

/-- What a run finds where it reads a file. -/
inductive Finding where
  | onDisk (content : Except Disk.Failure (List UInt8))
  | remote (outcome : Http.Outcome)
deriving DecidableEq

namespace Finding

def text? (path : String) : Finding → Option String
  | onDisk content => content.toOption.map Outline.textOfBytes
  | remote outcome => (Repository.Client.fileText path outcome).toOption

def outline? (path : String) (finding : Finding) : Option Outline :=
  (finding.text? path).bind fun text => (Sources.worth (Outline.ofSource path text)).toOption

def outlines (paths : List String) (findings : List Finding) : List Outline :=
  (paths.zip findings).filterMap fun (path, finding) => finding.outline? path

variable {path : String} {finding : Finding} {o : Outline}

lemma toOption_worth_eq_some {kept : Outline} (h : (Sources.worth o).toOption = some kept) : kept = o := by
  unfold Sources.worth at h
  split at h
  · cases h
  · exact (Option.some.inj h).symm

lemma path_of_outline? (h : finding.outline? path = some o) : o.path = path := by
  obtain ⟨text, _, ho⟩ := Option.bind_eq_some_iff.mp h
  rw [toOption_worth_eq_some ho]
  rfl

lemma outline?_onDisk (disk : Disk) (path : String) :
    (onDisk (disk.read path)).outline? path = (Sources.fileFate disk path).toOption := by
  rw [outline?, text?, Sources.fileFate, Outline.ofFile]
  cases disk.read path <;> rfl

lemma outline?_remote (outcome : Http.Outcome) (path : String) :
    (remote outcome).outline? path =
      (Sources.remoteFate path (Repository.Client.fileText path outcome)).toOption := by
  rw [outline?, text?]
  cases Repository.Client.fileText path outcome <;> rfl

lemma outlines_cons (path : String) (paths : List String) (finding : Finding) (findings : List Finding) :
    outlines (path :: paths) (finding :: findings) = (finding.outline? path).toList ++ outlines paths findings := by
  cases h : finding.outline? path <;> simp [outlines, h]

lemma filter_outlines_eq {paths : List String} {findings findings' : List Finding}
    (hlength : findings.length = paths.length) (hlength' : findings'.length = paths.length)
    (h : ∀ (i : Nat) other, paths[i]? = some other → other ≠ path → findings[i]? = findings'[i]?) :
    (outlines paths findings).filter (·.path ≠ path) = (outlines paths findings').filter (·.path ≠ path) := by
  induction paths generalizing findings findings' with
  | nil => simp [outlines]
  | cons first paths ih =>
    obtain ⟨finding, findings, rfl⟩ := List.exists_cons_of_length_pos (by simp [hlength] : 0 < findings.length)
    obtain ⟨finding', findings', rfl⟩ := List.exists_cons_of_length_pos (by simp [hlength'] : 0 < findings'.length)
    have hlater : ∀ (i : Nat) other, paths[i]? = some other → other ≠ path → findings[i]? = findings'[i]? := by
      intro i other hi hne
      simpa using h (i + 1) other (by simpa using hi) hne
    have hrest := ih (by simpa using hlength) (by simpa using hlength') hlater
    rw [outlines_cons, outlines_cons, List.filter_append, List.filter_append, hrest]
    congr 1
    by_cases hne : first = path
    -- whatever was found at `path` is left out
    · have hnone : ∀ finding : Finding, (finding.outline? first).toList.filter (·.path ≠ path) = [] := by
        intro finding
        apply List.filter_eq_nil_iff.mpr
        intro o ho
        simp [path_of_outline? (Option.mem_toList.mp ho), hne]
      rw [hnone, hnone]
    · have hsame : finding = finding' := by simpa using h 0 first rfl hne
      rw [hsame]

end Finding

def fileRequest? (setting : Setting) : Origin → String → Option Http.Request
  | .folder _, _ => none
  | .repository url, path => (Repository.Reference.ofUrl? url).bind fun reference =>
    setting.client.fileRequest? reference path setting.config.repository.branch

/-- What a run finds of its files, by the disk that it starts with or by what was said on the network. -/
def findings (origin : Origin) (paths : List String) (disk : Disk) (past : List Http.Exchange) : List Finding :=
  match origin with
  | .folder _ => paths.map fun path => .onDisk (disk.read path)
  | .repository _ => past.tail.map fun exchange => .remote exchange.outcome

def requests (setting : Setting) (origin : Origin) (paths : List String) : List (Option Http.Request) :=
  match origin with
  | .folder _ => []
  | .repository _ => treeRequest? setting origin :: paths.map (fileRequest? setting origin)

namespace Sources

variable {setting : Setting} {s : State} {reference : Repository.Reference}

lemma settle_fst {α : Type} (s : State) (path : String) (told : α → List Notice) (fate : Except Omission α) :
    (s.settle path told fate).1 = fate.toOption := by
  cases fate <;> rfl

lemma gather_readFile (paths : List String) (s : State) :
    (gather readFile paths s).1 = Finding.outlines paths (paths.map fun path => .onDisk (s.disk.read path)) ∧
      (gather readFile paths s).2.disk = s.disk ∧ (gather readFile paths s).2.past = s.past := by
  induction paths generalizing s with
  | nil => exact ⟨rfl, rfl, rfl⟩
  | cons path rest ih =>
    have hgiven : (readFile path s).1 = (Finding.onDisk (s.disk.read path)).outline? path := by
      rw [readFile_eq, settle_fst, Finding.outline?_onDisk]
    have hdisk : (readFile path s).2.disk = s.disk := by
      rw [readFile_eq]
      cases fileFate s.disk path <;> rfl
    have hpast : (readFile path s).2.past = s.past := by
      rw [readFile_eq, State.settle_past, State.note_past]
    obtain ⟨hrest, hdisk', hpast'⟩ := ih (readFile path s).2
    rw [gather_cons, List.map_cons, Finding.outlines_cons, hgiven, hrest, hdisk]
    exact ⟨rfl, hdisk'.trans hdisk, hpast'.trans hpast⟩

lemma gather_fetchFile
    (h : ∀ path, ∃ r, setting.client.fileRequest? reference path setting.config.repository.branch = some r)
    (paths : List String) (s : State) :
    ∃ sent : List Http.Exchange, (gather (fetchFile setting reference) paths s).2.past = s.past ++ sent ∧
      sent.map (fun exchange => some exchange.request) =
        paths.map (fun path => setting.client.fileRequest? reference path setting.config.repository.branch) ∧
      (gather (fetchFile setting reference) paths s).1 =
        Finding.outlines paths (sent.map fun exchange => .remote exchange.outcome) := by
  induction paths generalizing s with
  | nil => exact ⟨[], (List.append_nil _).symm, rfl, rfl⟩
  | cons path rest ih =>
    obtain ⟨r, hr⟩ := h path
    have hfetched := fetchFile_eq (s := s) (Repository.Client.fetchFile_eq_of_some hr)
    have hgiven : (fetchFile setting reference path s).1 =
        (Finding.remote (setting.network s.past r)).outline? path := by
      rw [hfetched, settle_fst, Finding.outline?_remote]
    have hpast : (fetchFile setting reference path s).2.past = s.past ++ [setting.network.exchange s.past r] := by
      rw [hfetched, State.settle_past, State.note_past]
    obtain ⟨sent, hsent, hrequests, houtlines⟩ := ih (fetchFile setting reference path s).2
    refine ⟨setting.network.exchange s.past r :: sent, ?_, ?_, ?_⟩
    · rw [gather_cons, hsent, hpast, List.append_assoc]
      rfl
    · rw [List.map_cons, List.map_cons, hrequests, hr]
      rfl
    · rw [gather_cons, hgiven, houtlines, List.map_cons, Finding.outlines_cons]
      rfl

end Sources

namespace Documents

variable {network : Http.Network} {model : Model} {answer : String → Except Model.Failure String}

def drafts (answer : String → Except Model.Failure String) (outlines : List Outline) : List Document :=
  outlines.filterMap fun o => (answer o.prompt).toOption.map (Document.mk o.path)

lemma replies_of_answers (h : model.Answers network answer) (prompts : List String) (past : List Http.Exchange) :
    (model.askInTurn prompts network past).1 = prompts.map answer := by
  induction prompts generalizing past with
  | nil => rfl
  | cons prompt rest ih =>
    rw [askInTurn_cons rfl rfl, h, ih]
    rfl

lemma drafts_cons (answer : String → Except Model.Failure String) (o : Outline) (outlines : List Outline) :
    drafts answer (o :: outlines) =
      ((answer o.prompt).toOption.map (Document.mk o.path)).toList ++ drafts answer outlines := by
  rw [drafts, List.filterMap_cons]
  cases answer o.prompt <;> rfl

lemma ofReplies_answers (answer : String → Except Model.Failure String) (outlines : List Outline) :
    ofReplies outlines ((outlines.map Outline.prompt).map answer) = drafts answer outlines := by
  induction outlines with
  | nil => rfl
  | cons o outlines ih => rw [List.map_cons, List.map_cons, ofReplies_cons, ih, drafts_cons]

lemma generateAll_of_answers {parsed : List Outline} {s after : State} {docs : List Document}
    (ha : model.Answers network answer) (h : generateAll network model parsed s = (docs, after)) :
    docs = drafts answer parsed := by
  obtain ⟨replies, hreplies, hdocs⟩ := replies_of_generateAll h
  rw [hdocs, ← ofReplies_answers, ← replies_of_answers ha, hreplies]

lemma filter_drafts_eq {answer' : String → Except Model.Failure String} {outlines outlines' : List Outline}
    {path : String} (h : outlines.filter (·.path ≠ path) = outlines'.filter (·.path ≠ path))
    (hanswer : ∀ o ∈ outlines, o.path ≠ path → answer o.prompt = answer' o.prompt) :
    (drafts answer outlines).filter (·.path ≠ path) = (drafts answer' outlines').filter (·.path ≠ path) := by
  have hfilter : ∀ (answer : String → Except Model.Failure String) (outlines : List Outline),
      (drafts answer outlines).filter (·.path ≠ path) = drafts answer (outlines.filter (·.path ≠ path)) := by
    intro answer outlines
    induction outlines with
    | nil => rfl
    | cons o outlines ih =>
      rw [drafts_cons, List.filter_append, ih, List.filter_cons]
      by_cases ho : o.path = path
      · cases answer o.prompt <;> simp [ho, Except.toOption]
      · cases hreply : answer o.prompt <;> simp [ho, drafts_cons, hreply, Except.toOption]
  rw [hfilter, hfilter, ← h]
  apply List.filterMap_congr
  intro o ho
  obtain ⟨hmem, hne⟩ := List.mem_filter.mp ho
  rw [hanswer o hmem (by simpa using hne)]

end Documents

variable {setting : Setting} {options : Options} {answers : Option (String → Except Model.Failure String)}
  {disk : Disk} {s collected read after : State} {sources : Sources} {paths : List String} {parsed : List Outline}
  {report : Report}

lemma Collects.unique {past : List Http.Exchange} {paths' : List String} (h : Collects setting options disk past paths)
    (h' : Collects setting options disk past paths') : paths = paths' := by
  cases ho : options.origin with
  | folder root =>
    simp only [Collects, ho] at h h'
    exact Except.ok.inj (h.symm.trans h')
  | repository url =>
    simp only [Collects, ho] at h h'
    obtain ⟨reference, files, hr, hf, hp⟩ := h
    obtain ⟨reference', files', hr', hf', hp'⟩ := h'
    obtain rfl : reference = reference' := Option.some.inj (hr.symm.trans hr')
    obtain rfl : files = files' := Except.ok.inj (hf.symm.trans hf')
    split at hp
    · rename_i hall
      rw [if_pos hall] at hp'
      exact hp.trans hp'.symm
    · rename_i hall
      rw [if_neg hall] at hp'
      exact Except.ok.inj (hp.symm.trans hp')

/-- Files that have been chosen and not been read yet, after what was said on the network for that. -/
inductive Chosen (setting : Setting) : Origin → Sources → List Http.Exchange → Prop
  | folder {root : String} {paths : List String} : Chosen setting (.folder root) (.onDisk paths) []
  | repository {url : String} {reference : Repository.Reference} {r : Http.Request} {paths : List String} :
      Repository.Reference.ofUrl? url = some reference →
      setting.client.treeRequest? reference setting.config.repository.branch = some r →
      Chosen setting (.repository url) (.remote reference paths) [setting.network.exchange [] r]

lemma chosen_of_ofOrigin {selectAll : Bool} {origin : Origin}
    (h : Sources.ofOrigin setting selectAll origin (State.start disk) = (.ok sources, collected)) :
    Chosen setting origin sources collected.past := by
  have hpast := (Sources.hasListed_ofOrigin setting selectAll origin (State.start disk)).past_eq
  rw [h] at hpast
  rw [hpast]
  cases origin with
  | folder root =>
    rw [Sources.ofOrigin, Sources.ofFolder, bind_of_eq (emit_eq _ _), bind_of_eq (get_eq _)] at h
    cases hd : Scan.directory ((State.start disk).note [.event (.stage .scanning)]).disk setting.env setting.config.scan
      root with
    | error failure =>
      rw [hd] at h
      cases h
    | ok paths =>
      rw [hd] at h
      cases h
      exact .folder
  | repository url =>
    cases hr : Repository.Reference.ofUrl? url with
    | none =>
      rw [Sources.ofOrigin, Sources.ofRepository, hr] at h
      cases h
    | some reference =>
      obtain ⟨⟨reply, past⟩, hl⟩ : ∃ listing, setting.client.fetchTree reference setting.config.repository.branch
        setting.network (State.start disk).past = listing := ⟨_, rfl⟩
      rw [Sources.ofOrigin, Sources.ofRepository_eq hr hl] at h
      obtain ⟨files, paths, rfl, rfl, _⟩ := Sources.ofListing_of_ok h
      cases ht : setting.client.treeRequest? reference setting.config.repository.branch with
      | none =>
        rw [Repository.Client.fetchTree_eq_of_none ht] at hl
        cases hl
      | some r =>
        simp only [treeRequest?, hr, Option.bind_some, ht]
        exact .repository hr ht

lemma Chosen.outlines {origin : Origin} (h : Chosen setting origin sources s.past)
    (hr : sources.outlines setting s = (parsed, read)) :
    parsed = Finding.outlines sources.paths (findings origin sources.paths s.disk read.past) ∧
      read.past.map (fun exchange => some exchange.request) = requests setting origin sources.paths := by
  generalize hpast : s.past = past at h
  cases h with
  | @folder root paths =>
    obtain ⟨hparsed, _, hsame⟩ := Sources.gather_readFile paths s
    rw [Sources.outlines] at hr
    simp only [hr] at hparsed hsame
    rw [hsame, hpast]
    exact ⟨hparsed, rfl⟩
  | @repository url reference r paths hurl ht =>
    have hfile : ∀ path, ∃ r, setting.client.fileRequest? reference path setting.config.repository.branch = some r := by
      intro path
      rw [← Option.isSome_iff_exists, Repository.Client.isSome_fileRequest?, ht]
      rfl
    obtain ⟨sent, hsent, hrequests, hparsed⟩ := Sources.gather_fetchFile hfile paths s
    rw [Sources.outlines] at hr
    simp only [hr, hpast] at hsent hparsed
    have hurls : requests setting (.repository url) paths = some r ::
        paths.map fun path => setting.client.fileRequest? reference path setting.config.repository.branch := by
      simp [requests, treeRequest?, fileRequest?, hurl, ht]
    rw [hsent, hparsed]
    refine ⟨rfl, ?_⟩
    rw [List.map_append, hrequests]
    exact hurls.symm

/-- How a run over `paths` comes to its documents: each file is read by itself and each outline documented by itself.
The network is asked for the tree and then for each file, once and in order. -/
structure FileByFile (setting : Setting) (options : Options) (answers : Option (String → Except Model.Failure String))
    (disk : Disk) (paths : List String) (report : Report) (docs : List Document) (after : State) : Prop where
  generated : ∃ used sources collected, modelInUse options (answers.map Model.ofFunction) = .ok used ∧
    Sources.ofOrigin setting options.selectAll options.origin (State.start disk) = (.ok sources, collected) ∧
    Course setting used options.outputFolder sources collected report docs after
  parsed_eq : report.parsed = Finding.outlines paths (findings options.origin paths disk after.past)
  docs_eq : docs = if options.extractOnly then [] else answers.elim [] (Documents.drafts · report.parsed)
  requests_eq : after.past.map (fun exchange => some exchange.request) = requests setting options.origin paths

lemma past_of_generateAll {answer : String → Except Model.Failure String} {docs : List Document}
    (h : Documents.generateAll setting.network (Model.ofFunction answer) parsed s = (docs, after)) :
    after.past = s.past := by
  refine (gathering_of_gather h).preserves fun numbered s => ?_
  rw [Documents.generate_eq, State.settle_past, State.note_past]
  rfl

lemma answers_ofFunction (network : Http.Network) (answer : String → Except Model.Failure String) :
    (Model.ofFunction answer).Answers network answer := fun _ _ => rfl

lemma outlines_of_nil (setting : Setting) (hp : sources.paths = []) (s : State) : sources.outlines setting s = ([], s) := by
  cases sources with
  | onDisk paths | remote reference paths =>
    obtain rfl : paths = [] := hp
    rfl

lemma exists_reading_of_course {docs : List Document} (hu : modelInUse options (answers.map Model.ofFunction) = .ok used)
    (h : Course setting used options.outputFolder sources collected report docs after) :
    ∃ notices read, sources.outlines setting (collected.note notices) = (report.parsed, read) ∧
      after.past = read.past := by
  cases h with
  | nothingFound hp => exact ⟨[], collected, outlines_of_nil setting hp collected, rfl⟩
  | stopped hp hr => exact ⟨_, _, hr, rfl⟩
  | documented hp hr hm hparsed hg hw =>
    obtain ⟨_, rfl⟩ | ⟨_, _, hused⟩ := modelInUse_eq_ok hu
    · cases hm
    · obtain ⟨answer, rfl, rfl⟩ := Option.map_eq_some_iff.mp (hused.trans hm)
      have hanswered := past_of_generateAll hg
      exact ⟨_, _, hr, (Documents.past_of_writeAll hw).trans hanswered⟩

lemma docs_eq_of_course {docs : List Document} (hu : modelInUse options (answers.map Model.ofFunction) = .ok used)
    (h : Course setting used options.outputFolder sources collected report docs after) :
    docs = if options.extractOnly then [] else answers.elim [] (Documents.drafts · report.parsed) := by
  cases h with
  | nothingFound => cases answers <;> simp [Documents.drafts]
  | stopped hp hr hstop =>
    obtain ⟨honly, _⟩ | ⟨_, hsome, _⟩ := modelInUse_eq_ok hu
    · rw [if_pos honly]
    · rw [hstop.resolve_left hsome]
      cases answers <;> simp [Documents.drafts]
  | documented hp hr hm hparsed hg hw =>
    obtain ⟨_, rfl⟩ | ⟨honly, _, hused⟩ := modelInUse_eq_ok hu
    · cases hm
    · obtain ⟨answer, rfl, rfl⟩ := Option.map_eq_some_iff.mp (hused.trans hm)
      rw [Documents.generateAll_of_answers (answers_ofFunction _ answer) hg, honly]
      rfl

lemma fileByFile_of_perform
    (h : perform setting options (answers.map Model.ofFunction) (State.start disk) = (.ok report, after))
    (hc : Collects setting options disk [] paths) :
    ∃ docs, FileByFile setting options answers disk paths report docs after := by
  obtain ⟨used, sources, collected, docs, hu, hs, hcourse⟩ := exists_course h
  have hcollected := Sources.collected_of_ofOrigin hs
  have hdisk : collected.disk = disk := hcollected.disk_eq
  obtain rfl := hcollected.paths.unique hc
  obtain ⟨notices, read, hread, hpast⟩ := exists_reading_of_course hu hcourse
  obtain ⟨hparsed, hrequests⟩ := (chosen_of_ofOrigin hs).outlines (s := collected.note notices) hread
  rw [State.note_disk, hdisk, ← hpast] at hparsed
  exact ⟨docs, ⟨used, sources, collected, hu, hs, hcourse⟩, hparsed, docs_eq_of_course hu hcourse, hpast ▸ hrequests⟩

lemma length_findings (hrequests : after.past.map (fun exchange => some exchange.request) =
    requests setting options.origin paths) : (findings options.origin paths disk after.past).length = paths.length := by
  cases ho : options.origin with
  | folder root => simp [findings]
  | repository url =>
    have hlength : after.past.length = paths.length + 1 := by
      simpa [requests, ho] using congrArg List.length hrequests
    simp [findings, hlength]

lemma FileByFile.answers_ne_none {docs : List Document} (h : FileByFile setting options answers disk paths report docs after)
    (hall : options.extractOnly ≠ true) : ∃ answer, answers = some answer := by
  obtain ⟨used, _, _, hu, _⟩ := h.generated
  obtain ⟨honly, _⟩ | ⟨_, hsome, hused⟩ := modelInUse_eq_ok hu
  · exact absurd honly hall
  · obtain ⟨model, rfl⟩ := Option.ne_none_iff_exists'.mp hsome
    obtain ⟨answer, hanswer, _⟩ := Option.map_eq_some_iff.mp hused
    exact ⟨answer, hanswer⟩

/-- Two runs over the same paths that differ in what is found at one of them, or in what the model answers about it,
agree on all others. -/
theorem isolates_failures {setting' : Setting} {answers' : Option (String → Except Model.Failure String)}
    {disk' : Disk} {report' : Report} {after' : State} {path : String}
    (h : perform setting options (answers.map Model.ofFunction) (State.start disk) = (.ok report, after))
    (h' : perform setting' options (answers'.map Model.ofFunction) (State.start disk') = (.ok report', after'))
    (hpaths : Collects setting options disk [] paths) (hpaths' : Collects setting' options disk' [] paths)
    (hfound : ∀ (i : Nat) other, paths[i]? = some other → other ≠ path →
      (findings options.origin paths disk after.past)[i]? = (findings options.origin paths disk' after'.past)[i]?)
    (hanswers : ∀ answer ∈ answers, ∀ answer' ∈ answers', ∀ o ∈ report.parsed, o.path ≠ path →
      answer o.prompt = answer' o.prompt) :
    ∃ docs docs', FileByFile setting options answers disk paths report docs after ∧
      FileByFile setting' options answers' disk' paths report' docs' after' ∧
      report.parsed.filter (·.path ≠ path) = report'.parsed.filter (·.path ≠ path) ∧
      docs.filter (·.path ≠ path) = docs'.filter (·.path ≠ path) := by
  obtain ⟨docs, hrun⟩ := fileByFile_of_perform h hpaths
  obtain ⟨docs', hrun'⟩ := fileByFile_of_perform h' hpaths'
  have hparsed : report.parsed.filter (·.path ≠ path) = report'.parsed.filter (·.path ≠ path) := by
    rw [hrun.parsed_eq, hrun'.parsed_eq]
    exact Finding.filter_outlines_eq (length_findings hrun.requests_eq) (length_findings hrun'.requests_eq) hfound
  refine ⟨docs, docs', hrun, hrun', hparsed, ?_⟩
  rw [hrun.docs_eq, hrun'.docs_eq]
  split
  · rfl
  · rename_i hall
    obtain ⟨answer, rfl⟩ := hrun.answers_ne_none hall
    obtain ⟨answer', rfl⟩ := hrun'.answers_ne_none hall
    exact Documents.filter_drafts_eq hparsed (hanswers answer rfl answer' rfl)

/-- The first file cannot be fetched in the second run. -/
theorem isolates_unfetched_file :
    let tree := ("/repos/o/r/git/trees/b?recursive=1", "\x7b\"tree\":[\x7b\"path\":\"a.go\",\"type\":\"blob\"\x7d," ++
      "\x7b\"path\":\"b.py\",\"type\":\"blob\"\x7d]\x7d")
    let first := ("/repos/o/r/contents/a.go?ref=b", "\x7b\"content\":\"ZnVuYyBmKCkgew==\"\x7d")
    let last := ("/repos/o/r/contents/b.py?ref=b", "\x7b\"content\":\"Y2xhc3MgQjo=\"\x7d")
    let config : Config := { Config.standard with repository := ⟨"http://h", "b", none⟩ }
    let setting := Setting.ofConfig config ⟨[]⟩ (.serving [tree, first, last]) []
    let setting' := Setting.ofConfig config ⟨[]⟩ (.serving [tree, last]) []
    let options : Options := ⟨.repository "github.com/o/r", "docs", true, false⟩
    let answers : Option (String → Except Model.Failure String) := some fun _ => .ok "Text."
    let report : Report := ⟨2, [⟨"a.go", [⟨.function, "f", 1⟩]⟩, ⟨"b.py", [⟨.classDecl, "B", 1⟩]⟩], 2,
      ["docs/a_docs.md", "docs/b_docs.md"]⟩
    let report' : Report := ⟨2, [⟨"b.py", [⟨.classDecl, "B", 1⟩]⟩], 1, ["docs/b_docs.md"]⟩
    let run := perform setting options (answers.map Model.ofFunction) (State.start ⟨[], []⟩)
    let run' := perform setting' options (answers.map Model.ofFunction) (State.start ⟨[], []⟩)
    run.1 = .ok report ∧ run'.1 = .ok report' ∧
      ∃ docs docs', FileByFile setting options answers ⟨[], []⟩ ["a.go", "b.py"] report docs run.2 ∧
        FileByFile setting' options answers ⟨[], []⟩ ["a.go", "b.py"] report' docs' run'.2 ∧
        report.parsed.filter (·.path ≠ "a.go") = report'.parsed.filter (·.path ≠ "a.go") ∧
        docs.filter (·.path ≠ "a.go") = docs'.filter (·.path ≠ "a.go") := by
  intro tree first last config setting setting' options answers report report' run run'
  have hrun : run.1 = .ok report := by decide +kernel
  have hrun' : run'.1 = .ok report' := by decide +kernel
  have hpaths : Collects setting options ⟨[], []⟩ [] ["a.go", "b.py"] :=
    ⟨⟨"o", "r"⟩, [⟨"a.go", none⟩, ⟨"b.py", none⟩], by decide +kernel, by decide +kernel, by simp [options]⟩
  have hpaths' : Collects setting' options ⟨[], []⟩ [] ["a.go", "b.py"] :=
    ⟨⟨"o", "r"⟩, [⟨"a.go", none⟩, ⟨"b.py", none⟩], by decide +kernel, by decide +kernel, by simp [options]⟩
  have hfound : ∀ (i : Nat) other, ["a.go", "b.py"][i]? = some other → other ≠ "a.go" →
      (findings options.origin ["a.go", "b.py"] ⟨[], []⟩ run.2.past)[i]? =
        (findings options.origin ["a.go", "b.py"] ⟨[], []⟩ run'.2.past)[i]? := by
    intro i other hother hne
    match i with
    | 0 => exact absurd (Option.some.inj hother).symm hne
    | 1 => decide +kernel
    | i + 2 => cases hother
  have hanswers : ∀ answer ∈ answers, ∀ answer' ∈ answers, ∀ o ∈ report.parsed, o.path ≠ "a.go" →
      answer o.prompt = answer' o.prompt := by
    intro answer hanswer answer' hanswer' o _ _
    rw [Option.mem_unique hanswer hanswer']
  exact ⟨hrun, hrun', isolates_failures (Prod.fst_eq_iff.mp hrun) (Prod.fst_eq_iff.mp hrun') hpaths hpaths' hfound
    hanswers⟩

end Run

end CodeOutline
