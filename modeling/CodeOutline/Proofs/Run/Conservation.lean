import CodeOutline.Proofs.Run.Chronicle

/-! Conservation of files: whatever the disk, the network and the model do, no file of a run gets lost on the
way from the listing to the report. -/

namespace CodeOutline.Run

variable {setting : Setting} {options : Options} {model? used : Option Model} {disk : Disk} {sources : Sources}
  {collected after : State} {report : Report} {docs : List Document}

lemma chronicle_of_course (hu : modelInUse options model? = .ok used)
    (hc : Collected setting options (State.start disk) sources collected)
    (h : Course setting used options.outputFolder sources collected report docs after) :
    Chronicle options sources.paths report docs after.events ∧
      (report.parsed.map (·.path)).Sublist sources.paths ∧ after.prompts = report.prompts options := by
  have hstart : collected.events = [.stage (firstStage options.origin)] := hc.events_eq
  have hsilent : collected.prompts = [] := hc.prompts_eq
  cases h with
  | nothingFound hp =>
    have hevents : (collected.note [.event (.found 0)]).events = [.stage (firstStage options.origin), .found 0] := by
      simp [hstart, Notice.event?]
    refine ⟨hevents ▸ .nothingFound hp, by simp, ?_⟩
    simp [hsilent, Notice.prompt?, Report.prompts]
  | @stopped parsed read hp hr hstop =>
    obtain ⟨reading, haccounts, hread, hprompts⟩ := Sources.accounts_outlines hr
    have hevents : (read.note [.event (.parsed parsed.length)]).events =
        [.stage (firstStage options.origin), .found sources.paths.length, .stage .parsing] ++ reading ++
          [.parsed parsed.length] := by
      simp [hread, hstart, Notice.event?]
    have hwhy : options.extractOnly = true ∨ parsed = [] := by
      obtain ⟨honly, _⟩ | ⟨_, hsome, _⟩ := modelInUse_eq_ok hu
      · exact Or.inl honly
      · exact Or.inr (hstop.resolve_left hsome)
    refine ⟨hevents ▸ .stopped hp haccounts hwhy, Phase.paths_sublist_of_log haccounts.log, ?_⟩
    have hnone : Report.prompts options ⟨sources.paths.length, parsed, 0, []⟩ = [] := by
      obtain honly | rfl := hwhy
      · exact if_pos honly
      · simp [Report.prompts]
    simp [hnone, hprompts, hsilent, Notice.prompt?]
  | @documented parsed read answered _ model _ exported hp hr hm hparsed hg hw =>
    obtain ⟨reading, hreading, hread, hsilent'⟩ := Sources.accounts_outlines hr
    obtain ⟨documenting, hdocumenting, hanswered, hasked⟩ := Documents.accounts_generateAll hg
    obtain ⟨exporting, hexporting, hafter, hlast⟩ := Documents.accounts_writeAll hw
    have honly : options.extractOnly = false := by
      obtain ⟨_, rfl⟩ | ⟨honly, _⟩ := modelInUse_eq_ok hu
      · cases hm
      · exact honly
    have hevents : after.events =
        [.stage (firstStage options.origin), .found sources.paths.length, .stage .parsing] ++ reading ++
          [.parsed parsed.length, .stage .documenting] ++ documenting ++
          [.documented docs.length, .stage .exporting] ++ exporting := by
      simp [hafter, hanswered, hread, hstart, Notice.event?]
    refine ⟨hevents ▸ .documented hp honly hparsed hreading hdocumenting hexporting,
      Phase.paths_sublist_of_log hreading.log, ?_⟩
    simp [hlast, hasked, hsilent', hsilent, List.filterMap_cons, Notice.prompt?, Report.prompts, honly]

lemma conversation_of_course {model : Model} (hu : modelInUse options (some model) = .ok used)
    (hs : Sources.ofOrigin setting options.selectAll options.origin (State.start disk) = (.ok sources, collected))
    (h : Course setting used options.outputFolder sources collected report docs after) :
    ∃ replies, model.askInTurn (report.prompts options) setting.network (extraction setting options disk).past =
        (replies, after.past) ∧ docs = Documents.ofReplies report.parsed replies := by
  cases h with
  | nothingFound hp =>
    refine ⟨[], ?_, by simp [Documents.ofReplies]⟩
    have hnone : Report.prompts options ⟨0, [], 0, []⟩ = [] := by simp [Report.prompts]
    rw [hnone, past_extraction_of_nil hs hp]
    rfl
  | @stopped parsed read hp hr hstop =>
    refine ⟨[], ?_, by simp [Documents.ofReplies]⟩
    have hnone : Report.prompts options ⟨sources.paths.length, parsed, 0, []⟩ = [] := by
      obtain ⟨honly, _⟩ | ⟨_, hsome, _⟩ := modelInUse_eq_ok hu
      · exact if_pos honly
      · simp [Report.prompts, hstop.resolve_left hsome]
    rw [hnone, past_extraction hs hp hr]
    rfl
  | @documented parsed read answered _ asked _ exported hp hr hm hparsed hg hw =>
    obtain ⟨_, rfl⟩ | ⟨honly, _, hused⟩ := modelInUse_eq_ok hu
    · cases hm
    · obtain rfl : model = asked := Option.some.inj (hused.trans hm)
      obtain ⟨replies, hreplies, hdocs⟩ := Documents.replies_of_generateAll hg
      refine ⟨replies, ?_, hdocs⟩
      rw [past_extraction hs hp hr, Documents.past_of_writeAll hw]
      simpa [Report.prompts, honly] using hreplies

/-- A run tells of every collected file once in each stage that it gets to. The model is asked about each parsed
file in turn, and after the reading nothing else is said on the network. -/
structure Conserves (setting : Setting) (options : Options) (model? : Option Model) (disk : Disk) (report : Report)
    (after : State) (paths : List String) (docs : List Document) : Prop where
  collects : Collects setting options disk [] paths
  chronicle : Chronicle options paths report docs after.events
  parsed_sublist : (report.parsed.map (·.path)).Sublist paths
  prompts_eq : after.prompts = report.prompts options
  asked : ∀ model, model? = some model → ∃ replies,
    model.askInTurn (report.prompts options) setting.network (extraction setting options disk).past =
      (replies, after.past) ∧ docs = Documents.ofReplies report.parsed replies

theorem conserves_files (h : (perform setting options model? (State.start disk)).1 = .ok report) :
    ∃ paths docs, Conserves setting options model? disk report (perform setting options model? (State.start disk)).2
      paths docs := by
  obtain ⟨used, sources, collected, docs, hu, hs, hcourse⟩ :=
    exists_course (Prod.ext h (rfl : _ = (perform setting options model? (State.start disk)).2))
  have hc := Sources.collected_of_ofOrigin hs
  obtain ⟨hchronicle, hsublist, hprompts⟩ := chronicle_of_course hu hc hcourse
  refine ⟨sources.paths, docs, hc.paths, hchronicle, hsublist, hprompts, ?_⟩
  rintro model rfl
  exact conversation_of_course hu hs hcourse

theorem conserves_one_of_two_files :
    let network := Http.Network.serving
      [("/repos/o/r/git/trees/b?recursive=1",
        "\x7b\"tree\":[\x7b\"path\":\"a.go\",\"type\":\"blob\"\x7d,\x7b\"path\":\"b.py\",\"type\":\"blob\"\x7d]\x7d"),
        ("/repos/o/r/contents/a.go?ref=b", "\x7b\"content\":\"ZnVuYyBmKCkgew==\"\x7d")]
    let setting := Setting.ofConfig { Config.standard with repository := ⟨"http://h", "b", none⟩ } ⟨[]⟩ network []
    let options : Options := ⟨.repository "github.com/o/r", "docs", true, false⟩
    let model := Model.ofFunction fun _ => .ok "f."
    let report : Report := ⟨2, [⟨"a.go", [⟨.function, "f", 1⟩]⟩], 1, ["docs/a_docs.md"]⟩
    (perform setting options (some model) (State.start ⟨[], []⟩)).1 = .ok report ∧
      ∃ paths docs, Conserves setting options (some model) ⟨[], []⟩ report
        (perform setting options (some model) (State.start ⟨[], []⟩)).2 paths docs := by
  refine ⟨?run, conserves_files ?run⟩
  decide +kernel

end CodeOutline.Run
