import CodeOutline.Proofs.Run.Extraction
import CodeOutline.Proofs.Scan.Stability

/-! Runs over a folder once more, on the disk that the first one has left. -/

namespace CodeOutline.Run

open Activity

variable {setting : Setting} {options : Options} {model? used : Option Model} {folder root : String} {disk : Disk}
  {paths exported : List String} {docs : List Document} {s after : State} {report : Report}

namespace Documents

lemma exportAll_of_writeAll (h : writeAll folder docs s = (exported, after)) :
    Document.exportAll folder docs s.disk = (exported, after.disk) := by
  induction docs generalizing s exported with
  | nil =>
    cases h
    rfl
  | cons doc rest ih =>
    have hdoc : ((write folder doc s).1, (write folder doc s).2.disk) =
        ((Document.exportTo folder doc s.disk).1.toOption, (Document.exportTo folder doc s.disk).2) := by
      rw [write_eq]
      cases (Document.exportTo folder doc s.disk).1 <;> rfl
    obtain ⟨hpath, hdisk⟩ := Prod.mk.inj hdoc
    rw [writeAll, gather_cons] at h
    obtain ⟨rfl, rfl⟩ := Prod.mk.inj h
    rw [Document.exportAll, ← hpath, ← hdisk, ih rfl]

lemma disk_of_generateAll {model : Model} {parsed : List Outline}
    (h : generateAll setting.network model parsed s = (docs, after)) : after.disk = s.disk := by
  refine (gathering_of_gather h).preserves fun numbered s => ?_
  rw [generate_eq]
  cases documentFate numbered.1 (answered setting.network model numbered.1 s.past).1 <;> rfl

end Documents

/-- A run that goes by what is on the disk: what it has parsed, and the documents it has written. -/
structure Local (folder : String) (paths : List String) (before : Disk) (report : Report) (docs : List Document)
    (after : Disk) : Prop where
  filesFound_eq : report.filesFound = paths.length
  parsed_eq : report.parsed = Finding.outlines paths (paths.map fun path => .onDisk (before.read path))
  documented_eq : report.documented = docs.length
  exported_eq : Document.exportAll folder docs before = (report.exported, after)

lemma local_of_course (h : Course setting used folder (.onDisk paths) s report docs after) :
    Local folder paths s.disk report docs after.disk := by
  have hreading : ∀ {notices parsed read}, (Sources.onDisk paths).outlines setting (s.note notices) = (parsed, read) →
      parsed = Finding.outlines paths (paths.map fun path => .onDisk (s.disk.read path)) ∧ read.disk = s.disk := by
    intro notices parsed read hr
    obtain ⟨hparsed, hdisk, _⟩ := Sources.gather_readFile paths (s.note notices)
    rw [Sources.outlines] at hr
    rw [hr] at hparsed hdisk
    exact ⟨hparsed, hdisk⟩
  cases h with
  | nothingFound hp =>
    obtain rfl : paths = [] := hp
    exact ⟨rfl, rfl, rfl, rfl⟩
  | stopped hp hr =>
    obtain ⟨hparsed, hdisk⟩ := hreading hr
    refine ⟨rfl, hparsed, rfl, ?_⟩
    rw [State.note_disk, hdisk]
    rfl
  | documented hp hr hm _ hg hw =>
    obtain ⟨hparsed, hdisk⟩ := hreading hr
    have hwritten := Documents.exportAll_of_writeAll hw
    rw [State.note_disk, Documents.disk_of_generateAll hg, State.note_disk, hdisk] at hwritten
    exact ⟨rfl, hparsed, rfl, hwritten⟩

/-- Answers that depend on the prompts alone make the documents depend on the outlines alone. -/
lemma exists_draft (ha : ∀ model, used = some model → ∃ answer, model.Answers setting.network answer) :
    ∃ draft : List Outline → List Document, ∀ {folder sources s report docs after},
      Course setting used folder sources s report docs after → docs = draft report.parsed := by
  cases used with
  | none =>
    refine ⟨fun _ => [], fun h => ?_⟩
    cases h with
    | nothingFound | stopped => rfl
    | documented _ _ hm => cases hm
  | some model =>
    obtain ⟨answer, hanswer⟩ := ha model rfl
    refine ⟨Documents.drafts answer, fun h => ?_⟩
    cases h with
    | nothingFound => rfl
    | stopped _ _ hstop =>
      rw [hstop.resolve_left (Option.some_ne_none model)]
      rfl
    | documented _ _ hm _ hg =>
      obtain rfl := Option.some.inj hm
      exact Documents.generateAll_of_answers hanswer hg

lemma Finding.outlines_congr {findings findings' : String → Finding}
    (h : ∀ path ∈ paths, (findings path).outline? path = (findings' path).outline? path) :
    outlines paths (paths.map findings) = outlines paths (paths.map findings') := by
  induction paths with
  | nil => rfl
  | cons path rest ih =>
    rw [List.forall_mem_cons] at h
    rw [List.map_cons, List.map_cons, outlines_cons, outlines_cons, h.1, ih h.2]

lemma perform_folder (ho : options.origin = .folder root) (hu : modelInUse options model? = .ok used)
    (hpaths : Scan.directory s.disk setting.env setting.config.scan root = .ok paths) :
    perform setting options model? s =
      let ended := Report.ofSources setting used options.outputFolder (.onDisk paths) (s.note [.event (.stage .scanning)])
      (.ok ended.1, ended.2) := by
  have hs : Sources.ofOrigin setting options.selectAll (.folder root) s =
      (.ok (.onDisk paths), s.note [.event (.stage .scanning)]) := by
    rw [Sources.ofOrigin, Sources.ofFolder, bind_of_eq (emit_eq _ s), bind_of_eq (get_eq _), State.note_disk, hpaths]
    rfl
  rw [perform_eq hu, ho, hs]

lemma exists_local (ho : options.origin = .folder root) (hu : modelInUse options model? = .ok used)
    (hpaths : Scan.directory s.disk setting.env setting.config.scan root = .ok paths) :
    ∃ report docs after, perform setting options model? s = (.ok report, after) ∧
      Course setting used options.outputFolder (.onDisk paths) (s.note [.event (.stage .scanning)]) report docs after ∧
      Local options.outputFolder paths s.disk report docs after.disk := by
  obtain ⟨docs, hcourse⟩ := course_ofSources setting used options.outputFolder (.onDisk paths)
    (s.note [.event (.stage .scanning)])
  have hlocal := local_of_course hcourse
  exact ⟨_, docs, _, perform_folder ho hu hpaths, hcourse, hlocal⟩

section

variable {report' : Report} {docs' : List Document} {before ended final : Disk}
  (hd : Scan.Undisturbed setting.config.scan setting.env folder root before)
  (h : Local folder paths before report docs ended)

include hd h

lemma Local.overlays : Document.Overlays folder before ended := by
  have hover := (Document.Overlays.refl folder hd.plain.sound hd.plain.linkFree).exportAll docs
  rwa [h.exported_eq] at hover

variable (hpaths : Scan.directory before setting.env setting.config.scan root = .ok paths)
  (h' : Local folder paths ended report' docs' final)

include hpaths h'

lemma Local.parsed_again : report'.parsed = report.parsed := by
  rw [h.parsed_eq, h'.parsed_eq]
  apply Finding.outlines_congr
  intro path hpath
  have hread := Scan.read_eq_of_mem_directory hd (h.overlays hd) hpaths hpath
  exact congrArg (Option.bind · _) (congrArg (Option.map Outline.textOfBytes) hread)

lemma Local.again (hdocs : docs' = docs) : report' = report ∧ ∀ place, final.find? place = ended.find? place := by
  obtain ⟨last, hagain, hsame⟩ := Document.exportAll_again hd.plain.linkFree h.exported_eq
  obtain ⟨hexported, rfl⟩ := Prod.mk.inj ((hdocs ▸ h'.exported_eq).symm.trans hagain)
  refine ⟨?_, hsame⟩
  calc report' = ⟨report'.filesFound, report'.parsed, report'.documented, report'.exported⟩ := rfl
    _ = ⟨report.filesFound, report.parsed, report.documented, report.exported⟩ := by
      rw [h'.filesFound_eq, h.filesFound_eq, h.parsed_again hd hpaths h', h'.documented_eq, h.documented_eq, hdocs,
        hexported]

end

/-- A run over a folder, repeated on the disk that it has left, comes to the same report and changes nothing. -/
theorem repeats_run (ho : options.origin = .folder root)
    (ha : ∀ model, model? = some model → ∃ answer, model.Answers setting.network answer)
    (hd : Scan.Undisturbed setting.config.scan setting.env options.outputFolder root disk)
    (h : perform setting options model? (State.start disk) = (.ok report, after)) :
    ∃ final, perform setting options model? (State.start after.disk) = (.ok report, final) ∧
      ∀ place, final.disk.find? place = after.disk.find? place := by
  obtain ⟨used, sources, _, _, hu, hs, _⟩ := exists_course h
  have hpaths := (Sources.collected_of_ofOrigin hs).paths
  simp only [Collects, ho] at hpaths
  obtain ⟨first, docs, ended, hfirst, hcourse, hlocal⟩ := exists_local ho hu (s := State.start disk) hpaths
  obtain ⟨hreport, rfl⟩ := Prod.mk.inj (hfirst.symm.trans h)
  obtain rfl := Except.ok.inj hreport
  have hpaths' := Scan.directory_eq hd (hlocal.overlays hd) hpaths
  obtain ⟨second, docs', final, hsecond, hcourse', hlocal'⟩ := exists_local ho hu (s := State.start ended.disk) hpaths'
  have hused : ∀ model, used = some model → ∃ answer, model.Answers setting.network answer := by
    rintro model rfl
    obtain ⟨_, hnone⟩ | ⟨_, _, hmodel⟩ := modelInUse_eq_ok hu
    · cases hnone
    · exact ha model hmodel
  -- the same texts at the same paths have the model asked the same
  obtain ⟨draft, hdraft⟩ := exists_draft hused
  have hdocs : docs' = docs := by rw [hdraft hcourse, hdraft hcourse', hlocal.parsed_again hd hpaths hlocal']
  obtain ⟨rfl, hsame⟩ := hlocal.again hd hpaths hlocal' hdocs
  exact ⟨final, hsecond, hsame⟩

/-- The documents go below the folder that is scanned. -/
theorem repeats_run_into_its_folder :
    let disk : Disk := ⟨[(["p"], .folder), (["p", "a.js"], .file (Text.Utf8.encode "class A {}"))], []⟩
    let setting := Setting.ofConfig Config.standard ⟨[]⟩ (.serving []) []
    let options : Options := ⟨.folder "p", "p/docs", true, false⟩
    let model := Model.ofFunction fun _ => .ok "A class."
    let report : Report := ⟨1, [⟨"p/a.js", [⟨.classDecl, "A", 1⟩]⟩], 1, ["p/docs/p_a_docs.md"]⟩
    let run := perform setting options (some model) (State.start disk)
    run.1 = .ok report ∧ ∃ final, perform setting options (some model) (State.start run.2.disk) = (.ok report, final) ∧
      ∀ place, final.disk.find? place = run.2.disk.find? place := by
  intro disk setting options model report run
  have hwalk : Scan.walk disk ⟨[]⟩ "p" ["p"] = [⟨"p/a.js", 10⟩] := by decide +kernel
  have hextension : Path.extension? "p/a.js" = some "js" := by decide +kernel
  have hpaths : Scan.directory disk ⟨[]⟩ .standard "p" = .ok ["p/a.js"] :=
    Scan.directory_eq_singleton (by decide +kernel) hwalk hextension (by decide) (by decide +kernel) (by decide)
  have hrun : run.1 = .ok report := by
    rw [show run = _ from perform_folder rfl rfl hpaths]
    decide +kernel
  have hplain : Document.IsPlain "p/docs" disk :=
    ⟨by decide +kernel, Disk.isLinkFree_of_forall (by simp [disk]), by decide +kernel⟩
  have hgit : ∀ entry ∈ disk.entries, entry.1.getLast? ≠ some ".git" := by decide
  have hd : Scan.Undisturbed .standard ⟨[]⟩ "p/docs" "p" disk := by
    refine ⟨hplain, Scan.toLower_ne_of_mem_standard, fun path h => ?_, fun path h => ?_, fun place content _ h => ?_⟩
    · cases h
    · cases h
    · exact absurd (by simp) (hgit _ (Disk.mem_entries_of_find? (by simp) h))
  refine ⟨hrun, repeats_run rfl (fun m hm => ?_) hd (Prod.fst_eq_iff.mp hrun)⟩
  rw [← Option.some.inj hm]
  exact ⟨_, answers_ofFunction _ _⟩

/-- The path of the rules leads through the output folder, which the first run makes, and out of it again. -/
theorem finds_nothing_again :
    let disk : Disk := ⟨[(["p"], .folder), (["p", ".git"], .file (Text.Utf8.encode "gitdir: docs/../g\n")),
      (["p", "a.js"], .file (Text.Utf8.encode "class A {}\n")), (["g"], .folder),
      (["g", "commondir"], .file (Text.Utf8.encode ".\n")), (["g", "info"], .folder),
      (["g", "info", "exclude"], .file (Text.Utf8.encode "a.js\n"))], []⟩
    let setting := Setting.ofConfig Config.standard ⟨[]⟩ (.serving []) []
    let options : Options := ⟨.folder "p", "docs", true, false⟩
    let model := Model.ofFunction fun _ => .ok "# Doc"
    let run := perform setting options (some model) (State.start disk)
    let again := perform setting options (some model) (State.start run.2.disk)
    Document.IsPlain "docs" disk ∧ (∀ extension ∈ Config.Scan.standard.includeExtensions, extension.toLower ≠ "md") ∧
      Ignore.User.rulesFile? disk setting.env = none ∧
      (Ignore.Level.gitFolder? run.2.disk "p").map (fun git => disk.placeOf (Path.join git "info/exclude")) =
        some ["g", "info", "exclude"] ∧
      run.1 = .ok ⟨1, [⟨"p/a.js", [⟨.classDecl, "A", 1⟩]⟩], 1, ["docs/p_a_docs.md"]⟩ ∧
      again.1 = .ok ⟨0, [], 0, []⟩ := by
  intro disk setting options model run again
  have hplain : Document.IsPlain "docs" disk :=
    ⟨by decide +kernel, Disk.isLinkFree_of_forall (by simp [disk]), by decide +kernel⟩
  have hwalk : Scan.walk disk ⟨[]⟩ "p" ["p"] = [⟨"p/a.js", 11⟩] := by decide +kernel
  have hextension : Path.extension? "p/a.js" = some "js" := by decide +kernel
  have hpaths : Scan.directory disk ⟨[]⟩ .standard "p" = .ok ["p/a.js"] :=
    Scan.directory_eq_singleton (by decide +kernel) hwalk hextension (by decide) (by decide +kernel) (by decide)
  have hrun : run = _ := perform_folder rfl rfl hpaths
  have hplace' : run.2.disk.folderPlace? "p" = some ["p"] := by
    rw [hrun]
    decide +kernel
  have hwalk' : Scan.walk run.2.disk ⟨[]⟩ "p" ["p"] = [] := by
    rw [hrun]
    decide +kernel
  have hpaths' : Scan.directory run.2.disk ⟨[]⟩ .standard "p" = .ok [] := Scan.directory_eq_nil hplace' hwalk'
  have hagain : again = _ := perform_folder rfl rfl hpaths'
  refine ⟨hplain, Scan.toLower_ne_of_mem_standard, rfl, ?_, ?_, ?_⟩
  · rw [hrun]
    decide +kernel
  · rw [hrun]
    decide +kernel
  · rw [hagain, ofSources_of_nil]
    rfl

end CodeOutline.Run
