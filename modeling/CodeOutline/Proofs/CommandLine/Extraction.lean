import CodeOutline.CommandLine.Command
import CodeOutline.Proofs.Outline.Json
import CodeOutline.Proofs.Run.Conversation
import CodeOutline.Proofs.Run.Dialog

/-! What a command prints that stops before any documentation: the outlines as JSON, and before them the
dialog, where the user is asked to choose. -/

namespace CodeOutline

def Outline.IsDocument (outlines : List Outline) (text : String) : Prop :=
  ∃ document, text = document ++ "\n" ∧ listOfString? document = some outlines

/-! ## The dialog is no JSON -/

def Selection.IsHeaded (text : String) : Prop := ∃ rest, text.toList = '\n' :: 'R' :: rest

namespace Selection

lemma IsHeaded.append {text : String} (h : IsHeaded text) (more : String) : IsHeaded (text ++ more) := by
  obtain ⟨rest, hrest⟩ := h
  exact ⟨rest ++ more.toList, by rw [String.toList_append, hrest, List.cons_append, List.cons_append]⟩

lemma isHeaded_question (files more : List String) : IsHeaded (unlines (question files ++ more)) := by
  obtain ⟨lines, hlines⟩ : ∃ lines, question files ++ more = "" :: "Repository Files:" :: lines := ⟨_, rfl⟩
  refine ⟨"epository Files:\n".toList ++ (unlines lines).toList, ?_⟩
  rw [hlines]
  simp [unlines]

lemma isHeaded_ask (files : List String) (input : List UInt8) : IsHeaded (ask files input).2 := by
  rw [ask]
  cases Text.Utf8.decodeStrict? (firstLine input) with
  | none =>
    have h := isHeaded_question files []
    rwa [List.append_nil] at h
  | some answer => exact isHeaded_question files _

lemma IsHeaded.ofString?_eq_none {text : String} (h : IsHeaded text) : Json.ofString? text = none := by
  obtain ⟨rest, hrest⟩ := h
  rw [Json.ofString?, hrest]
  rfl

end Selection

namespace CommandLine

/-- What is printed by a command that stops before any documentation. It is the outlines as JSON and nothing else where
the user is not asked to choose, and no JSON where he is. -/
structure Extracts (w : Surroundings) (o : Options) (config : Config) (report : Run.Report) (output : String) :
    Prop where
  config_eq : o.configFor w.disk w.env = .ok config
  report_eq : (Run.perform (w.setting config) (o.toRun config) none (.start w.disk)).1 = .ok report
  output_eq : output = String.join (Run.dialog (w.setting config) (o.toRun config) []) ++
    Outline.prettyList report.parsed ++ "\n"
  isDocument_iff : Outline.IsDocument report.parsed output ↔ Run.offered (w.setting config) (o.toRun config) [] = []
  unreadable : Run.offered (w.setting config) (o.toRun config) [] ≠ [] → Json.ofString? output = none

variable {w : Surroundings} {config : Config} {o : Options} {arguments : List String} {options : Run.Options}
  {output : String} {final : Run.State}

lemma transcript_quiet (s : Run.State) : transcript true s = String.join s.shown := by
  rw [transcript, Run.State.shown]
  induction s.notices.toList with
  | nil => rfl
  | cons notice rest ih =>
    cases notice with
    | event | asked => simpa [noticeText, List.filterMap_cons, Run.Notice.shown?] using ih
    | shown text => simpa [noticeText, List.filterMap_cons, Run.Notice.shown?] using ih

lemma extract_eq_ok (honly : options.extractOnly = true) (h : extract w config options = (.ok (), output, final)) :
    ∃ report, Run.perform (w.setting config) options none (.start w.disk) = (.ok report, final) ∧
      output = String.join (Run.dialog (w.setting config) options []) ++ Outline.prettyList report.parsed ++ "\n" := by
  cases hp : Run.perform (w.setting config) options none (.start w.disk) with
  | mk result after =>
    simp only [extract, hp] at h
    cases result with
    | error failure => cases h
    | ok report =>
      cases h
      have hshown := Run.shown_of_perform honly hp
      have hstart : (Run.State.start w.disk).shown = [] := rfl
      rw [hstart, List.nil_append] at hshown
      exact ⟨report, rfl, by rw [transcript_quiet, hshown]; rfl⟩

lemma not_isDocument_of_isHeaded {outlines : List Outline} (h : Selection.IsHeaded output) :
    ¬ Outline.IsDocument outlines output := by
  rintro ⟨document, rfl, hread⟩
  obtain ⟨rest, hrest⟩ := h
  have hheaded : Selection.IsHeaded document := by
    rw [String.toList_append] at hrest
    match hd : document.toList with
    | [] => rw [hd] at hrest; cases hrest
    | [a] => rw [hd] at hrest; cases hrest
    | a :: b :: more =>
      rw [hd] at hrest
      obtain ⟨rfl, htail⟩ := List.cons.inj hrest
      obtain ⟨rfl, _⟩ := List.cons.inj htail
      exact ⟨more, hd⟩
  rw [Outline.listOfString?, hheaded.ofString?_eq_none] at hread
  cases hread

lemma extracts_of_output {report : Run.Report} (hconfig : o.configFor w.disk w.env = .ok config)
    (hreport : (Run.perform (w.setting config) (o.toRun config) none (.start w.disk)).1 = .ok report)
    (houtput : output = String.join (Run.dialog (w.setting config) (o.toRun config) []) ++
      Outline.prettyList report.parsed ++ "\n") : Extracts w o config report output := by
  have hheaded : Run.offered (w.setting config) (o.toRun config) [] ≠ [] → Selection.IsHeaded output := by
    intro hoffered
    have hjoin : ∀ text, String.join [text] = text := fun text => by simp
    rw [houtput, Run.dialog, if_neg hoffered, hjoin]
    exact ((Selection.isHeaded_ask _ _).append _).append _
  refine ⟨hconfig, hreport, houtput, ⟨fun hdocument => ?_, fun hnone => ?_⟩, fun h => (hheaded h).ofString?_eq_none⟩
  · by_contra hoffered
    exact not_isDocument_of_isHeaded (hheaded hoffered) hdocument
  · rw [Run.dialog, if_pos hnone] at houtput
    exact ⟨_, by simpa using houtput, Outline.listOfString?_prettyList report.parsed⟩

theorem extracts_of_run (hread : Options.read arguments = .ok o) (honly : o.extractOnly = true)
    (hstatus : (run arguments w).status = 0) :
    ∃ config report, Extracts w o config report (run arguments w).output := by
  cases hconfig : o.configFor w.disk w.env with
  | error failure =>
    simp [run, hread, Options.perform, hconfig, Surroundings.untouched] at hstatus
  | ok config =>
    obtain ⟨⟨result, output, final⟩, hx⟩ : ∃ x, extract w config (o.toRun config) = x := ⟨_, rfl⟩
    have hperform : o.perform w = (result, output, final) := by
      rw [Options.perform, hconfig]
      simp only [honly, if_true, hx]
    cases result with
    | error failure => simp [run, hread, hperform] at hstatus
    | ok =>
      obtain ⟨report, hp, houtput⟩ := extract_eq_ok honly hx
      refine ⟨config, report, extracts_of_output hconfig (congrArg Prod.fst hp) ?_⟩
      simpa only [run, hread, hperform] using houtput

theorem extracts_of_run_without_dialog :
    let network := Http.Network.serving
      [("/repos/o/r/git/trees/main?recursive=1",
        "\x7b\"tree\":[\x7b\"path\":\"a.go\",\"type\":\"blob\"\x7d]\x7d"),
        ("/repos/o/r/contents/a.go?ref=main", "\x7b\"content\":\"ZnVuYyBmKCkgew==\"\x7d")]
    let w : Surroundings := ⟨⟨[], []⟩, ⟨[]⟩, network, []⟩
    let arguments := ["--github", "https://github.com/o/r", "--all", "--extract-only"]
    let o : Options := ⟨.repository "https://github.com/o/r", none, none, none, none, true, true, false⟩
    Options.read arguments = .ok o ∧ (run arguments w).status = 0 ∧
      ∃ config report, Extracts w o config report (run arguments w).output := by
  refine ⟨?read, ?status, extracts_of_run ?read rfl ?status⟩
  case read => decide +kernel
  case status => decide +kernel

/-- Without `--all` the question which files to take stands before the JSON. -/
theorem not_isDocument_of_dialog :
    let network := Http.Network.serving
      [("/repos/o/r/git/trees/main?recursive=1",
        "\x7b\"tree\":[\x7b\"path\":\"a.go\",\"type\":\"blob\"\x7d]\x7d"),
        ("/repos/o/r/contents/a.go?ref=main", "\x7b\"content\":\"ZnVuYyBmKCkgew==\"\x7d")]
    let w : Surroundings := ⟨⟨[], []⟩, ⟨[]⟩, network, "0\n".toUTF8.toList⟩
    let arguments := ["--github", "https://github.com/o/r", "--extract-only"]
    let parsed : List Outline := [⟨"a.go", [⟨.function, "f", 1⟩]⟩]
    (Options.read arguments).map (·.extractOnly) = .ok true ∧ (run arguments w).status = 0 ∧
      (run arguments w).output = (Selection.ask ["a.go"] w.input).2 ++ Outline.prettyList parsed ++ "\n" ∧
      ∀ outlines, ¬ Outline.IsDocument outlines (run arguments w).output := by
  intro network w arguments parsed
  have hending : ((run arguments w).status, (run arguments w).output) =
      (0, (Selection.ask ["a.go"] w.input).2 ++ Outline.prettyList parsed ++ "\n") := by
    decide +kernel
  obtain ⟨hstatus, houtput⟩ := Prod.mk.inj hending
  refine ⟨by decide +kernel, hstatus, houtput, fun outlines => not_isDocument_of_isHeaded ?_⟩
  rw [houtput]
  exact ((Selection.isHeaded_ask _ _).append _).append _

end CommandLine

end CodeOutline
