import CodeOutline.CommandLine.Command
import CodeOutline.Proofs.Run.Abort

/-! Commands that fail: they leave everything as it was. -/

namespace CodeOutline.CommandLine

variable {w : Surroundings} {config : Config} {o : Options} {options : Run.Options} {model : Model} {failure : Failure}
  {output : String} {final : Run.State}

lemma untouched_of_extract (h : extract w config options = (.error failure, output, final)) :
    Run.Untouched w.disk final := by
  cases hp : Run.perform (w.setting config) options none (.start w.disk) with
  | mk result after =>
    simp only [extract, hp] at h
    cases result with
    | ok report => cases h
    | error cause =>
      cases h
      exact Run.untouched_of_perform hp

lemma untouched_of_document (h : document w config options model = (.error failure, output, final)) :
    Run.Untouched w.disk final := by
  cases hp : Run.perform (w.setting config) options (some model) (.start w.disk) with
  | mk result after =>
    simp only [document, hp] at h
    cases result with
    | ok report => cases h
    | error cause =>
      cases h
      exact Run.untouched_of_perform hp

lemma Options.untouched_of_perform (h : o.perform w = (.error failure, output, final)) :
    Run.Untouched w.disk final := by
  unfold Options.perform at h
  split at h
  · cases h
    exact Run.untouched_start w.disk
  · split at h
    · exact untouched_of_extract h
    · split at h
      · cases h
        exact Run.untouched_start w.disk
      · exact untouched_of_document h

lemma untouched_of_run (arguments : List String) (h : (run arguments w).status ≠ 0) :
    Run.Untouched w.disk (run arguments w).final := by
  unfold run at h ⊢
  cases hread : Options.read arguments with
  | error halt => cases halt <;> exact Run.untouched_start w.disk
  | ok o =>
    cases hp : o.perform w with
    | mk result rest =>
      simp only [hread, hp] at h ⊢
      cases result with
      | ok => exact absurd rfl h
      | error failure => exact Options.untouched_of_perform hp

/-- All that can make a run or a command fail comes before the first question to the model and before the first change
of the disk: arguments, settings, a key, a provider, a model, the folder or the tree, the choice among its files. -/
theorem untouched_of_failure (setting : Run.Setting) (options : Run.Options) (model? : Option Model) (disk : Disk)
    (arguments : List String) (w : Surroundings) :
    (∀ failure, (Run.perform setting options model? (.start disk)).1 = .error failure →
        Run.Untouched disk (Run.perform setting options model? (.start disk)).2) ∧
      ((run arguments w).status ≠ 0 → Run.Untouched w.disk (run arguments w).final) ∧
      ∀ failure, (Run.perform setting options model? (.start disk)).1 = .error failure ↔
        Run.modelInUse options model? = .error failure ∨
          (∃ used, Run.modelInUse options model? = .ok used) ∧
            (Run.Sources.ofOrigin setting options.selectAll options.origin (.start disk)).1 = .error failure :=
  ⟨fun _ h => Run.untouched_of_perform (Prod.ext h rfl), untouched_of_run arguments, fun _ => Run.perform_eq_error_iff⟩

/-- A service that refuses the tree ends a command with the request for it as the only one. -/
theorem untouched_of_refused_tree :
    let network : Http.Network := fun _ _ => .answered ⟨500, []⟩
    let w : Surroundings := ⟨⟨[], []⟩, ⟨[("DOCUGEN_LLM_API_KEY", "k")]⟩, network, []⟩
    let setting := w.setting Config.standard
    let options : Run.Options := ⟨.repository "https://github.com/o/r", "docs", true, false⟩
    let model := Model.ofFunction fun _ => .ok "A."
    let failed := Run.perform setting options (some model) (.start w.disk)
    let ending := run ["--github", "https://github.com/o/r", "--all"] w
    failed.1 = .error (.repository (.status 500 "")) ∧ Run.Untouched w.disk failed.2 ∧
      ending.status = 1 ∧ ending.final.past.length = 1 ∧ Run.Untouched w.disk ending.final := by
  refine ⟨?failed, (untouched_of_failure _ _ _ _ [] ⟨⟨[], []⟩, ⟨[]⟩, .offline, []⟩).1 _ ?failed, ?status, ?past, ?run⟩
  case failed => decide +kernel
  case status => decide +kernel
  case past => decide +kernel
  case run =>
    refine (untouched_of_failure (Run.Setting.ofConfig .standard ⟨[]⟩ .offline []) ⟨.folder "", "", true, true⟩ none
      ⟨[], []⟩ _ _).2.1 ?_
    decide +kernel

end CodeOutline.CommandLine
