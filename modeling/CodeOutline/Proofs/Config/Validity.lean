import CodeOutline.Proofs.Config.Layers

/-! Which loaded configurations are valid. A file's settings are checked, and the number of tokens from the environment
is laid over them afterwards. -/

namespace CodeOutline.Config

variable {d : Disk} {env : Environment} {path text : String} {source : Option String} {file : Layer} {config : Config}

lemma isValid_of_ofToml (h : ofToml text = .ok config) : config.isValid = true := by
  rw [ofToml] at h
  cases hread : (Toml.read? text).bind readSections with
  | none =>
    rw [hread] at h
    cases h
  | some read =>
    simp only [hread] at h
    cases hdefect : read.defect? with
    | some defect =>
      simp only [hdefect] at h
      cases h
    | none =>
      simp only [hdefect] at h
      cases h
      rw [isValid, hdefect]
      rfl

lemma Layer.isValid_settle (h : ofSource d source = .ok file) : file.settle.isValid = true := by
  cases source with
  | none =>
    cases h
    decide
  | some path =>
    rw [ofSource] at h
    cases hread : readText d path with
    | error cause =>
      rw [hread] at h
      cases h
    | ok text =>
      simp only [hread] at h
      have hsettled : Config.ofToml text = .ok file.settle := by
        rw [← map_settle_ofToml, h]
        rfl
      exact isValid_of_ofToml hsettled

lemma isValid_atop (hvalid : file.settle.isValid = true) :
    ((Layer.ofEnvironment env).atop file).settle.isValid = true ↔ tokens? env ≠ some 0 := by
  obtain ⟨hextensions, htokens⟩ := (isValid_iff _).mp hvalid
  have htokensAtop : ((Layer.ofEnvironment env).atop file).settle.model.maxTokens =
      (tokens? env).getD file.settle.model.maxTokens := getD_orElse ..
  rw [isValid_iff, htokensAtop]
  cases tokens? env with
  | none => exact ⟨fun _ => nofun, fun _ => ⟨hextensions, htokens⟩⟩
  | some n =>
    have hpos : 0 < n ↔ some n ≠ some 0 := by simp [Nat.pos_iff_ne_zero]
    rw [Option.getD_some, hpos]
    exact and_iff_right hextensions

/-- The one defect of a loaded configuration is a number of tokens of zero, and only the environment can bring it in. -/
theorem isValid_iff_of_loaded (h : ofFile d env path = .ok config ∨ load d env = .ok config) :
    config.scan.includeExtensions ≠ [] ∧ (config.isValid = true ↔ tokens? env ≠ some 0) := by
  obtain ⟨source, hsource⟩ : ∃ source, fromSource d env source = .ok config := by
    obtain h | h := h
    · exact ⟨some path, ofFile_eq d env path ▸ h⟩
    · exact ⟨chosenFile? d env, load_eq d env ▸ h⟩
  cases hfile : Layer.ofSource d source with
  | error failure =>
    rw [fromSource, hfile] at hsource
    cases hsource
  | ok file =>
    rw [fromSource, hfile] at hsource
    cases hsource
    have hvalid := Layer.isValid_settle hfile
    exact ⟨((isValid_iff _).mp hvalid).1, isValid_atop hvalid⟩

theorem isValid_iff_of_loaded_project_file :
    let d : Disk := ⟨[(["docugen.toml"], .file "[llm]\nmax_tokens = 7\n".toUTF8.toList)], []⟩
    let env : Environment := ⟨[("DOCUGEN_LLM_MAX_TOKENS", "+9")]⟩
    let config : Config := { Config.standard with model := { Model.standard with maxTokens := 9 } }
    load d env = .ok config ∧ config.scan.includeExtensions ≠ [] ∧ (config.isValid = true ↔ tokens? env ≠ some 0) := by
  intro d env config
  have hload : load d env = .ok config := by decide +kernel
  exact ⟨hload, @isValid_iff_of_loaded d env "docugen.toml" config (.inr hload)⟩

theorem not_isValid_of_zero_tokens :
    let d : Disk := ⟨[(["a.toml"], .file []), (["b.toml"], .file "[llm]\nmax_tokens = 0\n".toUTF8.toList)], []⟩
    let env : Environment := ⟨[("DOCUGEN_LLM_MAX_TOKENS", "0")]⟩
    ofFile d env "b.toml" = .error (.defective .noTokens) ∧
      (ofFile d env "a.toml").map isValid = .ok false ∧ (load d env).map isValid = .ok false := by
  decide +kernel

end CodeOutline.Config
