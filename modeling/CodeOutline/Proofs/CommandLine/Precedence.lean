import CodeOutline.CommandLine.Command
import CodeOutline.Proofs.Config.Layers
import CodeOutline.Proofs.Model.Keys

/-! Which settings a command works with: the flags lie on the environment, the environment on one source, and the
source on the standard values. -/

namespace CodeOutline.CommandLine

open Model

variable {config : Config} {o : Options} {d : Disk} {env : Environment} {source : Option String} {own : String}

namespace Options

/-- Where the settings below the environment come from: the file at a path, or no file at all. -/
inductive Uses (o : Options) (d : Disk) (env : Environment) : Option String → Prop where
  | named {path : String} (h : o.config = some path) : Uses o d env (some path)
  | project (hnamed : o.config = none) (h : d.exists? Config.projectFile = true) :
      Uses o d env (some Config.projectFile)
  | user {path : String} (hnamed : o.config = none) (hproject : d.exists? Config.projectFile = false)
      (hpath : Config.userFile? env = some path) (h : d.exists? path = true) : Uses o d env (some path)
  | standard (hnamed : o.config = none) (hproject : d.exists? Config.projectFile = false)
      (huser : ∀ path, Config.userFile? env = some path → d.exists? path = false) : Uses o d env none

lemma uses_iff : o.Uses d env source ↔ source = (o.config <|> Config.chosenFile? d env) := by
  constructor
  · intro h
    cases h with
    | named h =>
      rw [h]
      rfl
    | project hnamed h =>
      rw [hnamed, Config.chosenFile?, if_pos h]
      rfl
    | @user path hnamed hproject hpath h =>
      have hchosen : (some path).filter d.exists? = some path := Option.filter_eq_some_iff.mpr ⟨rfl, h⟩
      rw [hnamed, Config.chosenFile?, hproject, hpath, hchosen]
      rfl
    | standard hnamed hproject huser =>
      have hchosen : (Config.userFile? env).filter d.exists? = none := by
        simpa [Option.filter_eq_none_iff] using huser
      rw [hnamed, Config.chosenFile?, hproject, hchosen]
      rfl
  · rintro rfl
    cases hnamed : o.config with
    | some path => exact .named hnamed
    | none =>
      have hchosen : (none <|> Config.chosenFile? d env) = Config.chosenFile? d env := rfl
      rw [hchosen, Config.chosenFile?]
      cases hproject : d.exists? Config.projectFile with
      | true => exact .project hnamed hproject
      | false =>
        cases hfile : (Config.userFile? env).filter d.exists? with
        | none => exact .standard hnamed hproject fun path hpath => by simpa [hpath] using hfile
        | some path =>
          obtain ⟨hpath, h⟩ := Option.filter_eq_some_iff.mp hfile
          exact .user hnamed hproject hpath h

def layer (o : Options) : Config.Layer := { Config.Layer.silent with
  apiKey := o.apiKey
  branch := o.branch
  folder := o.output }

lemma amend_settle (o : Options) (l : Config.Layer) : o.amend l.settle = (o.layer.atop l).settle := by
  simp only [amend, Config.Layer.settle, Config.Layer.atop, layer, Config.getD_orElse,
    Config.orElse_assoc]
  rfl

lemma configFor_eq (o : Options) (d : Disk) (env : Environment) :
    o.configFor d env = (Config.Layer.ofSource d (o.config <|> Config.chosenFile? d env)).map fun file =>
      (o.layer.atop ((Config.Layer.ofEnvironment env).atop file)).settle := by
  have hamend (source : Option String) : (Config.fromSource d env source).map o.amend =
      (Config.Layer.ofSource d source).map fun file =>
        (o.layer.atop ((Config.Layer.ofEnvironment env).atop file)).settle := by
    rw [Config.fromSource]
    cases Config.Layer.ofSource d source with
    | error failure => rfl
    | ok file => exact congrArg Except.ok (o.amend_settle _)
  rw [configFor]
  cases o.config with
  | some path =>
    simp only [Config.ofFile_eq]
    exact hamend (some path)
  | none =>
    simp only [Config.load_eq]
    exact hamend (Config.chosenFile? d env)

def key? (o : Options) (env : Environment) (file : Config.Layer) (own : String) : Option String :=
  o.apiKey <|> env.get? "DOCUGEN_LLM_API_KEY" <|> file.apiKey <|> env.get? own

lemma apiKeyOrEnv_eq {file : Config.Layer}
    (hconfig : config = (o.layer.atop ((Config.Layer.ofEnvironment env).atop file)).settle)
    (h : Provider.ownVariable? config.model.provider = some own) :
    config.model.apiKeyOrEnv env = o.key? env file own := by
  have hkey : config.model.apiKey = (o.apiKey <|> (env.get? "DOCUGEN_LLM_API_KEY" <|> file.apiKey) <|> none) := by
    rw [hconfig, ← Config.orElse_assoc]
    rfl
  rw [Config.Model.apiKeyOrEnv, Provider.byProvider_of_ownVariable? h, hkey, key?]
  cases o.apiKey with
  | some key => rfl
  | none =>
    cases env.get? "DOCUGEN_LLM_API_KEY" with
    | some key => rfl
    | none => cases file.apiKey <;> rfl

end Options

lemma modelFor_of_missing {config : Config.Model} (h : Provider.ownVariable? config.provider = some own)
    (hkey : config.apiKeyOrEnv env = none) : modelFor config env = .error (.missingKey config.provider) := by
  have hkeyless : config.isKeyless = false := beq_eq_false_iff_ne.mpr (Provider.ne_ollama_of_ownVariable? h)
  rw [modelFor, hkey, hkeyless]
  rfl

lemma modelFor_of_key {config : Config.Model} {key : String} (h : Provider.ownVariable? config.provider = some own)
    (hkey : config.apiKeyOrEnv env = some key) :
    ∃ client : Provider.Client, modelFor config env = .ok client.toModel ∧ client.apiKey = key := by
  obtain ⟨client, hclient, hapiKey⟩ := Provider.client_of_ownVariable? h hkey
  refine ⟨client, ?_, hapiKey⟩
  rw [modelFor, hkey, hclient]
  rfl

/-- The settings over what a file states. No variable reaches the scan, the `api_url` and the `api_version`; a vendor's
own one is the last place to look for his key. -/
structure Settled (o : Options) (env : Environment) (file : Config.Layer) (config : Config) : Prop where
  config_eq : config = (o.layer.atop ((Config.Layer.ofEnvironment env).atop file)).settle
  scan_eq : config.scan = file.settle.scan
  apiUrl_eq : config.repository.apiUrl = file.settle.repository.apiUrl
  apiVersion_eq : config.model.apiVersion = file.settle.model.apiVersion
  missing : ∀ own, Provider.ownVariable? config.model.provider = some own → o.key? env file own = none →
    modelFor config.model env = .error (.missingKey config.model.provider)
  used : ∀ own key, Provider.ownVariable? config.model.provider = some own → o.key? env file own = some key →
    ∃ client : Provider.Client, modelFor config.model env = .ok client.toModel ∧ client.apiKey = key

lemma settled (o : Options) (env : Environment) (file : Config.Layer) :
    Settled o env file (o.layer.atop ((Config.Layer.ofEnvironment env).atop file)).settle where
  config_eq := rfl
  scan_eq := rfl
  apiUrl_eq := rfl
  apiVersion_eq := rfl
  missing _ h hkey := modelFor_of_missing h ((Options.apiKeyOrEnv_eq rfl h).trans hkey)
  used _ _ h hkey := modelFor_of_key h ((Options.apiKeyOrEnv_eq rfl h).trans hkey)

/-- There is one source, and if it cannot be read no other is tried. -/
theorem settled_by_precedence (o : Options) (d : Disk) (env : Environment) :
    ∃ source, (∀ other, o.Uses d env other ↔ other = source) ∧
      (∀ failure, o.configFor d env = .error failure ↔ Config.Layer.ofSource d source = .error failure) ∧
      ∀ config, o.configFor d env = .ok config ↔
        ∃ file, Config.Layer.ofSource d source = .ok file ∧ Settled o env file config := by
  refine ⟨o.config <|> Config.chosenFile? d env, fun _ => Options.uses_iff, ?_⟩
  rw [Options.configFor_eq]
  cases Config.Layer.ofSource d (o.config <|> Config.chosenFile? d env) with
  | error failure => exact ⟨fun _ => by simp [Except.map], fun config => by simp [Except.map]⟩
  | ok file =>
    refine ⟨fun failure => by simp [Except.map], fun config => ⟨fun h => ?_, ?_⟩⟩
    · cases h
      exact ⟨file, rfl, settled o env file⟩
    · rintro ⟨_, hfile, h⟩
      cases hfile
      exact congrArg Except.ok h.config_eq.symm

theorem settled_by_flag_variable_and_file :
    let o : Options := ⟨.folder "p", none, none, some "flag", none, false, true, false⟩
    let text := "[llm]\nprovider = 'openai'\nmodel = 'm'\nmax_tokens = 7\n[github]\nbranch = 'b'\ntoken = 't'\n"
    let d : Disk := ⟨[(["docugen.toml"], .file text.toUTF8.toList)], []⟩
    let env : Environment := ⟨[("DOCUGEN_LLM_MODEL", "variable"), ("DOCUGEN_LLM_MAX_TOKENS", "many"),
      ("DOCUGEN_GITHUB_BRANCH", "variable"), ("OPENAI_API_KEY", "key")]⟩
    let config : Config :=
      ⟨.standard, { Config.Model.standard with provider := "openai", model := some "variable", maxTokens := 7 },
        { Config.Repository.standard with branch := "flag", token := some "t" }, .standard⟩
    o.configFor d env = .ok config ∧ ∃ file, Settled o env file config := by
  intro o text d env config
  have hconfig : o.configFor d env = .ok config := by decide +kernel
  obtain ⟨source, -, -, hok⟩ := settled_by_precedence o d env
  obtain ⟨file, -, h⟩ := (hok config).mp hconfig
  exact ⟨hconfig, file, h⟩

end CodeOutline.CommandLine
