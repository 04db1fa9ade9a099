import CodeOutline.Config.Load
import Mathlib.Data.List.Basic

/-! A configuration as layers of settings, each of which may be silent about a field. A layer wins over those below it,
and what no layer speaks of has its standard value. -/

namespace CodeOutline.Config

def stated {α : Type} (section? : Option Toml.Value) (name : String) (position : Nat) (read : Toml.Value → Option α) :
    Option α :=
  (field? section? name position).join.bind read

lemma eq_of_given {α : Type} {section? : Option Toml.Value} {name : String} {position : Nat}
    {read : Toml.Value → Option α} {standard a : α} (h : given section? name position read standard = some a) :
    (stated section? name position read).getD standard = a := by
  obtain ⟨field, hfield, hread⟩ := Option.bind_eq_some_iff.mp h
  cases field with
  | none => simpa [stated, hfield] using hread
  | some v =>
    have hv : read v = some a := hread
    simp [stated, hfield, hv]

lemma eq_of_givenText {section? : Option Toml.Value} {name : String} {position : Nat} {standard a : Option String}
    (h : givenText section? name position standard = some a) :
    (stated section? name position text? <|> standard) = a := by
  have hgiven := eq_of_given h
  rw [← hgiven, stated, stated]
  cases (field? section? name position).join with
  | none => rfl
  | some v => cases hv : text? v <;> simp [hv]

lemma getD_orElse {α : Type} (upper lower : Option α) (a : α) :
    (upper <|> lower).getD a = upper.getD (lower.getD a) := by
  cases upper <;> rfl

lemma orElse_assoc {α : Type} (a b c : Option α) : ((a <|> b) <|> c) = (a <|> (b <|> c)) := by
  cases a <;> rfl

/-- A number of tokens that cannot be read is not stated. -/
def tokens? (env : Environment) : Option Nat :=
  (env.get? "DOCUGEN_LLM_MAX_TOKENS").bind fun s => Text.unsigned? tokenLimit s.toList

structure Layer where
  includeExtensions : Option (List String)
  excludeFolders : Option (List String)
  maxFileSize : Option Nat
  provider : Option String
  model : Option String
  baseUrl : Option String
  apiKey : Option String
  maxTokens : Option Nat
  apiVersion : Option String
  apiUrl : Option String
  branch : Option String
  token : Option String
  folder : Option String
deriving DecidableEq

namespace Layer

def silent : Layer := ⟨none, none, none, none, none, none, none, none, none, none, none, none, none⟩

def atop (upper lower : Layer) : Layer where
  includeExtensions := upper.includeExtensions <|> lower.includeExtensions
  excludeFolders := upper.excludeFolders <|> lower.excludeFolders
  maxFileSize := upper.maxFileSize <|> lower.maxFileSize
  provider := upper.provider <|> lower.provider
  model := upper.model <|> lower.model
  baseUrl := upper.baseUrl <|> lower.baseUrl
  apiKey := upper.apiKey <|> lower.apiKey
  maxTokens := upper.maxTokens <|> lower.maxTokens
  apiVersion := upper.apiVersion <|> lower.apiVersion
  apiUrl := upper.apiUrl <|> lower.apiUrl
  branch := upper.branch <|> lower.branch
  token := upper.token <|> lower.token
  folder := upper.folder <|> lower.folder

/-- The configuration of a layer that lies on the standard values. -/
def settle (l : Layer) : Config where
  scan := {
    includeExtensions := l.includeExtensions.getD Scan.standard.includeExtensions
    excludeFolders := l.excludeFolders.getD Scan.standard.excludeFolders
    maxFileSize := l.maxFileSize.getD Scan.standard.maxFileSize }
  model := {
    provider := l.provider.getD Model.standard.provider
    model := l.model <|> Model.standard.model
    baseUrl := l.baseUrl <|> Model.standard.baseUrl
    apiKey := l.apiKey <|> Model.standard.apiKey
    maxTokens := l.maxTokens.getD Model.standard.maxTokens
    apiVersion := l.apiVersion <|> Model.standard.apiVersion }
  repository := {
    apiUrl := l.apiUrl.getD Repository.standard.apiUrl
    branch := l.branch.getD Repository.standard.branch
    token := l.token <|> Repository.standard.token }
  output := ⟨l.folder.getD Output.standard.folder⟩

def ofEnvironment (env : Environment) : Layer := { silent with
  provider := env.get? "DOCUGEN_LLM_PROVIDER"
  model := env.get? "DOCUGEN_LLM_MODEL"
  baseUrl := env.get? "DOCUGEN_LLM_BASE_URL"
  apiKey := env.get? "DOCUGEN_LLM_API_KEY"
  maxTokens := tokens? env
  branch := env.get? "DOCUGEN_GITHUB_BRANCH"
  token := env.get? "GITHUB_TOKEN"
  folder := env.get? "DOCUGEN_OUTPUT_DIR" }

def ofSections (entries : List (String × Toml.Value)) : Layer :=
  let sectionOf (name : String) : Option Toml.Value := (entries.find? (·.1 == name)).map (·.2)
  { includeExtensions := stated (sectionOf "scan") "include_extensions" 0 texts?
    excludeFolders := stated (sectionOf "scan") "exclude_dirs" 1 texts?
    maxFileSize := stated (sectionOf "scan") "max_file_size" 2 (unsigned? UInt64.size)
    provider := stated (sectionOf "llm") "provider" 0 text?
    model := stated (sectionOf "llm") "model" 1 text?
    baseUrl := stated (sectionOf "llm") "base_url" 2 text?
    apiKey := stated (sectionOf "llm") "api_key" 3 text?
    maxTokens := stated (sectionOf "llm") "max_tokens" 4 (unsigned? UInt32.size)
    apiVersion := stated (sectionOf "llm") "api_version" 5 text?
    apiUrl := stated (sectionOf "github") "api_url" 0 text?
    branch := stated (sectionOf "github") "branch" 1 text?
    token := stated (sectionOf "github") "token" 2 text?
    folder := stated (sectionOf "output") "dir" 0 text? }

lemma settle_silent : silent.settle = standard := rfl

lemma applyEnvironment_settle (env : Environment) (l : Layer) :
    applyEnvironment env l.settle = ((ofEnvironment env).atop l).settle := by
  simp only [applyEnvironment, override, overrideSome, overrideTokens, settle, atop, ofEnvironment, tokens?, getD_orElse,
    orElse_assoc]
  rfl

variable {section? : Option Toml.Value} {entries : List (String × Toml.Value)}

lemma eq_of_readScan {scan : Scan} (h : readScan section? = some scan) :
    { includeExtensions := (stated section? "include_extensions" 0 texts?).getD Scan.standard.includeExtensions
      excludeFolders := (stated section? "exclude_dirs" 1 texts?).getD Scan.standard.excludeFolders
      maxFileSize := (stated section? "max_file_size" 2 (unsigned? UInt64.size)).getD Scan.standard.maxFileSize } =
      scan := by
  obtain ⟨extensions, hextensions, h⟩ := Option.bind_eq_some_iff.mp h
  obtain ⟨folders, hfolders, h⟩ := Option.bind_eq_some_iff.mp h
  obtain ⟨size, hsize, h⟩ := Option.bind_eq_some_iff.mp h
  rw [eq_of_given hextensions, eq_of_given hfolders, eq_of_given hsize]
  exact Option.some.inj h

lemma eq_of_readModel {model : Model} (h : readModel section? = some model) :
    { provider := (stated section? "provider" 0 text?).getD Model.standard.provider
      model := stated section? "model" 1 text? <|> none
      baseUrl := stated section? "base_url" 2 text? <|> none
      apiKey := stated section? "api_key" 3 text? <|> none
      maxTokens := (stated section? "max_tokens" 4 (unsigned? UInt32.size)).getD Model.standard.maxTokens
      apiVersion := stated section? "api_version" 5 text? <|> Model.standard.apiVersion } = model := by
  obtain ⟨provider, hprovider, h⟩ := Option.bind_eq_some_iff.mp h
  obtain ⟨name, hname, h⟩ := Option.bind_eq_some_iff.mp h
  obtain ⟨baseUrl, hbaseUrl, h⟩ := Option.bind_eq_some_iff.mp h
  obtain ⟨apiKey, hapiKey, h⟩ := Option.bind_eq_some_iff.mp h
  obtain ⟨maxTokens, hmaxTokens, h⟩ := Option.bind_eq_some_iff.mp h
  obtain ⟨apiVersion, hapiVersion, h⟩ := Option.bind_eq_some_iff.mp h
  rw [eq_of_given hprovider, eq_of_givenText hname, eq_of_givenText hbaseUrl, eq_of_givenText hapiKey,
    eq_of_given hmaxTokens, eq_of_givenText hapiVersion]
  exact Option.some.inj h

lemma eq_of_readRepository {repository : Repository} (h : readRepository section? = some repository) :
    { apiUrl := (stated section? "api_url" 0 text?).getD Repository.standard.apiUrl
      branch := (stated section? "branch" 1 text?).getD Repository.standard.branch
      token := stated section? "token" 2 text? <|> none } = repository := by
  obtain ⟨apiUrl, hapiUrl, h⟩ := Option.bind_eq_some_iff.mp h
  obtain ⟨branch, hbranch, h⟩ := Option.bind_eq_some_iff.mp h
  obtain ⟨token, htoken, h⟩ := Option.bind_eq_some_iff.mp h
  rw [eq_of_given hapiUrl, eq_of_given hbranch, eq_of_givenText htoken]
  exact Option.some.inj h

lemma eq_of_readOutput {output : Output} (h : readOutput section? = some output) :
    ⟨(stated section? "dir" 0 text?).getD Output.standard.folder⟩ = output := by
  obtain ⟨folder, hfolder, h⟩ := Option.bind_eq_some_iff.mp h
  rw [eq_of_given hfolder]
  exact Option.some.inj h

lemma settle_ofSections {config : Config} (h : readSections entries = some config) :
    (ofSections entries).settle = config := by
  obtain ⟨scan, hscan, h⟩ := Option.bind_eq_some_iff.mp h
  obtain ⟨model, hmodel, h⟩ := Option.bind_eq_some_iff.mp h
  obtain ⟨repository, hrepository, h⟩ := Option.bind_eq_some_iff.mp h
  obtain ⟨output, houtput, h⟩ := Option.bind_eq_some_iff.mp h
  rw [← Option.some.inj h, ← eq_of_readScan hscan, ← eq_of_readModel hmodel, ← eq_of_readRepository hrepository,
    ← eq_of_readOutput houtput]
  rfl

/-- What the text of a file states, if it is that of a configuration without defects. -/
def ofToml (text : String) : Except Failure Layer :=
  match Toml.read? text with
  | none => .error .malformed
  | some entries =>
    match (readSections entries).map defect? with
    | none => .error .malformed
    | some (some defect) => .error (.defective defect)
    | some none => .ok (ofSections entries)

/-- What the file at a path states. Where there is no file nothing is stated. -/
def ofSource (d : Disk) : Option String → Except Failure Layer
  | none => .ok silent
  | some path =>
    match readText d path with
    | .error cause => .error (.unreadable cause)
    | .ok text => ofToml text

lemma map_settle_ofToml (text : String) : (ofToml text).map settle = Config.ofToml text := by
  rw [ofToml, Config.ofToml]
  cases Toml.read? text with
  | none => rfl
  | some entries =>
    simp only [Option.bind_some]
    cases h : readSections entries with
    | none => rfl
    | some config =>
      simp only [Option.map_some]
      cases config.defect? with
      | some defect => rfl
      | none => exact congrArg Except.ok (settle_ofSections h)

end Layer

def fromSource (d : Disk) (env : Environment) (source : Option String) : Except Failure Config :=
  (Layer.ofSource d source).map fun file => ((Layer.ofEnvironment env).atop file).settle

lemma ofFile_eq (d : Disk) (env : Environment) (path : String) : ofFile d env path = fromSource d env (some path) := by
  rw [ofFile, fromSource, Layer.ofSource]
  cases readText d path with
  | error cause => rfl
  | ok text =>
    simp only [← Layer.map_settle_ofToml]
    cases Layer.ofToml text with
    | error failure => rfl
    | ok file => exact congrArg Except.ok (Layer.applyEnvironment_settle env file)

lemma load_eq (d : Disk) (env : Environment) : load d env = fromSource d env (chosenFile? d env) := by
  rw [load]
  cases chosenFile? d env with
  | some path => exact ofFile_eq d env path
  | none =>
    rw [← Layer.settle_silent]
    exact congrArg Except.ok (Layer.applyEnvironment_settle env .silent)

end CodeOutline.Config
