import CodeOutline.CommandLine.Command
import CodeOutline.Proofs.Model.Keys
import CodeOutline.Proofs.Text.Lowercase

/-! What changes with the case of the letters in a provider's name. The provider is chosen by the name in lower case,
while the values that stand in for missing ones, and the need for a key, go by the name as it is written. -/

namespace CodeOutline

namespace Config.Model

/-- The names that have values of their own to stand in for missing ones. -/
def ownNames : List String := ["anthropic", "claude", "ollama"]

variable {config : Model} {env : Environment}

lemma toLower_of_mem_ownNames {name : String} (h : name ∈ ownNames) : name.toLower = name := by
  have hall : ∀ name ∈ ownNames, name.toList.map Char.toLower = name.toList := by decide
  apply String.toList_inj.mp
  rw [Text.toList_toLower, hall name h]

lemma byProvider_of_notMem {α : Type} (h : config.provider ∉ ownNames) (anthropic ollama other : α) :
    config.byProvider anthropic ollama other = other := by
  simp only [ownNames, List.mem_cons, List.not_mem_nil, or_false, not_or] at h
  rw [byProvider, if_neg (not_or.mpr ⟨h.1, h.2.1⟩), if_neg h.2.2]

lemma isKeyless_of_notMem (h : config.provider ∉ ownNames) : config.isKeyless = false := by
  simp only [ownNames, List.mem_cons, List.not_mem_nil, or_false, not_or] at h
  exact beq_eq_false_iff_ne.mpr h.2.2

/-- The provider's name is no other spelling of one of these. -/
def IsWritten (config : Model) : Prop := Text.lower config.provider ∈ ownNames → config.provider ∈ ownNames

lemma lower_of_mem_ownNames {name : String} (h : name ∈ ownNames) : Text.lower name = name := by
  have hall : ∀ name ∈ ownNames, Text.lower name = name := by decide
  exact hall name h

lemma IsWritten.lower_eq (h : config.IsWritten) (hlower : Text.lower config.provider ∈ ownNames) :
    Text.lower config.provider = config.provider :=
  lower_of_mem_ownNames (h hlower)

end Config.Model

namespace Model.Provider

def withoutKey : Provider → Provider
  | anthropic _ model baseUrl maxTokens => anthropic none model baseUrl maxTokens
  | openAI baseUrl _ model maxTokens => openAI baseUrl none model maxTokens
  | ollama baseUrl model maxTokens => ollama baseUrl model maxTokens

def ask (config : Config.Model) (env : Environment) (system : Option String) (prompt : String) :
    Http.Online (Except Failure String) :=
  match (ofConfig config env).bind (·.client env) with
  | .ok client => client.toModel.complete system prompt
  | .error failure => pure (.error failure)

variable {config : Config.Model} {env : Environment} {name : String}

lemma map_withoutKey_ofConfig (h : name.toLower = config.provider.toLower) :
    (ofConfig { config with provider := name } env).map withoutKey = (ofConfig config env).map withoutKey := by
  have hlower : Text.lower name = Text.lower config.provider := Text.lower_eq_of_toLower_eq h
  simp only [ofConfig, hlower]
  split_ifs <;> rfl

def Client.model : Client → String
  | anthropic client => client.model
  | chat client => client.model

def modelName : Provider → String
  | anthropic _ model _ _ => model.getD Config.anthropicModel
  | openAI _ _ model _ => model.getD Config.openAIModel
  | ollama _ model _ => model

def key? : Provider → Option String
  | anthropic key _ _ _ => key
  | openAI _ key _ _ => key
  | ollama _ _ _ => none

def vendorVariable? : Provider → Option String
  | anthropic _ _ _ _ => some "ANTHROPIC_API_KEY"
  | openAI _ _ _ _ => some "OPENAI_API_KEY"
  | ollama _ _ _ => none

def vendorKey? (provider : Provider) (config : Config.Model) (env : Environment) : Option String :=
  provider.vendorVariable?.bind fun own => config.apiKey <|> env.get? "DOCUGEN_LLM_API_KEY" <|> env.get? own

/-- The model is the one that is shown to the user, and no vendor is sent the key from another one's variable. -/
structure Honest (env : Environment) (config : Config.Model) (provider : Provider) (client : Client) : Prop where
  model_eq : client.model = config.modelOrDefault
  apiKey_eq : client.apiKey = (provider.vendorKey? config env).getD ""

variable {provider : Provider} {client : Client}

lemma model_and_apiKey_of_client (h : provider.client env = .ok client) :
    client.model = provider.modelName ∧ client.apiKey = provider.key?.getD "" := by
  cases provider with
  | anthropic key model baseUrl maxTokens =>
    cases key with
    | none => cases h
    | some key =>
      cases h
      exact ⟨rfl, rfl⟩
  | openAI baseUrl key model maxTokens =>
    cases key with
    | none => cases h
    | some key =>
      cases h
      exact ⟨rfl, rfl⟩
  | ollama baseUrl model maxTokens =>
    cases h
    exact ⟨rfl, rfl⟩

lemma names_of_isWritten (hwritten : config.IsWritten) (h : ofConfig config env = .ok provider) :
    provider.modelName = config.modelOrDefault ∧ provider.key? = provider.vendorKey? config env := by
  rw [ofConfig] at h
  split_ifs at h with hanthropic hopenAI hollama
  · have hname : config.provider = "anthropic" ∨ config.provider = "claude" := by
      rwa [hwritten.lower_eq (by simpa [Config.Model.ownNames] using hanthropic.imp_right .inl)] at hanthropic
    have hown {α : Type} (a b c : α) : config.byProvider a b c = a := if_pos hname
    cases h
    constructor
    · rw [Config.Model.modelOrDefault, hown, modelName]
    · rw [key?, Config.Model.apiKeyOrEnv, hown]
      rfl
  · have hname : config.provider ∉ Config.Model.ownNames := by
      intro hmem
      rw [← Config.Model.lower_of_mem_ownNames hmem, hopenAI] at hmem
      revert hmem
      decide
    cases h
    constructor
    · rw [Config.Model.modelOrDefault, Config.Model.byProvider_of_notMem hname, modelName]
    · rw [key?, Config.Model.apiKeyOrEnv, Config.Model.byProvider_of_notMem hname]
      rfl
  · have hname : config.provider = "ollama" := by
      rwa [hwritten.lower_eq (by rw [hollama]; decide)] at hollama
    cases h
    constructor
    · rw [Config.Model.modelOrDefault, Config.Model.byProvider, hname]
      rfl
    · rfl

lemma honest_of_isWritten (hwritten : config.IsWritten) (h : ofConfig config env = .ok provider)
    (hclient : provider.client env = .ok client) : Honest env config provider client := by
  obtain ⟨hmodel, hkey⟩ := names_of_isWritten hwritten h
  obtain ⟨hclientModel, hclientKey⟩ := model_and_apiKey_of_client hclient
  exact ⟨hclientModel.trans hmodel, hkey ▸ hclientKey⟩

end Model.Provider

namespace CommandLine

open Model
open Config.Model (ownNames modelOrDefault baseUrlOrDefault apiKeyOrEnv byProvider_of_notMem isKeyless_of_notMem
  toLower_of_mem_ownNames)

structure Alike (env : Environment) (config other : Config.Model) : Prop where
  isKeyless_eq : config.isKeyless = other.isKeyless
  modelOrDefault_eq : config.modelOrDefault = other.modelOrDefault
  baseUrlOrDefault_eq : config.baseUrlOrDefault = other.baseUrlOrDefault
  apiKeyOrEnv_eq : config.apiKeyOrEnv env = other.apiKeyOrEnv env
  missingKey_iff : modelFor config env = .error (.missingKey config.provider) ↔
    modelFor other env = .error (.missingKey other.provider)
  ask_eq : Provider.ask config env = Provider.ask other env

/-- The key is found in the configuration or in the program's own variable, or the vendors' variables agree. -/
def KeyIsShared (env : Environment) (config : Config.Model) : Prop :=
  config.apiKey.isSome ∨ (env.get? "DOCUGEN_LLM_API_KEY").isSome ∨
    env.get? "ANTHROPIC_API_KEY" = env.get? "OPENAI_API_KEY"

variable {config other : Config.Model} {env : Environment} {name : String}

lemma Alike.refl (env : Environment) (config : Config.Model) : Alike env config config :=
  ⟨rfl, rfl, rfl, rfl, Iff.rfl, rfl⟩

lemma Alike.symm (h : Alike env config other) : Alike env other config :=
  ⟨h.isKeyless_eq.symm, h.modelOrDefault_eq.symm, h.baseUrlOrDefault_eq.symm, h.apiKeyOrEnv_eq.symm,
    h.missingKey_iff.symm, h.ask_eq.symm⟩

lemma modelFor_eq_missingKey_iff : modelFor config env = .error (.missingKey config.provider) ↔
    config.apiKeyOrEnv env = none ∧ config.isKeyless = false := by
  rw [modelFor]
  cases config.apiKeyOrEnv env with
  | some key => cases (Provider.ofConfig config env).bind (·.client env) <;> simp [pure, Except.pure]
  | none =>
    cases config.isKeyless with
    | false => simp
    | true => cases (Provider.ofConfig config env).bind (·.client env) <;> simp [pure, Except.pure]

lemma alike_of_eq (h : name.toLower = config.provider.toLower)
    (hkeyless : config.isKeyless = { config with provider := name }.isKeyless)
    (hmodel : config.modelOrDefault = { config with provider := name }.modelOrDefault)
    (hurl : config.baseUrlOrDefault = { config with provider := name }.baseUrlOrDefault)
    (hkey : config.apiKeyOrEnv env = { config with provider := name }.apiKeyOrEnv env) :
    Alike env config { config with provider := name } := by
  have hlower : Text.lower name = Text.lower config.provider := Text.lower_eq_of_toLower_eq h
  -- the provider itself goes by the name in lower case
  have hprovider : Provider.ofConfig { config with provider := name } env = Provider.ofConfig config env := by
    simp only [Provider.ofConfig, hlower, hkey]
  refine ⟨hkeyless, hmodel, hurl, hkey, ?_, ?_⟩
  · rw [modelFor_eq_missingKey_iff, modelFor_eq_missingKey_iff, hkeyless, hkey]
  · funext system prompt
    rw [Provider.ask, Provider.ask, hprovider]

lemma alike_of_notMem (h : name.toLower = config.provider.toLower) (hconfig : config.provider ∉ ownNames)
    (hname : name ∉ ownNames) : Alike env config { config with provider := name } := by
  have hother : { config with provider := name }.provider ∉ ownNames := hname
  apply alike_of_eq h
  · rw [isKeyless_of_notMem hconfig, isKeyless_of_notMem hother]
  · rw [modelOrDefault, modelOrDefault, byProvider_of_notMem hconfig, byProvider_of_notMem hother]
  · rw [baseUrlOrDefault, baseUrlOrDefault, byProvider_of_notMem hconfig, byProvider_of_notMem hother]
  · rw [apiKeyOrEnv, apiKeyOrEnv, byProvider_of_notMem hconfig, byProvider_of_notMem hother]

lemma getD_eq_getD_iff {α : Type} {a b : α} (h : a ≠ b) (value : Option α) :
    value.getD a = value.getD b ↔ value.isSome := by
  cases value <;> simp [h]

lemma orElse_eq_orElse_iff {α : Type} (a b c d : Option α) :
    (a <|> b <|> c) = (a <|> b <|> d) ↔ a.isSome ∨ b.isSome ∨ c = d := by
  cases a <;> cases b <;> simp

lemma alike_iff_of_mem (h : name.toLower = config.provider.toLower) (hconfig : config.provider ∈ ownNames)
    (hname : name ∉ ownNames) :
    Alike env config { config with provider := name } ↔
      config.provider ≠ "ollama" ∧ config.model.isSome ∧ config.baseUrl.isSome ∧ KeyIsShared env config := by
  have hother : { config with provider := name }.provider ∉ ownNames := hname
  have hkeyless : config.isKeyless = { config with provider := name }.isKeyless ↔ config.provider ≠ "ollama" := by
    rw [isKeyless_of_notMem hother]
    exact beq_eq_false_iff_ne
  by_cases hollama : config.provider = "ollama"
  · exact ⟨fun halike => absurd hollama (hkeyless.mp halike.isKeyless_eq), fun hne => absurd hollama hne.1⟩
  · have hanthropic : config.provider = "anthropic" ∨ config.provider = "claude" := by
      simpa [ownNames, hollama] using hconfig
    have hown {α : Type} (a b c : α) : config.byProvider a b c = a := if_pos hanthropic
    have hmodel : config.modelOrDefault = { config with provider := name }.modelOrDefault ↔ config.model.isSome := by
      rw [modelOrDefault, modelOrDefault, hown, byProvider_of_notMem hother]
      exact getD_eq_getD_iff (by decide) _
    have hurl : config.baseUrlOrDefault = { config with provider := name }.baseUrlOrDefault ↔ config.baseUrl.isSome := by
      rw [baseUrlOrDefault, baseUrlOrDefault, hown, byProvider_of_notMem hother]
      exact getD_eq_getD_iff (by decide) _
    have hkey :
        config.apiKeyOrEnv env = { config with provider := name }.apiKeyOrEnv env ↔ KeyIsShared env config := by
      rw [apiKeyOrEnv, apiKeyOrEnv, hown, byProvider_of_notMem hother]
      exact orElse_eq_orElse_iff ..
    constructor
    · intro halike
      exact ⟨hollama, hmodel.mp halike.modelOrDefault_eq, hurl.mp halike.baseUrlOrDefault_eq,
        hkey.mp halike.apiKeyOrEnv_eq⟩
    · rintro ⟨hne, hgiven, hgivenUrl, hshared⟩
      exact alike_of_eq h (hkeyless.mpr hne) (hmodel.mpr hgiven) (hurl.mpr hgivenUrl) (hkey.mpr hshared)

/-- Both names have values of their own or neither has, or all the values are given that would differ. -/
def SpelledAlike (env : Environment) (config : Config.Model) (name : String) : Prop :=
  (config.provider ∈ ownNames ↔ name ∈ ownNames) ∨
    (config.provider ≠ "ollama" ∧ name ≠ "ollama" ∧ config.model.isSome ∧ config.baseUrl.isSome ∧
      KeyIsShared env config)

lemma spelledAlike_iff_of_mem (hconfig : config.provider ∈ ownNames) (hname : name ∉ ownNames) :
    SpelledAlike env config name ↔
      config.provider ≠ "ollama" ∧ config.model.isSome ∧ config.baseUrl.isSome ∧ KeyIsShared env config := by
  have hollama : name ≠ "ollama" := by
    rintro rfl
    exact hname (by decide)
  simp [SpelledAlike, hconfig, hname, hollama]

lemma alike_iff (h : name.toLower = config.provider.toLower) :
    Alike env config { config with provider := name } ↔ SpelledAlike env config name := by
  by_cases hconfig : config.provider ∈ ownNames
  · by_cases hname : name ∈ ownNames
    · rw [toLower_of_mem_ownNames hconfig, toLower_of_mem_ownNames hname] at h
      rw [h]
      exact iff_of_true (.refl env config) (.inl Iff.rfl)
    · rw [alike_iff_of_mem h hconfig hname, spelledAlike_iff_of_mem hconfig hname]
  · by_cases hname : name ∈ ownNames
    · have hother : { config with provider := name }.provider ∈ ownNames := hname
      have hswap : Alike env { config with provider := name } config ↔
          SpelledAlike env { config with provider := name } config.provider :=
        (alike_iff_of_mem h.symm hother hconfig).trans (spelledAlike_iff_of_mem hother hconfig).symm
      have hsymm : SpelledAlike env { config with provider := name } config.provider ↔ SpelledAlike env config name :=
        or_congr iff_comm and_left_comm
      exact ⟨fun halike => hsymm.mp (hswap.mp halike.symm), fun hspelled => (hswap.mpr (hsymm.mpr hspelled)).symm⟩
    · exact iff_of_true (alike_of_notMem h hconfig hname) (.inl (iff_of_false hconfig hname))

theorem alike_iff_spelledAlike (env : Environment) (h : name.toLower = config.provider.toLower) :
    (Provider.ofConfig { config with provider := name } env).map Provider.withoutKey =
        (Provider.ofConfig config env).map Provider.withoutKey ∧
      (Alike env config { config with provider := name } ↔ SpelledAlike env config name) ∧
      ∀ provider client, config.IsWritten → Provider.ofConfig config env = .ok provider →
        provider.client env = .ok client → Provider.Honest env config provider client :=
  ⟨Provider.map_withoutKey_ofConfig h, alike_iff h, fun _ _ => Provider.honest_of_isWritten⟩

theorem alike_anthropic_with_all_given :
    let config : Config.Model :=
      { Config.Model.standard with model := some "m", baseUrl := some "http://h", apiKey := some "k" }
    "Anthropic".toLower = config.provider.toLower ∧
      Alike ⟨[("OPENAI_API_KEY", "o")]⟩ config { config with provider := "Anthropic" } := by
  intro config
  have h : "Anthropic".toLower = config.provider.toLower := Text.toLower_eq_of_map_eq (by decide)
  refine ⟨h, (alike_iff_spelledAlike _ h).2.1.mpr (.inr ⟨?_, ?_, rfl, rfl, .inl rfl⟩)⟩ <;> decide

/-- With a capital the key of another vendor is sent, the banner names another vendor's model, and the provider that
needs no key is refused for want of one. -/
theorem not_alike_with_capital :
    let config (name : String) : Config.Model := { Config.Model.standard with provider := name }
    let env : Environment := ⟨[("OPENAI_API_KEY", "o")]⟩
    ("Claude".toLower = "claude".toLower ∧ modelFor (config "claude") env = .error (.missingKey "claude") ∧
        (Provider.ofConfig (config "Claude") env).bind (·.client env) = .ok (.anthropic (Anthropic.withKey "o")) ∧
        (Anthropic.withKey "o").model = Config.anthropicModel ∧
        (config "Claude").modelOrDefault = Config.openAIModel ∧ ¬ Alike env (config "claude") (config "Claude")) ∧
      "Ollama".toLower = "ollama".toLower ∧ modelFor (config "Ollama") ⟨[]⟩ = .error (.missingKey "Ollama") ∧
        (Provider.ofConfig (config "ollama") ⟨[]⟩).bind (·.client ⟨[]⟩) =
          .ok (.chat (Chat.make Config.ollamaUrl "" Config.ollamaModel Config.defaultMaxTokens)) ∧
        ¬ Alike ⟨[]⟩ (config "ollama") (config "Ollama") := by
  intro config env
  have hclaude : (config "claude").modelOrDefault ≠ (config "Claude").modelOrDefault := by decide
  have hollama : (config "ollama").modelOrDefault ≠ (config "Ollama").modelOrDefault := by decide
  refine ⟨⟨Text.toLower_eq_of_map_eq (by decide), modelFor_eq_missingKey_iff.mpr ⟨by decide, by decide⟩, by decide, rfl,
    rfl, fun h => hclaude h.modelOrDefault_eq⟩, Text.toLower_eq_of_map_eq (by decide),
    modelFor_eq_missingKey_iff.mpr ⟨by decide, by decide⟩, by decide, fun h => hollama h.modelOrDefault_eq⟩

end CommandLine

end CodeOutline
