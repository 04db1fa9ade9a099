import CodeOutline.Proofs.CommandLine.Spelling

/-! What the command line's check for a key is worth: behind it a model is there for every known provider, however its
name is spelled and wherever the key came from. -/

namespace CodeOutline

namespace Model.Provider

def knownNames : List String := ["anthropic", "claude", "openai", "ollama"]

variable {config : Config.Model} {env : Environment}

lemma ofConfig_of_notMem (h : Text.lower config.provider ∉ knownNames) :
    ofConfig config env = .error (.unknownProvider (Text.lower config.provider)) := by
  simp only [knownNames, List.mem_cons, List.not_mem_nil, or_false, not_or] at h
  obtain ⟨hanthropic, hclaude, hopenAI, hollama⟩ := h
  rw [ofConfig, if_neg (not_or.mpr ⟨hanthropic, hclaude⟩), if_neg hopenAI, if_neg hollama]

/-- The provider that runs on the own machine is given no key, the others are given the one that was found. -/
lemma exists_client_of_mem (h : Text.lower config.provider ∈ knownNames)
    (hkey : Text.lower config.provider = "ollama" ∨ (config.apiKeyOrEnv env).isSome) :
    ∃ provider client, ofConfig config env = .ok provider ∧ provider.client env = .ok client ∧
      client.apiKey = if Text.lower config.provider = "ollama" then "" else (config.apiKeyOrEnv env).getD "" := by
  by_cases hollama : Text.lower config.provider = "ollama"
  · rw [ofConfig, hollama, if_neg (by decide), if_neg (by decide), if_pos rfl, if_pos rfl]
    exact ⟨_, _, rfl, rfl, rfl⟩
  · obtain ⟨key, hkey⟩ := Option.isSome_iff_exists.mp (hkey.resolve_left hollama)
    rw [if_neg hollama, ofConfig, hkey]
    by_cases hanthropic : Text.lower config.provider = "anthropic" ∨ Text.lower config.provider = "claude"
    · rw [if_pos hanthropic]
      exact ⟨_, _, rfl, rfl, rfl⟩
    · have hopenAI : Text.lower config.provider = "openai" := by
        simpa [knownNames, not_or.mp hanthropic, hollama] using h
      rw [if_neg hanthropic, if_pos hopenAI]
      exact ⟨_, _, rfl, rfl, rfl⟩

end Model.Provider

namespace CommandLine

open Model
open Model.Provider (knownNames)

variable {config : Config.Model} {env : Environment}

def HasKey (config : Config.Model) (env : Environment) : Prop :=
  (config.apiKeyOrEnv env).isSome ∨ config.isKeyless

/-- The provider is unknown, or there is a client for it that has the key. -/
structure Serves (config : Config.Model) (env : Environment) : Prop where
  unknown_iff : (∃ name, Provider.ofConfig config env = .error (.unknownProvider name)) ↔
    Text.lower config.provider ∉ knownNames
  of_unknown : Text.lower config.provider ∉ knownNames →
    modelFor config env = .error (.provider (.unknownProvider (Text.lower config.provider)))
  of_known : Text.lower config.provider ∈ knownNames → ∃ provider client, Provider.ofConfig config env = .ok provider ∧
    provider.client env = .ok client ∧ modelFor config env = .ok client.toModel ∧
    client.apiKey = if Text.lower config.provider = "ollama" then "" else (config.apiKeyOrEnv env).getD ""
  missingKey_ne : (Provider.ofConfig config env).bind (·.client env) ≠ .error .missingKey

lemma modelFor_of_hasKey (h : HasKey config env) : modelFor config env =
    match (Provider.ofConfig config env).bind (·.client env) with
    | .ok client => .ok client.toModel
    | .error failure => .error (.provider failure) := by
  have hcheck : ((config.apiKeyOrEnv env).isNone && !config.isKeyless) = false := by
    rcases h with hkey | hkeyless
    · rw [Option.isNone_eq_false_iff.mpr hkey, Bool.false_and]
    · rw [hkeyless, Bool.not_true, Bool.and_false]
  rw [modelFor, hcheck]
  rfl

/-- The check looks at the name as it is written, which no spelling of the keyless provider but one passes without
a key. -/
lemma HasKey.ollama_or_isSome (h : HasKey config env) :
    Text.lower config.provider = "ollama" ∨ (config.apiKeyOrEnv env).isSome := by
  refine h.symm.imp_left fun hkeyless => ?_
  rw [beq_iff_eq.mp hkeyless]
  decide

/-- Whoever passes the check never lacks a key later, although the two go by different spellings of the name. -/
theorem serves_of_hasKey (h : HasKey config env) : Serves config env := by
  by_cases hknown : Text.lower config.provider ∈ knownNames
  · obtain ⟨provider, client, hprovider, hclient, hkey⟩ := Provider.exists_client_of_mem hknown h.ollama_or_isSome
    have hbuilt : (Provider.ofConfig config env).bind (·.client env) = .ok client := by
      rw [hprovider]
      exact hclient
    refine ⟨?_, fun hnot => absurd hknown hnot, fun _ => ⟨provider, client, hprovider, hclient, ?_, hkey⟩, ?_⟩
    · simp [hprovider, hknown]
    · rw [modelFor_of_hasKey h, hbuilt]
    · simp [hbuilt]
  · have hunknown := @Provider.ofConfig_of_notMem config env hknown
    have hfailed : (Provider.ofConfig config env).bind (·.client env) =
        .error (.unknownProvider (Text.lower config.provider)) := by
      rw [hunknown]
      rfl
    refine ⟨iff_of_true ⟨_, hunknown⟩ hknown, fun _ => ?_, fun hmem => absurd hmem hknown, ?_⟩
    · rw [modelFor_of_hasKey h, hfailed]
    · simp [hfailed]

theorem serves_capitals_with_other_key :
    let config (name : String) : Config.Model := { Config.Model.standard with provider := name }
    let env : Environment := ⟨[("OPENAI_API_KEY", "o")]⟩
    HasKey (config "CLAUDE") env ∧ Serves (config "CLAUDE") env ∧ Text.lower "CLAUDE" ∈ knownNames ∧
      HasKey (config "ollama") ⟨[]⟩ ∧ Serves (config "ollama") ⟨[]⟩ ∧
      HasKey (config "mystery") env ∧ Serves (config "mystery") env ∧ Text.lower "mystery" ∉ knownNames := by
  intro config env
  have hclaude : HasKey (config "CLAUDE") env := .inl (by decide)
  have hollama : HasKey (config "ollama") ⟨[]⟩ := .inr (by decide)
  have hmystery : HasKey (config "mystery") env := .inl (by decide)
  exact ⟨hclaude, serves_of_hasKey hclaude, by decide, hollama, serves_of_hasKey hollama, hmystery,
    serves_of_hasKey hmystery, by decide⟩

end CommandLine

end CodeOutline
