import CodeOutline.Model.Provider
import Mathlib.Tactic.Lemma

/-! The keys of the vendors: which variable is whose, and which key a client comes to have. -/

namespace CodeOutline.Model.Provider

def Client.apiKey : Client → String
  | anthropic client => client.apiKey
  | chat client => client.apiKey

/-- The variable in which a vendor's users have their key. -/
def ownVariable? (name : String) : Option String :=
  if name = "anthropic" ∨ name = "claude" then some "ANTHROPIC_API_KEY"
  else if Text.lower name = "openai" then some "OPENAI_API_KEY"
  else none

variable {config : Config.Model} {env : Environment} {own key : String}

lemma ownVariable?_cases (h : ownVariable? config.provider = some own) :
    ((config.provider = "anthropic" ∨ config.provider = "claude") ∧ own = "ANTHROPIC_API_KEY") ∨
      (¬ (config.provider = "anthropic" ∨ config.provider = "claude") ∧ Text.lower config.provider = "openai" ∧
        own = "OPENAI_API_KEY") := by
  by_cases hanthropic : config.provider = "anthropic" ∨ config.provider = "claude"
  · rw [ownVariable?, if_pos hanthropic] at h
    exact .inl ⟨hanthropic, (Option.some.inj h).symm⟩
  · by_cases hopenAI : Text.lower config.provider = "openai"
    · rw [ownVariable?, if_neg hanthropic, if_pos hopenAI] at h
      exact .inr ⟨hanthropic, hopenAI, (Option.some.inj h).symm⟩
    · rw [ownVariable?, if_neg hanthropic, if_neg hopenAI] at h
      cases h

lemma ne_ollama_of_ownVariable? (h : ownVariable? config.provider = some own) : config.provider ≠ "ollama" := by
  have hnone : ownVariable? "ollama" = none := by decide
  rintro hollama
  rw [hollama, hnone] at h
  cases h

lemma byProvider_of_ownVariable? (h : ownVariable? config.provider = some own) :
    config.byProvider (env.get? "ANTHROPIC_API_KEY") none (env.get? "OPENAI_API_KEY") = env.get? own := by
  have hollama := ne_ollama_of_ownVariable? h
  obtain ⟨hanthropic, rfl⟩ | ⟨hanthropic, _, rfl⟩ := ownVariable?_cases h
  · rw [Config.Model.byProvider, if_pos hanthropic]
  · rw [Config.Model.byProvider, if_neg hanthropic, if_neg hollama]

lemma client_of_ownVariable? (h : ownVariable? config.provider = some own) (hkey : config.apiKeyOrEnv env = some key) :
    ∃ client, (ofConfig config env).bind (·.client env) = .ok client ∧ client.apiKey = key := by
  obtain ⟨hanthropic, -⟩ | ⟨-, hopenAI, -⟩ := ownVariable?_cases h
  · have hname : Text.lower config.provider = "anthropic" ∨ Text.lower config.provider = "claude" := by
      obtain hname | hname := hanthropic <;> rw [hname] <;> decide
    rw [ofConfig, if_pos hname, hkey]
    exact ⟨_, rfl, rfl⟩
  · have hname : ¬ (Text.lower config.provider = "anthropic" ∨ Text.lower config.provider = "claude") := by
      rw [hopenAI]
      decide
    rw [ofConfig, if_neg hname, if_pos hopenAI, hkey]
    exact ⟨_, rfl, rfl⟩

end CodeOutline.Model.Provider
