import CodeOutline.Proofs.Model.Keyless

/-! What Anthropic's service is asked: one message with the settings of the configuration, all but the version. -/

namespace CodeOutline.Model

open Http (Url)

/-- The request for a message that the settings tell, given the version. It has no field `system`. -/
def messageRequest (config : Config.Model) (key version prompt : String) (url : Url) : Http.Request where
  method := .post
  url
  headers := [("x-api-key", key), ("anthropic-version", version), ("content-type", "application/json")]
  body := some (.record [("model", .ofText (config.model.getD Config.anthropicModel)),
    ("max_tokens", .ofNat config.maxTokens),
    ("messages", .array [.record [("role", .ofText "user"), ("content", .ofText prompt)]])])

lemma messageRequest_inj {config : Config.Model} {key version other prompt : String} {url : Url} :
    messageRequest config key version prompt url = messageRequest config key other prompt url ↔ version = other := by
  constructor
  · intro h
    have hheaders := congrArg Http.Request.headers h
    simpa [messageRequest] using hheaders
  · rintro rfl
    rfl

namespace Anthropic

variable {config : Config.Model} {key prompt : String} {network : Http.Network} {past : List Http.Exchange}

/-- The version is always the usual one. -/
def configured (config : Config.Model) (key : String) : Anthropic :=
  ⟨key, config.baseUrl.getD Config.anthropicUrl, Config.anthropicVersion, config.model.getD Config.anthropicModel,
    config.maxTokens⟩

lemma make?_configured (hlegal : Http.Request.isHeaderValue key) :
    Http.Request.make? .post (configured config key).url (configured config key).headers
        (some ((configured config key).body none prompt)) =
      (Url.parse? (config.baseUrl.getD Config.anthropicUrl)).map
        (messageRequest config key Config.anthropicVersion prompt) := by
  have hheaders : ((configured config key).headers.all fun header => Http.Request.isHeaderValue header.2) = true := by
    have hrest : (Http.Request.isHeaderValue Config.anthropicVersion &&
        (Http.Request.isHeaderValue "application/json" && true)) = true := by decide
    rw [headers, List.all_cons, List.all_cons, List.all_cons, List.all_nil]
    exact (Bool.and_eq_true ..).mpr ⟨hlegal, hrest⟩
  rw [Http.Request.make?_eq_map hheaders]
  rfl

lemma complete_configured (hlegal : Http.Request.isHeaderValue key) {url : Url}
    (hurl : Url.parse? (config.baseUrl.getD Config.anthropicUrl) = some url) :
    (configured config key).toModel.complete none prompt network past =
      (readReply replyText? (network past (messageRequest config key Config.anthropicVersion prompt url)).response?,
        past ++ [network.exchange past (messageRequest config key Config.anthropicVersion prompt url)]) := by
  apply readReply_request_of_some
  rw [make?_configured hlegal, hurl]
  rfl

end Anthropic

namespace Provider

variable {config : Config.Model} {env : Environment} {key : String}

lemma client_of_anthropic (hname : config.provider.toLower = "anthropic" ∨ config.provider.toLower = "claude")
    (hkey : config.apiKeyOrEnv env = some key) :
    (ofConfig config env).bind (·.client env) = .ok (.anthropic (Anthropic.configured config key)) := by
  have hlower : Text.lower config.provider = "anthropic" ∨ Text.lower config.provider = "claude" := by
    rw [← Text.lower_toLower]
    rcases hname with h | h
    · exact .inl (by rw [h]; decide)
    · exact .inr (by rw [h]; decide)
  rw [ofConfig, if_pos hlower, hkey]
  rfl

end Provider

/-- The model sends one request for each prompt, if the address can be read, and reads the reply to it. This is the
request that the settings tell unless they name another version. -/
structure SendsMessages (config : Config.Model) (key : String) (model : Model) : Prop where
  sends : ∀ url, Url.parse? (config.baseUrl.getD Config.anthropicUrl) = some url → ∀ prompt network past,
    model.complete none prompt network past =
      (readReply Anthropic.replyText?
          (network past (messageRequest config key Config.anthropicVersion prompt url)).response?,
        past ++ [network.exchange past (messageRequest config key Config.anthropicVersion prompt url)])
  told_iff : ∀ url prompt, messageRequest config key Config.anthropicVersion prompt url =
      messageRequest config key (config.apiVersion.getD Config.anthropicVersion) prompt url ↔
    config.apiVersion.getD Config.anthropicVersion = Config.anthropicVersion
  silent : Url.parse? (config.baseUrl.getD Config.anthropicUrl) = none → config.baseUrl.isSome ∧
    ∀ prompt network past, model.complete none prompt network past = (.error .network, past)

namespace Provider

variable {config : Config.Model} {env : Environment} {key : String}

lemma isSome_baseUrl_of_none (h : Url.parse? (config.baseUrl.getD Config.anthropicUrl) = none) :
    config.baseUrl.isSome := by
  have husual : (Url.parse? Config.anthropicUrl).isSome := by decide +kernel
  cases hurl : config.baseUrl with
  | some url => rfl
  | none =>
    rw [hurl, Option.getD_none] at h
    rw [h] at husual
    exact husual

/-- The configured version is lost on the way to the service; everything else arrives. -/
theorem sendsMessages_of_anthropic
    (hname : config.provider.toLower = "anthropic" ∨ config.provider.toLower = "claude")
    (hkey : config.apiKeyOrEnv env = some key) (hlegal : Http.Request.isHeaderValue key) :
    ∃ client, (ofConfig config env).bind (·.client env) = .ok client ∧ SendsMessages config key client.toModel := by
  refine ⟨_, client_of_anthropic hname hkey, ?_, ?_, ?_⟩
  · intro url hurl prompt network past
    exact Anthropic.complete_configured hlegal hurl
  · intro url prompt
    rw [messageRequest_inj, eq_comm]
  · intro hurl
    refine ⟨isSome_baseUrl_of_none hurl, fun prompt network past => ?_⟩
    apply readReply_request_of_none
    rw [Anthropic.make?_configured hlegal, hurl]
    rfl

theorem sendsMessages_to_own_address :
    let config : Config.Model :=
      ⟨"ANTHROPIC", some "m", some "http://h/messages", none, 7, some Config.anthropicVersion⟩
    let env : Environment := ⟨[("DOCUGEN_LLM_API_KEY", "d"), ("OPENAI_API_KEY", "o")]⟩
    config.provider.toLower = "anthropic" ∧ config.apiKeyOrEnv env = some "d" ∧ Http.Request.isHeaderValue "d" ∧
      ∃ client, (ofConfig config env).bind (·.client env) = .ok client ∧ SendsMessages config "d" client.toModel ∧
        ((client.toModel.complete none "p" Http.Network.offline []).2.map fun e => (e.request.target, e.request.headers)) =
          [("/messages", [("x-api-key", "d"), ("anthropic-version", "2023-06-01"), ("content-type", "application/json")])] := by
  intro config env
  have hname : config.provider.toLower = "anthropic" :=
    (Text.toLower_eq_of_map_eq (by decide)).trans (Config.Model.toLower_of_mem_ownNames (by decide))
  have hkey : config.apiKeyOrEnv env = some "d" := by decide
  have hlegal : Http.Request.isHeaderValue "d" = true := by decide
  obtain ⟨client, hclient, hsends⟩ := sendsMessages_of_anthropic (.inl hname) hkey hlegal
  have htarget : (Url.parse? "http://h/messages").map Url.target = some "/messages" := by decide +kernel
  obtain ⟨url, hurl, htarget⟩ := Option.map_eq_some_iff.mp htarget
  refine ⟨hname, hkey, hlegal, client, hclient, hsends, ?_⟩
  rw [hsends.sends url hurl, ← htarget]
  rfl

/-- With another version in the configuration the request still names the usual one. -/
theorem ne_told_of_other_version :
    let config : Config.Model :=
      { Config.Model.standard with apiKey := some "k", apiVersion := some "2024-01-01" }
    config.provider.toLower = "anthropic" ∧ config.apiKeyOrEnv ⟨[]⟩ = some "k" ∧ Http.Request.isHeaderValue "k" ∧
      Http.Request.isHeaderValue "2024-01-01" ∧
      ∃ client url, (ofConfig config ⟨[]⟩).bind (·.client ⟨[]⟩) = .ok client ∧
        Url.parse? (config.baseUrl.getD Config.anthropicUrl) = some url ∧
        ∀ prompt network past, ∃ request,
          (client.toModel.complete none prompt network past).2 = past ++ [network.exchange past request] ∧
            request.headers.lookup "anthropic-version" = some "2023-06-01" ∧
            request ≠ messageRequest config "k" (config.apiVersion.getD Config.anthropicVersion) prompt url := by
  intro config
  have hname : config.provider.toLower = "anthropic" := Config.Model.toLower_of_mem_ownNames (by decide)
  have hkey : config.apiKeyOrEnv ⟨[]⟩ = some "k" := by decide
  have hlegal : Http.Request.isHeaderValue "k" = true := by decide
  have husual : (Url.parse? (config.baseUrl.getD Config.anthropicUrl)).isSome := by decide +kernel
  obtain ⟨url, hurl⟩ := Option.isSome_iff_exists.mp husual
  refine ⟨hname, hkey, hlegal, by decide, _, url, client_of_anthropic (.inl hname) hkey, hurl, ?_⟩
  intro prompt network past
  refine ⟨messageRequest config "k" Config.anthropicVersion prompt url, ?_, rfl, ?_⟩
  · exact congrArg Prod.snd (Anthropic.complete_configured hlegal hurl)
  · exact mt messageRequest_inj.mp (by decide)

end Provider

end CodeOutline.Model
