import CodeOutline.Model.Provider
import CodeOutline.Proofs.Run.Conservation
import CodeOutline.Proofs.Run.Isolation

/-! Runs that stop before any documentation: they do what every run does first, and nothing else. -/

namespace CodeOutline

namespace Model

/-- The model says nothing on the network but requests that post something. -/
def Posts (model : Model) : Prop :=
  ∀ system prompt network past, ∃ sent, (model.complete system prompt network past).2 = past ++ sent ∧
    ∀ exchange ∈ sent, exchange.request.method = .post

lemma posts_request {address : String} {headers : List (String × String)} {body : Option Json}
    {network : Http.Network} {past : List Http.Exchange} :
    ∃ sent, (Http.request .post address headers body network past).2 = past ++ sent ∧
      ∀ exchange ∈ sent, exchange.request.method = .post := by
  cases hr : Http.Request.make? .post address headers body with
  | none =>
    rw [Http.request_eq_of_none hr]
    exact ⟨[], (List.append_nil past).symm, fun _ h => absurd h List.not_mem_nil⟩
  | some r =>
    rw [Http.request_eq_of_some hr]
    refine ⟨_, rfl, fun exchange h => ?_⟩
    rw [List.mem_singleton.mp h]
    exact Http.Request.method_of_make? hr

theorem posts_ofFunction (answer : String → Except Failure String) : (ofFunction answer).Posts := fun _ _ _ past =>
  ⟨[], (List.append_nil past).symm, fun _ h => absurd h List.not_mem_nil⟩

theorem posts_toModel (client : Provider.Client) : client.toModel.Posts := by
  intro system prompt network past
  cases client with
  | anthropic c => exact posts_request
  | chat c => exact posts_request

lemma Posts.askInTurn {model : Model} (h : model.Posts) (network : Http.Network) (prompts : List String)
    (past : List Http.Exchange) :
    ∃ sent, (model.askInTurn prompts network past).2 = past ++ sent ∧
      ∀ exchange ∈ sent, exchange.request.method = .post := by
  induction prompts generalizing past with
  | nil => exact ⟨[], (List.append_nil past).symm, fun _ h => absurd h List.not_mem_nil⟩
  | cons prompt rest ih =>
    obtain ⟨first, hfirst, hposts⟩ := h none prompt network past
    obtain ⟨later, hlater, hposts'⟩ := ih (past ++ first)
    refine ⟨first ++ later, ?_, ?_⟩
    · rw [Run.Documents.askInTurn_cons rfl rfl, hfirst, hlater, List.append_assoc]
    · intro exchange hmem
      exact (List.mem_append.mp hmem).elim (hposts exchange) (hposts' exchange)

end Model

namespace Run

variable {setting : Setting} {options : Options} {model? : Option Model} {disk : Disk} {sources : Sources}
  {s collected read : State} {parsed : List Outline}

def Report.extract (r : Report) : Nat × List Outline := (r.filesFound, r.parsed)

def gets (past : List Http.Exchange) : List Http.Exchange := past.filter (·.request.method = .get)

/-- A run that stops before any documentation, beside the one that goes on from there: the second adds its conversation
with the model to that of the first. -/
structure GoesOn (setting : Setting) (model : Model) (disk : Disk) (short full : Except Failure Report × State) :
    Prop where
  result_eq : short.1.map Report.extract = full.1.map Report.extract
  disk_eq : short.2.disk = disk
  prompts_eq : short.2.prompts = []
  gets_eq : gets short.2.past = short.2.past
  asks : ∃ replies, model.askInTurn (short.1.toOption.elim [] fun report => report.parsed.map Outline.prompt)
    setting.network short.2.past = (replies, full.2.past)
  gets_full_eq : model.Posts → gets full.2.past = gets short.2.past

lemma gets_append_of_posts {past sent : List Http.Exchange}
    (h : ∀ exchange ∈ sent, exchange.request.method = .post) : gets (past ++ sent) = gets past := by
  have hnone : gets sent = [] := by
    apply List.filter_eq_nil_iff.mpr
    intro exchange hmem
    simp [h exchange hmem]
  rw [gets, List.filter_append, ← gets, ← gets, hnone, List.append_nil]

lemma Sources.disk_of_outlines (h : sources.outlines setting s = (parsed, read)) : read.disk = s.disk := by
  cases sources with
  | onDisk paths =>
    have hdisk := (gather_readFile paths s).2.1
    rw [Sources.outlines] at h
    rwa [h] at hdisk
  | remote reference paths =>
    refine (gathering_of_gather h).preserves fun path s => ?_
    obtain ⟨⟨reply, past⟩, hf⟩ : ∃ x, fetched setting reference path s.past = x := ⟨_, rfl⟩
    rw [fetchFile_eq hf]
    cases remoteFate path reply <;> rfl

lemma method_of_mem_requests {origin : Origin} {paths : List String} {r : Http.Request}
    (h : some r ∈ requests setting origin paths) : r.method = .get := by
  cases origin with
  | folder root => cases h
  | repository url =>
    obtain htree | hfile := List.mem_cons.mp h
    · exact method_of_mem_treeRequest? htree.symm
    · obtain ⟨path, _, hr⟩ := List.mem_map.mp hfile
      obtain ⟨reference, _, hr⟩ := Option.bind_eq_some_iff.mp hr
      exact Http.Request.method_of_make? hr

lemma gets_of_requests {origin : Origin} {paths : List String} {past : List Http.Exchange}
    (h : past.map (fun exchange => some exchange.request) = requests setting origin paths) : gets past = past := by
  apply List.filter_eq_self.mpr
  intro exchange hmem
  have hrequest : some exchange.request ∈ requests setting origin paths := h ▸ List.mem_map_of_mem hmem
  simp [method_of_mem_requests hrequest]

lemma GoesOn.of_asks {model : Model} {short full : Except Failure Report × State} {replies : List (Except Model.Failure String)}
    (hresult : short.1.map Report.extract = full.1.map Report.extract) (hdisk : short.2.disk = disk)
    (hprompts : short.2.prompts = []) (hgets : gets short.2.past = short.2.past)
    (hasks : model.askInTurn (short.1.toOption.elim [] fun report => report.parsed.map Outline.prompt)
      setting.network short.2.past = (replies, full.2.past)) : GoesOn setting model disk short full := by
  refine ⟨hresult, hdisk, hprompts, hgets, ⟨replies, hasks⟩, fun hposts => ?_⟩
  obtain ⟨sent, hsent, hall⟩ := hposts.askInTurn setting.network
    (short.1.toOption.elim [] fun report => report.parsed.map Outline.prompt) short.2.past
  rw [hasks] at hsent
  change full.2.past = _ at hsent
  rw [hsent, gets_append_of_posts hall]

lemma goesOn_ofSources {model : Model} {short full : Report × State}
    (hs : Sources.ofOrigin setting options.selectAll options.origin (State.start disk) = (.ok sources, collected))
    (hshort : Report.ofSources setting none options.outputFolder sources collected = short)
    (hfull : Report.ofSources setting (some model) options.outputFolder sources collected = full) :
    GoesOn setting model disk (.ok short.1, short.2) (.ok full.1, full.2) := by
  have hc := Sources.collected_of_ofOrigin hs
  have hdisk : collected.disk = disk := hc.disk_eq
  have hprompts : collected.prompts = [] := hc.prompts_eq
  have hchosen := chosen_of_ofOrigin hs
  by_cases hp : sources.paths = []
  · obtain ⟨_, hrequests⟩ := hchosen.outlines (s := collected) (outlines_of_nil setting hp collected)
    rw [ofSources_of_nil setting none options.outputFolder hp] at hshort
    rw [ofSources_of_nil setting (some model) options.outputFolder hp] at hfull
    rw [← hshort, ← hfull]
    refine .of_asks rfl hdisk ?_ (gets_of_requests hrequests) rfl
    simp [hprompts, Notice.prompt?]
  · obtain ⟨⟨parsed, read⟩, hr⟩ : ∃ x, sources.outlines setting
      (collected.note [.event (.found sources.paths.length), .event (.stage .parsing)]) = x := ⟨_, rfl⟩
    obtain ⟨_, hrequests⟩ := hchosen.outlines (s := collected.note _) hr
    obtain ⟨_, _, _, hsilent⟩ := Sources.accounts_outlines hr
    rw [ofSources_eq setting none options.outputFolder hp, hr] at hshort
    rw [← hshort]
    have hquiet : (read.note [.event (.parsed parsed.length)]).prompts = [] := by
      simp [hsilent, hprompts, Notice.prompt?]
    obtain ⟨docs, hcourse⟩ := course_ofSources setting (some model) options.outputFolder sources collected
    rw [hfull] at hcourse
    obtain ⟨report, after⟩ := full
    -- up to `read` both runs are one; from there only the full one may go on
    cases hcourse with
    | nothingFound hnone => exact absurd hnone hp
    | stopped _ hr' hstop =>
      obtain ⟨rfl, rfl⟩ := Prod.mk.inj (hr.symm.trans hr')
      obtain rfl := hstop.resolve_left (Option.some_ne_none model)
      exact .of_asks rfl ((Sources.disk_of_outlines hr).trans hdisk) hquiet (gets_of_requests hrequests) rfl
    | @documented _ _ answered _ _ _ _ _ hr' hm _ hg hw =>
      obtain ⟨rfl, rfl⟩ := Prod.mk.inj (hr.symm.trans hr')
      obtain rfl := Option.some.inj hm
      obtain ⟨replies, hreplies, _⟩ := Documents.replies_of_generateAll hg
      have hpast : after.past = (answered.note _).past := Documents.past_of_writeAll hw
      have hasks : model.askInTurn (parsed.map Outline.prompt) setting.network read.past = (replies, after.past) :=
        hpast.symm ▸ hreplies
      exact .of_asks rfl ((Sources.disk_of_outlines hr).trans hdisk) hquiet (gets_of_requests hrequests) hasks

theorem goesOn_extraction (setting : Setting) (options : Options) (model : Model) (model? : Option Model) (disk : Disk) :
    GoesOn setting model disk (perform setting { options with extractOnly := true } model? (State.start disk))
      (perform setting { options with extractOnly := false } (some model) (State.start disk)) := by
  have hshort : modelInUse { options with extractOnly := true } model? = .ok none := rfl
  have hfull : modelInUse { options with extractOnly := false } (some model) = .ok (some model) := rfl
  have hlisted := Sources.hasListed_ofOrigin setting options.selectAll options.origin (State.start disk)
  rw [perform_eq hshort, perform_eq hfull]
  cases hs : Sources.ofOrigin setting options.selectAll options.origin (State.start disk) with
  | mk result collected =>
    rw [hs] at hlisted
    cases result with
    | error failure =>
      have huntouched := hlisted.untouched
      refine .of_asks rfl huntouched.disk_eq huntouched.prompts_eq ?_ rfl
      apply List.filter_eq_self.mpr
      intro exchange hmem
      simp [huntouched.method_eq exchange hmem]
    | ok sources => exact goesOn_ofSources hs rfl rfl

end Run

end CodeOutline
