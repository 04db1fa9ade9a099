import CodeOutline.Proofs.Run.Course

/-! The conversation with the model: one question for each outline, in their order. -/

namespace CodeOutline

/-- A network that has a text for some targets, whatever was asked before. -/
def Http.Network.serving (texts : List (String × String)) : Http.Network := fun _ request =>
  match texts.find? (·.1 == request.target) with
  | some (_, text) => .answered ⟨200, Text.Utf8.encode text⟩
  | none => .unreachable

/-- The replies of a model that is asked one question after the other. -/
def Model.askInTurn (model : Model) : List String → Http.Online (List (Except Model.Failure String))
  | [] => return []
  | prompt :: rest => do
    let reply ← model.complete none prompt
    return reply :: (← askInTurn model rest)

def Outline.prompt (o : Outline) : String := Document.prompt o.path o.elements

namespace Run

open Activity

namespace Documents

/-- The documents that come of the replies about these outlines. -/
def ofReplies (outlines : List Outline) (replies : List (Except Model.Failure String)) : List Document :=
  (outlines.zip replies).filterMap fun (o, reply) => reply.toOption.map (Document.mk o.path)

variable {network : Http.Network} {model : Model} {total : Nat} {s after : State} {docs : List Document}

lemma askInTurn_cons {prompt : String} {rest : List String} {past next last : List Http.Exchange}
    {reply : Except Model.Failure String} {replies : List (Except Model.Failure String)}
    (h : model.complete none prompt network past = (reply, next))
    (hrest : model.askInTurn rest network next = (replies, last)) :
    model.askInTurn (prompt :: rest) network past = (reply :: replies, last) := by
  rw [Model.askInTurn, Http.Online.bind_of_eq h, Http.Online.bind_of_eq hrest]
  rfl

lemma ofReplies_cons (o : Outline) (outlines : List Outline) (reply : Except Model.Failure String)
    (replies : List (Except Model.Failure String)) :
    ofReplies (o :: outlines) (reply :: replies) =
      (reply.toOption.map (Document.mk o.path)).toList ++ ofReplies outlines replies := by
  cases reply <;> rfl

lemma reply_of_generate {o : Outline} {index : Nat} {doc? : Option Document}
    (h : generate network model total (o, index) s = (doc?, after)) :
    ∃ reply, model.complete none o.prompt network s.past = (reply, after.past) ∧
      doc? = reply.toOption.map (Document.mk o.path) := by
  rw [generate_eq] at h
  cases ha : answered network model o s.past with
  | mk reply past =>
    rw [ha] at h
    cases reply <;> cases h <;> exact ⟨_, ha, rfl⟩

lemma replies_of_gathering {numbered : List (Outline × Nat)}
    (h : Gathering (generate network model total) s numbered docs after) :
    ∃ replies, model.askInTurn ((numbered.map Prod.fst).map Outline.prompt) network s.past = (replies, after.past) ∧
      docs = ofReplies (numbered.map Prod.fst) replies := by
  induction h with
  | nil => exact ⟨[], rfl, rfl⟩
  | kept hstep _ ih =>
    obtain ⟨replies, hrest, hdocs⟩ := ih
    obtain ⟨reply, hreply, hdoc⟩ := reply_of_generate hstep
    refine ⟨reply :: replies, askInTurn_cons hreply hrest, ?_⟩
    rw [List.map_cons, ofReplies_cons, ← hdoc, ← hdocs]
    rfl
  | passed hstep _ ih =>
    obtain ⟨replies, hrest, hdocs⟩ := ih
    obtain ⟨reply, hreply, hdoc⟩ := reply_of_generate hstep
    refine ⟨reply :: replies, askInTurn_cons hreply hrest, ?_⟩
    rw [List.map_cons, ofReplies_cons, ← hdoc, ← hdocs]
    rfl

lemma replies_of_generateAll {parsed : List Outline} (h : generateAll network model parsed s = (docs, after)) :
    ∃ replies, model.askInTurn (parsed.map Outline.prompt) network s.past = (replies, after.past) ∧
      docs = ofReplies parsed replies := by
  obtain ⟨replies, hr, hd⟩ := replies_of_gathering (gathering_of_gather h)
  have hfst : parsed.zipIdx.map Prod.fst = parsed := List.zipIdx_map_fst ..
  rw [hfst] at hr hd
  exact ⟨replies, hr, hd⟩

lemma past_of_writeAll {folder : String} {exported : List String} (h : writeAll folder docs s = (exported, after)) :
    after.past = s.past := by
  refine (gathering_of_gather h).preserves fun doc s => ?_
  rw [write_eq, State.settle_past]

end Documents

end Run

end CodeOutline
