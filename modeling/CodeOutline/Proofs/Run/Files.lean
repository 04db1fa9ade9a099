import CodeOutline.Proofs.Run.Gathering
import CodeOutline.Run.Documents
import CodeOutline.Run.Sources

/-! What a run does with a single file: how it is announced, what becomes of it and what is told of that. -/

namespace CodeOutline.Run

open Activity

namespace Sources

def worth (o : Outline) : Except Omission Outline := if o.isEmpty then .error .noElements else .ok o

def fileFate (d : Disk) (path : String) : Except Omission Outline :=
  match Outline.ofFile d path with
  | .ok o => worth o
  | .error _ => .error .unreadable

def remoteFate (path : String) : Except Repository.Failure String → Except Omission Outline
  | .ok content => worth (Outline.ofSource path content)
  | .error _ => .error .unfetched

def fetched (setting : Setting) (reference : Repository.Reference) (path : String) (past : List Http.Exchange) :
    Except Repository.Failure String × List Http.Exchange :=
  setting.client.fetchFile reference path setting.config.repository.branch setting.network past

variable (setting : Setting) (reference : Repository.Reference) (path : String) (s : State)

lemma keep_eq (o : Outline) : keep o s = s.settle o.path (fun _ => []) (worth o) := by
  unfold keep worth
  split <;> rfl

lemma path_of_ofFile {d : Disk} {o : Outline} (h : Outline.ofFile d path = .ok o) : o.path = path := by
  unfold Outline.ofFile at h
  split at h
  · exact (Except.ok.inj h) ▸ rfl
  · cases h

lemma readFile_eq : readFile path s =
    (s.note [.event (.parsing path)]).settle path (fun _ => []) (fileFate s.disk path) := by
  rw [readFile, bind_of_eq (emit_eq _ s), bind_of_eq (get_eq _), State.note_disk, fileFate]
  cases hf : Outline.ofFile s.disk path with
  | ok o => exact path_of_ofFile path hf ▸ keep_eq _ o
  | error => rfl

variable {setting reference path s}

lemma fetchFile_eq {reply : Except Repository.Failure String} {past : List Http.Exchange}
    (hf : fetched setting reference path s.past = (reply, past)) :
    fetchFile setting reference path s =
      ({ s with past }.note [.event (.parsing path)]).settle path (fun _ => []) (remoteFate path reply) := by
  rw [fetchFile, bind_of_eq (emit_eq _ s), bind_of_eq (online_eq (s.note _) hf)]
  cases reply with
  | ok content => exact keep_eq _ _
  | error => rfl

end Sources

namespace Documents

def answered (network : Http.Network) (model : Model) (o : Outline) (past : List Http.Exchange) :
    Except Model.Failure String × List Http.Exchange :=
  model.complete none (Document.prompt o.path o.elements) network past

def documentFate (o : Outline) : Except Model.Failure String → Except Omission Document
  | .ok text => .ok ⟨o.path, text⟩
  | .error _ => .error .undocumented

def exportFate : Except Disk.Fault String → Except Omission String
  | .ok path => .ok path
  | .error _ => .error .unwritten

lemma ofOutline_eq {network : Http.Network} {model : Model} {o : Outline} {past next : List Http.Exchange}
    {reply : Except Model.Failure String} (ha : answered network model o past = (reply, next)) :
    Document.ofOutline model o network past = (reply.map (Document.mk o.path), next) := by
  rw [Document.ofOutline, Http.Online.bind_of_eq ha]
  cases reply <;> rfl

lemma generate_eq (network : Http.Network) (model : Model) (total : Nat) (o : Outline) (index : Nat) (s : State) :
    generate network model total (o, index) s =
      ({ s with past := (answered network model o s.past).2 }.note
        [.event (.documenting o.path index total), .asked (Document.prompt o.path o.elements)]).settle o.path
          (fun _ => []) (documentFate o (answered network model o s.past).1) := by
  cases ha : answered network model o s.past with
  | mk reply past =>
    rw [generate, bind_of_eq (emit_eq _ s), bind_of_eq (note_eq _ _),
      bind_of_eq (online_eq ((s.note _).note _) (ofOutline_eq ha))]
    cases reply <;> rfl

lemma write_eq (folder : String) (doc : Document) (s : State) :
    write folder doc s =
      { s with disk := (Document.exportTo folder doc s.disk).2 }.settle doc.path
        (fun path => [.event (.exported path)]) (exportFate (Document.exportTo folder doc s.disk).1) := by
  cases hx : Document.exportTo folder doc s.disk with
  | mk result disk =>
    rw [write, bind_of_eq (onDisk_eq s hx)]
    cases result <;> rfl

end Documents

end CodeOutline.Run
