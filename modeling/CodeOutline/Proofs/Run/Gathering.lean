import CodeOutline.Run.Activity
import Mathlib.Data.List.Basic

/-! Activities on the members of a list in turn: what each of them does makes up what they do together. -/

namespace CodeOutline.Run

open Activity

variable {α β : Type} {f : α → Activity (Option β)} {s after : State} {items : List α} {results : List β}

/-- From state to state through the members of a list, each of which gives a result or is passed over. -/
inductive Gathering (f : α → Activity (Option β)) : State → List α → List β → State → Prop
  | nil {s : State} : Gathering f s [] [] s
  | kept {s next after : State} {a : α} {b : β} {rest : List α} {results : List β} : f a s = (some b, next) →
      Gathering f next rest results after → Gathering f s (a :: rest) (b :: results) after
  | passed {s next after : State} {a : α} {rest : List α} {results : List β} : f a s = (none, next) →
      Gathering f next rest results after → Gathering f s (a :: rest) results after

lemma gather_cons (f : α → Activity (Option β)) (a : α) (rest : List α) (s : State) :
    gather f (a :: rest) s =
      ((f a s).1.toList ++ (gather f rest (f a s).2).1, (gather f rest (f a s).2).2) := rfl

lemma gathering_gather (f : α → Activity (Option β)) (items : List α) (s : State) :
    Gathering f s items (gather f items s).1 (gather f items s).2 := by
  induction items generalizing s with
  | nil => exact .nil
  | cons a rest ih =>
    rw [gather_cons]
    cases hf : f a s with
    | mk given next =>
      cases given with
      | none => exact .passed hf (ih next)
      | some b => exact .kept hf (ih next)

lemma gathering_of_gather (h : gather f items s = (results, after)) : Gathering f s items results after := by
  have hsteps := gathering_gather f items s
  rw [h] at hsteps
  exact hsteps

lemma Gathering.preserves {γ : Type} {view : State → γ} (hf : ∀ a s, view (f a s).2 = view s)
    (h : Gathering f s items results after) : view after = view s := by
  induction h with
  | nil => rfl
  | @kept s _ _ a _ _ _ hstep _ ih =>
    have hview := hf a s
    rw [hstep] at hview
    exact ih.trans hview
  | @passed s _ _ a _ _ hstep _ ih =>
    have hview := hf a s
    rw [hstep] at hview
    exact ih.trans hview

namespace State

def note (s : State) (notices : List Notice) : State := { s with notices := notices.foldl Array.push s.notices }

variable (s : State) (notices more : List Notice)

@[simp] lemma note_disk : (s.note notices).disk = s.disk := rfl

@[simp] lemma note_past : (s.note notices).past = s.past := rfl

@[simp] lemma note_note : (s.note notices).note more = s.note (notices ++ more) := by
  simp [note]

lemma toList_note : (s.note notices).notices.toList = s.notices.toList ++ notices := by
  simp [note]

@[simp] lemma events_note : (s.note notices).events = s.events ++ notices.filterMap Notice.event? := by
  rw [events, toList_note, List.filterMap_append, events]

@[simp] lemma prompts_note : (s.note notices).prompts = s.prompts ++ notices.filterMap Notice.prompt? := by
  rw [prompts, toList_note, List.filterMap_append, prompts]

/-- The state after an item whose result is told of, or which is passed over for a reason. -/
def settle (path : String) (told : β → List Notice) : Except Omission β → Option β × State
  | .ok b => (some b, s.note (told b))
  | .error why => (none, s.note [.event (.skipped path why)])

@[simp] lemma settle_past (path : String) (told : β → List Notice) (fate : Except Omission β) :
    (s.settle path told fate).2.past = s.past := by
  cases fate <;> rfl

end State

namespace Activity

variable {a : α} {network : Http.Network} {past : List Http.Exchange} {disk : Disk}

lemma get_eq (s : State) : (get : Activity State) s = (s, s) := rfl

lemma emit_eq (e : Event) (s : State) : emit e s = ((), s.note [.event e]) := rfl

lemma note_eq (n : Notice) (s : State) : note n s = ((), s.note [n]) := rfl

lemma online_eq (s : State) {x : Http.Online α} (h : x network s.past = (a, past)) :
    online network x s = (a, { s with past }) := by
  rw [online, h]

lemma onDisk_eq (s : State) {f : Disk → α × Disk} (h : f s.disk = (a, disk)) : onDisk f s = (a, { s with disk }) := by
  rw [onDisk, h]

end Activity

end CodeOutline.Run
