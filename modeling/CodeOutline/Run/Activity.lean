import CodeOutline.Run.Basic

/-! Activities of a run: they change the disk, use the network and leave notices of what they do. -/

namespace CodeOutline.Run

/-- What can be noticed of a run while it goes on. -/
inductive Notice where
  | event (event : Event)
  /-- Text for the user who is asked to choose. -/
  | shown (text : String)
  /-- A prompt to the language model. -/
  | asked (prompt : String)
deriving DecidableEq, Repr

/-- What a run meets and does not change. -/
structure Setting where
  config : Config
  client : Repository.Client
  env : Environment
  network : Http.Network
  /-- What the user types. -/
  input : List UInt8

def Setting.ofConfig (config : Config) (env : Environment) (network : Http.Network) (input : List UInt8) :
    Setting :=
  ⟨config, .ofConfig config.repository, env, network, input⟩

structure State where
  disk : Disk
  /-- The conversation with the network, oldest exchange first. -/
  past : List Http.Exchange
  notices : Array Notice

def State.start (disk : Disk) : State := ⟨disk, [], #[]⟩

namespace Notice

def event? : Notice → Option Event
  | event e => some e
  | _ => none

def prompt? : Notice → Option String
  | asked prompt => some prompt
  | _ => none

end Notice

def State.events (s : State) : List Event := s.notices.toList.filterMap Notice.event?

def State.prompts (s : State) : List String := s.notices.toList.filterMap Notice.prompt?

abbrev Activity (α : Type) := StateM State α

namespace Activity

theorem bind_of_eq {α β : Type} {x : Activity α} {f : α → Activity β} {s next : State} {a : α}
    (h : x s = (a, next)) : (x >>= f) s = f a next := by
  change f (x s).1 (x s).2 = _
  rw [h]

def note (n : Notice) : Activity Unit := modify fun s => { s with notices := s.notices.push n }

def emit (e : Event) : Activity Unit := note (.event e)

/-- Goes on without a file. -/
def skip {α : Type} (path : String) (why : Omission) : Activity (Option α) := do
  emit (.skipped path why)
  return none

def online {α : Type} (network : Http.Network) (x : Http.Online α) : Activity α := fun s =>
  let (a, past) := x network s.past
  (a, { s with past })

/-- An activity on the disk. -/
def onDisk {α : Type} (f : Disk → α × Disk) : Activity α := fun s =>
  let (a, disk) := f s.disk
  (a, { s with disk })

/-- What an activity gives for the members of a list, in turn, where it gives something. -/
def gather {α β : Type} (f : α → Activity (Option β)) : List α → Activity (List β)
  | [] => pure []
  | a :: rest => do
    let given ← f a
    return given.toList ++ (← gather f rest)

end Activity

end CodeOutline.Run
