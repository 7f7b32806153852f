import DialogueEngine.Commands.Wait
import DialogueEngine.Coordinator.Settings
import DialogueEngine.Coordinator.Timers
import DialogueEngine.Machine.Step
import DialogueEngine.Store
import DialogueEngine.StringTable

/-! # The coordinator

The coordinator drives the machine and hands what it yields to the presenter and to command
handlers. While one of them holds the dialogue it is suspended, and the suspension has a number.
The handle that was given out carries that number and is live as long as the suspension lasts;
afterwards it is void and does nothing.

* `Coordinator.suspend`, `Coordinator.invalidate` — the beginning and the end of a suspension.
* `Coordinator.useContinuation`, `Coordinator.useSelector` — what the use of a handle does.
* `Session` — a coordinator together with the state of its host.
* `Fault` — what breaks an operation off.
-/

namespace DialogueEngine

/-- What a dialogue is suspended on. -/
inductive Suspension where
  | line
  /-- Options with the given numbers. -/
  | choices (ids : List Nat)
  | command
  deriving DecidableEq, Repr

structure Coordinator (σ : Type) where
  machine : Machine
  store : Store σ
  phase : Phase
  settings : Settings
  presenter : Presenter σ
  /-- The text of a line. -/
  text : Line → String
  commands : CommandTable σ
  /-- Whether the command table is lent to host code that adds to it. In the meantime the table
      here is empty, and no command can be looked up. -/
  lent : Bool
  timers : Timers
  /-- The number of the last suspension, or a later one if it is over. -/
  generation : Nat
  suspension : Option Suspension
  /-- Events that the host has not taken yet. -/
  events : List LifecycleEvent
  /-- Whether the present suspension has ended while it was still being handed over. -/
  woken : Bool

namespace Coordinator

variable {σ : Type}

/-- A coordinator without a program. It knows the command `wait` and no texts. -/
def new (presenter : Presenter σ) (store : Store σ) (settings : Settings) : Coordinator σ where
  machine := .empty
  store := store
  phase := .notStarted
  settings := settings
  presenter := presenter
  text := StringTable.empty.resolve
  commands := .builtin
  lent := false
  timers := .empty
  generation := 0
  suspension := none
  events := []
  woken := false

def native (presenter : Presenter σ) (settings : Settings) : Coordinator σ :=
  new presenter (.memory (.ofDefaults settings.initialVariables)) settings

def isRunning (c : Coordinator σ) : Bool := c.phase = .running

def isLive (c : Coordinator σ) (generation : Nat) : Bool :=
  c.generation = generation && c.suspension.isSome

/-- Begins a suspension; its number is one more than the last. -/
def suspend (c : Coordinator σ) (s : Suspension) : Coordinator σ :=
  { c with generation := c.generation + 1, suspension := some s }

/-- Ends the suspension, and with it the waits that belong to it. -/
def invalidate (c : Coordinator σ) : Coordinator σ :=
  -- no suspension ever has this number: the next one counts on
  let c := { c with generation := c.generation + 1, suspension := none }
  { c with timers := c.timers.retain fun h => c.isLive h.generation }

def emit (c : Coordinator σ) (e : LifecycleEvent) : Coordinator σ :=
  { c with events := c.events ++ [e] }

def halt (c : Coordinator σ) : Coordinator σ :=
  let c := { c with machine := c.machine.stop, phase := .completed }.invalidate
  { c with timers := c.timers.clear }

/-- What the use of a handle does. -/
inductive Use (σ : Type) where
  /-- Nothing: the handle is void. -/
  | ignored
  /-- There is no such option, and the suspension lasts. -/
  | refused (e : EngineError)
  /-- The machine does not go on with the option, and the suspension lasts. -/
  | failed (e : EngineError)
  /-- The suspension ends, and the dialogue goes on from a new state. -/
  | resumed (c : Coordinator σ)

def useContinuation (c : Coordinator σ) (h : Continuation) : Use σ :=
  if c.isLive h.generation && c.isRunning then .resumed c.invalidate else .ignored

def pick (c : Coordinator σ) (id : Nat) : Use σ :=
  match c.suspension with
  | some (.choices ids) =>
    if id ∈ ids then
      -- fails if the node that the option leads to does not exist
      match c.machine.choose id with
      | .ok m => .resumed { c with machine := m }.invalidate
      | .error e => .failed (.runtime e)
    else .refused (.runtime (.invalidOption id))
  | _ => .refused (.runtime (.invalidOption id))

def useSelector (c : Coordinator σ) (h : Selector) (id : Nat) : Use σ :=
  if c.isLive h.generation then c.pick id else .ignored

def schedule? (c : Coordinator σ) (d : Duration) (h : Continuation) : Option (Coordinator σ) :=
  (c.timers.schedule? d h).map fun t => { c with timers := t }

end Coordinator

/-- What breaks an operation off. -/
inductive Fault where
  /-- Time has passed beyond the largest duration. -/
  | clockOverflow
  /-- A store moved the dialogue on while it was being asked. -/
  | reentrantStore
  /-- A command was to be looked up while the command table was lent out. -/
  | reentrantCommands
  /-- More has been handed out than the operation was allowed. -/
  | unfinished
  deriving DecidableEq, Repr

def Fault.message : Fault → String
  | .clockOverflow => "overflow when adding durations"
  | .reentrantStore => "the store is in use"
  | .reentrantCommands => "the command table is in use"
  | .unfinished => "the dialogue does not come to rest"

/-- A coordinator together with the state of its host. -/
structure Session (σ : Type) where
  coordinator : Coordinator σ
  host : σ

abbrev Answer (σ α : Type) := Except EngineError α × Session σ

namespace Session

variable {σ α : Type}

def withCoordinator (s : Session σ) (c : Coordinator σ) : Session σ := { s with coordinator := c }

end Session

end DialogueEngine
