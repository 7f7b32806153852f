import DialogueEngine.Coordinator.Drive
import DialogueEngine.Commands.Scan

/-! # Operations of a session

What the host can do with a dialogue. An operation that the state of the dialogue does not allow
answers with an error. Operations that drive the dialogue are given the number of yields after
which they are broken off.

* `load`, `add`, `clear` — the program.
* `start`, `startAt`, `proceed`, `choose`, `stop`, `reset` — the course of the dialogue.
* `prepare` — everything needed before the first line.
* `readVariable`, `writeVariable`, `clearVariables`, `resetVariables` — the store.
* `register`, `equip`, `importAll`, `scan` — the command table.
-/

namespace DialogueEngine.Session

variable {σ κ : Type}

def refuse {α : Type} (s : Session σ) (e : RuntimeError) : Except Fault (Answer σ α) :=
  .ok (.error (.runtime e), s)

def capability {α : Type} (r : Except CapabilityError α) : Except EngineError α :=
  r.mapError .capability

/-! ## Variables -/

def readVariable (s : Session σ) (name : String) : Except Fault (Answer σ (Option Value)) := do
  let (r, s) ← (s.coordinator.store.get name).within .store s
  return (capability r, s)

def changeStore (s : Session σ) (act : Act σ (Except CapabilityError Unit × Store σ)) :
    Except Fault (Answer σ Unit) := do
  let ((r, store), s) ← act.within .store s
  return (capability r, s.withCoordinator { s.coordinator with store := store })

def writeVariable (s : Session σ) (name : String) (value : Value) :
    Except Fault (Answer σ Unit) :=
  s.changeStore (s.coordinator.store.set name value)

def clearVariables (s : Session σ) : Except Fault (Answer σ Unit) :=
  s.changeStore s.coordinator.store.clear

def resetVariables (s : Session σ) : Except Fault (Answer σ Unit) :=
  s.changeStore s.coordinator.store.reset

/-! ## The program -/

def load (s : Session σ) (programs : List Program) : Except Fault (Answer σ Unit) :=
  if s.coordinator.isRunning then s.refuse (.dialogueActive "load")
  else
    match Program.combine programs with
    | .error e => .ok (.error (.program e), s)
    | .ok p =>
      .ok (.ok (), s.withCoordinator
        { s.coordinator with machine := s.coordinator.machine.load p })

def add (s : Session σ) (p : Program) : Except Fault (Answer σ Unit) :=
  match s.coordinator.machine.add p with
  | .error e => .ok (.error (.program e), s)
  | .ok m => .ok (.ok (), s.withCoordinator { s.coordinator with machine := m })

def clear (s : Session σ) : Except Fault (Answer σ Unit) :=
  if s.coordinator.isRunning then s.refuse (.dialogueActive "clear")
  else
    .ok (.ok (), s.withCoordinator { s.coordinator with machine := s.coordinator.machine.unload })

def tags (s : Session σ) (node : String) : Except EngineError (List String) :=
  match s.coordinator.machine.tags? node with
  | some tags => .ok tags
  | none => .error (.runtime (.unknownNode node))

/-! ## The course of the dialogue -/

def startAt (limit : Nat) (s : Session σ) (node : String) : Except Fault (Answer σ Unit) :=
  if s.coordinator.isRunning then s.refuse (.dialogueActive "start")
  else
    match s.coordinator.machine.enter node with
    | .error e => s.refuse e
    | .ok m => do
      let c := { s.coordinator with machine := m, phase := .running }.invalidate
      let c := { c with timers := c.timers.clear }
      let (r, s) ← (c.presenter.started node).within .handover (s.withCoordinator c)
      match r with
      | .error e => return (.error (.capability e), s.halt)
      | .ok () => s.drive limit

def start (limit : Nat) (s : Session σ) : Except Fault (Answer σ Unit) :=
  s.startAt limit s.coordinator.settings.startNode

/-- Goes on without the handle of the line or command that the dialogue is suspended on. -/
def proceed (limit : Nat) (s : Session σ) : Except Fault (Answer σ Unit) :=
  if s.coordinator.isRunning then
    match s.coordinator.suspension with
    | some (.choices _) => s.refuse .awaitingSelection
    | _ => (s.withCoordinator s.coordinator.invalidate).drive limit
  else s.refuse .notRunning

def choose (limit : Nat) (s : Session σ) (id : Nat) : Except Fault (Answer σ Unit) :=
  if s.coordinator.isRunning then s.follow limit (s.coordinator.pick id)
  else s.refuse .notRunning

def stop (s : Session σ) : Session σ := s.halt

def reset (limit : Nat) (s : Session σ) : Except Fault (Answer σ Unit) := do
  -- the dialogue is over even if the store fails
  match ← s.stop.resetVariables with
  | (.error e, s) => return (.error e, s)
  | (.ok (), s) => s.start limit

/-- Gives all variables their first values, loads programs if there are any, and starts if the
    settings say so. -/
def prepare (limit : Nat) (s : Session σ) (programs : List Program) :
    Except Fault (Answer σ Unit) := do
  -- also while a dialogue is going on, which only `load` and `start` refuse
  match ← s.resetVariables with
  | (.error e, s) => return (.error e, s)
  | (.ok (), s) =>
    match ← if programs.isEmpty then .ok (.ok (), s) else s.load programs with
    | (.error e, s) => return (.error e, s)
    | (.ok (), s) =>
      if s.coordinator.settings.startAutomatically then s.start limit else return (.ok (), s)

/-- Uses handles whose time has come, up to the first error. -/
def resumeAll (limit : Nat) (s : Session σ) : List Continuation → Except Fault (Answer σ Unit)
  | [] => .ok (.ok (), s)
  | h :: rest => do
    match ← s.follow limit (s.coordinator.useContinuation h) with
    | (.error e, s) => return (.error e, s)
    | (.ok (), s) => resumeAll limit s rest

def update (limit : Nat) (s : Session σ) (delta : Duration) : Except Fault (Answer σ Unit) :=
  match s.coordinator.timers.advance? delta with
  | none => .error .clockOverflow
  | some (due, timers) =>
    -- all that is due leaves the timers first, also what an error then leaves unused
    (s.withCoordinator { s.coordinator with timers := timers }).resumeAll limit due

/-! ## The host's side -/

def drainEvents (s : Session σ) : List LifecycleEvent × Session σ :=
  (s.coordinator.events, s.withCoordinator { s.coordinator with events := [] })

def withText (s : Session σ) (text : Line → String) : Session σ :=
  s.withCoordinator { s.coordinator with text := text }

/-- The session while its command table is lent out. -/
def lend (s : Session σ) : Session σ :=
  s.withCoordinator { s.coordinator with commands := .empty, lent := true }

def withCommands (s : Session σ) (t : CommandTable σ) : Session σ :=
  s.withCoordinator { s.coordinator with commands := t, lent := false }

def register (s : Session σ) (name : String) (h : Handler σ) : Bool × Session σ :=
  let (free, t) := s.coordinator.commands.insert name h
  (free, s.withCommands t)

def unregister (s : Session σ) (name : String) : Bool × Session σ :=
  let (taken, t) := s.coordinator.commands.remove name
  (taken, s.withCommands t)

/-- Lends the command table to host code, which gives another one back. If it uses a live handle
    in the meantime the dialogue goes on, but only up to the first command. -/
def equip {α : Type} (limit : Nat) (s : Session σ)
    (act : CommandTable σ → Act σ (α × CommandTable σ)) : Except Fault (α × Session σ) := do
  let ((a, t), s) ← (act s.coordinator.commands).between limit s.lend
  return (a, s.withCommands t)

def importAll (limit : Nat) (s : Session σ) (p : CommandProvider σ) :
    Except Fault (Answer σ Nat) :=
  (s.equip limit (·.importAll p)).map fun r => (capability r.1, r.2)

def scan (limit : Nat) (calls : HostCalls σ κ) (s : Session σ) (root : HostObject σ κ) :
    Except Fault (Nat × Session σ) :=
  s.equip limit (·.scan calls root)

end DialogueEngine.Session
