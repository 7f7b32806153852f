import DialogueEngine.Coordinator.Basic

/-! # Driving a dialogue

The coordinator takes one yield after the other from the machine and hands it over, until the
dialogue is suspended or has ended.

* `Act.within` — host code that runs during a hand-over or inside a store. A live handle used
  during a hand-over only marks the suspension as ended, and the drive goes on when the hand-over
  is over.
* `Act.between` — host code that runs while no drive goes on: a live handle drives the dialogue.
-/

namespace DialogueEngine

variable {σ α : Type}

/-! ## Host code inside an operation -/

/-- Where host code runs. -/
inductive Place where
  /-- It has been handed something by the coordinator. -/
  | handover
  /-- It is a store that is being asked. -/
  | store
  deriving DecidableEq, Repr

/-- What the use of a handle does inside an operation. The machine cannot be asked for an option
    while it asks a store. -/
def Session.wake (place : Place) (s : Session σ) :
    Coordinator.Use σ → Except Fault (Answer σ Unit)
  | .ignored => .ok (.ok (), s)
  | .refused e => .ok (.error e, s)
  | .failed e =>
    match place with
    | .handover => .ok (.error e, s)
    | .store => .error .reentrantStore
  | .resumed c =>
    match place with
    | .handover => .ok (.ok (), s.withCoordinator { c with woken := true })
    | .store => .error .reentrantStore

/-- Lets a handle wait; without a time it is used at once. -/
def Session.delay (s : Session σ) (h : Continuation) (d : Duration)
    (use : Coordinator.Use σ → Except Fault (Answer σ Unit)) :
    Except Fault (Answer σ Unit) :=
  if d.isZero then use (s.coordinator.useContinuation h)
  else
    match s.coordinator.schedule? d h with
    | some c => .ok (.ok (), s.withCoordinator c)
    | none => .error .clockOverflow

def Act.within (place : Place) : Act σ α → Session σ → Except Fault (α × Session σ)
  | .done a, s => .ok (a, s)
  | .read k, s => (k s.host).within place s
  | .write h k, s => k.within place { s with host := h }
  | .resume h k, s =>
    match s.wake place (s.coordinator.useContinuation h) with
    | .error f => .error f
    | .ok (r, s) => (k r).within place s
  | .resumeAfter h d k, s =>
    match s.delay h d (s.wake place) with
    | .error f => .error f
    | .ok (r, s) => (k r).within place s
  | .select h id k, s =>
    match s.wake place (s.coordinator.useSelector h id) with
    | .error f => .error f
    | .ok (r, s) => (k r).within place s
  | .isStale h k, s => (k (!s.coordinator.isLive h.generation)).within place s

namespace Session

/-! ## One yield -/

inductive Turn where
  /-- The next turn. -/
  | again
  /-- The dialogue is suspended, or it is over. -/
  | rest
  /-- The dialogue cannot go on. -/
  | failed (e : EngineError)

def nextYield (s : Session σ) : Except Fault (Answer σ Yield) := do
  let act := s.coordinator.machine.next.onStore s.coordinator.store
  -- until the store has answered, `s` holds the machine as it was before
  let (((r, m), store), s) ← act.within .store s
  return (r, s.withCoordinator { s.coordinator with machine := m, store := store })

/-- Whether the dialogue goes on after a hand-over: if the suspension has ended in the meantime, or
    if it ends now because the host does not wait. -/
def afterHandover (s : Session σ) (pace : Pace) : Turn × Session σ :=
  let c := s.coordinator
  if c.woken then (.again, s.withCoordinator { c with woken := false })
  else
    match pace with
    | .proceed => (.again, s.withCoordinator c.invalidate)
    | .pause => (.rest, s)

def handedOver (r : Except CapabilityError Pace) (s : Session σ) : Turn × Session σ :=
  match r with
  | .ok pace => s.afterHandover pace
  | .error e => (.failed (.capability e), s)

def deliverLine (s : Session σ) (l : Line) : Except Fault (Turn × Session σ) := do
  let c := s.coordinator.suspend .line
  let act := c.presenter.showLine l c.text ⟨c.generation⟩
  let (r, s) ← act.within .handover (s.withCoordinator c)
  return s.handedOver r

def deliverChoices (s : Session σ) (cs : Choices) : Except Fault (Turn × Session σ) := do
  let c := s.coordinator.suspend (.choices cs.ids)
  let act := c.presenter.showChoices cs c.text ⟨c.generation⟩
  let (r, s) ← act.within .handover (s.withCoordinator c)
  -- no presenter passes over a choice
  return s.handedOver (r.map fun _ => .pause)

/-- Hands a command to its handler, and to the presenter if it has none. A command without words
    is passed over. -/
def deliverCommand (s : Session σ) (cmd : Command) : Except Fault (Turn × Session σ) := do
  if cmd.tokens.isEmpty then return s.afterHandover .proceed
  else
    match s.coordinator.commands.resolve cmd.tokens with
    | none =>
      -- while the table is lent out every look-up comes here
      if s.coordinator.lent then .error .reentrantCommands
      else
        let c := s.coordinator.suspend .command
        let act := c.presenter.runCommand cmd ⟨c.generation⟩
        let (r, s) ← act.within .handover (s.withCoordinator c)
        return s.handedOver r
    | some ⟨_, .immediate run, args⟩ =>
      let (_, s) ← (run args).within .handover s
      return s.afterHandover .proceed
    | some ⟨_, .blocking run, args⟩ =>
      let c := s.coordinator.suspend .command
      let (_, s) ← (run args ⟨c.generation⟩).within .handover (s.withCoordinator c)
      return s.afterHandover .pause

/-- The dialogue has come to its end: the host is told, and then the presenter. -/
def deliverEnd (s : Session σ) : Except Fault (Turn × Session σ) := do
  let c := { s.coordinator with phase := .completed }.invalidate
  let c := { c with timers := c.timers.clear }.emit .dialogueComplete
  let (r, s) ← c.presenter.completed.within .handover (s.withCoordinator c)
  match r with
  | .ok () => return (.rest, s)
  | .error e => return (.failed (.capability e), s)

def deliver (s : Session σ) : Yield → Except Fault (Turn × Session σ)
  | .line l => s.deliverLine l
  | .choices cs => s.deliverChoices cs
  | .command cmd => s.deliverCommand cmd
  | .nodeStart node => .ok (.again, s.withCoordinator (s.coordinator.emit (.nodeStart node)))
  | .nodeComplete node => .ok (.again, s.withCoordinator (s.coordinator.emit (.nodeComplete node)))
  | .dialogueComplete => s.deliverEnd

def turn (s : Session σ) : Except Fault (Turn × Session σ) := do
  if s.coordinator.isRunning then
    match ← s.nextYield with
    | (.ok y, s) => s.deliver y
    | (.error e, s) => return (.failed e, s)
  else return (.rest, s)

/-! ## Until the dialogue rests -/

def halt (s : Session σ) : Session σ := s.withCoordinator s.coordinator.halt

def settle (s : Session σ) : Session σ :=
  s.withCoordinator { s.coordinator with woken := false }

/-- Takes turns, at most a given number, until the dialogue rests. If it cannot go on it is
    ended. -/
def run : Nat → Session σ → Except Fault (Answer σ Unit)
  | 0, _ => .error .unfinished
  | limit + 1, s =>
    match s.turn with
    | .error f => .error f
    | .ok (.again, s) => run limit s
    | .ok (.rest, s) => .ok (.ok (), s.settle)
    | .ok (.failed e, s) => .ok (.error e, s.settle.halt)

def drive (limit : Nat) (s : Session σ) : Except Fault (Answer σ Unit) := run limit s.settle

/-- What the use of a handle does while no drive goes on. -/
def follow (limit : Nat) (s : Session σ) : Coordinator.Use σ → Except Fault (Answer σ Unit)
  | .ignored => .ok (.ok (), s)
  | .refused e | .failed e => .ok (.error e, s)
  | .resumed c => (s.withCoordinator c).drive limit

end Session

/-! ## Host code between operations -/

/-- Runs host code while no drive goes on. -/
def Act.between (limit : Nat) : Act σ α → Session σ → Except Fault (α × Session σ)
  | .done a, s => .ok (a, s)
  | .read k, s => (k s.host).between limit s
  | .write h k, s => k.between limit { s with host := h }
  | .resume h k, s =>
    match s.follow limit (s.coordinator.useContinuation h) with
    | .error f => .error f
    | .ok (r, s) => (k r).between limit s
  | .resumeAfter h d k, s =>
    match s.delay h d (s.follow limit) with
    | .error f => .error f
    | .ok (r, s) => (k r).between limit s
  | .select h id k, s =>
    match s.follow limit (s.coordinator.useSelector h id) with
    | .error f => .error f
    | .ok (r, s) => (k r).between limit s
  | .isStale h k, s => (k (!s.coordinator.isLive h.generation)).between limit s

end DialogueEngine
