import DialogueEngine.Proofs.Session.Operation

/-! # Operations with a record of what happens

Every function that runs a session, once more, with a record of what happens on the way: the
moments at which host code is about to act, the handles given out and used, what the machine was
asked and what has been handed over. The record decides nothing: without it the functions are
those of the coordinator (`Recorded.outcome_perform`, `Recorded.outcome_history`).

* `Handle` — a continuation or a selector.
* `Change` — a change of the variables by the host.
* `Happening` — what is recorded.
* `Errand` — on whose behalf host code runs inside an operation.
* `Recorded` — a result together with its record. If the operation breaks off the record tells
  what happened until then.
* `Recorded.perform`, `Recorded.history` — operations with their record.
-/

namespace DialogueEngine

variable {σ α β γ : Type}

/-! ## What is recorded -/

inductive Handle where
  | continuation (c : Continuation)
  | selector (s : Selector)
  deriving DecidableEq, Repr

namespace Handle

def generation : Handle → Nat
  | .continuation c => c.generation
  | .selector s => s.generation

/-- The handle that is given out with a suspension. -/
def ofSuspension (w : Suspension) (generation : Nat) : Handle :=
  match w with
  | .choices _ => .selector ⟨generation⟩
  | _ => .continuation ⟨generation⟩

@[simp] theorem generation_ofSuspension (w : Suspension) (n : Nat) :
    (ofSuspension w n).generation = n := by
  cases w <;> rfl

end Handle

inductive Change where
  | set (name : String) (value : Value)
  | clear
  | reset
  deriving DecidableEq

namespace Change

/-- The change, as the store carries it out. -/
def act (store : Store σ) : Change → Act σ (Except CapabilityError Unit × Store σ)
  | .set name value => store.set name value
  | .clear => store.clear
  | .reset => store.reset

def onMemory (m : MemoryStore) : Change → MemoryStore
  | .set name value => m.set name value
  | .clear => m.clear
  | .reset => m.reset

/-- A store after a change. One of the host keeps its variables in the state of the host. -/
def onStore (change : Change) : Store σ → Store σ
  | .memory m => .memory (change.onMemory m)
  | .host h => .host h

end Change

/-- Something that happens to a session. -/
inductive Happening (σ : Type) where
  /-- Host code, or an operation, is about to act on the session. -/
  | moment (s : Session σ)
  /-- Host code uses a handle. -/
  | used (h : Handle)
  /-- Host code replaces the state of the host, other than in answer to the machine. -/
  | wrote (x : σ)
  /-- The host changes the variables. -/
  | changed (change : Change)
  | loaded (p : Program)
  | unloaded
  | added (p : Program)
  /-- The machine starts at a node. -/
  | entered (node : String)
  /-- The machine has been asked for the next yield. -/
  | stepped (r : Except EngineError Yield)
  /-- A yield goes to whom it is meant for, with a handle if the dialogue is suspended on it. -/
  | delivered (y : Yield) (h : Option Handle)
  /-- The machine goes on with an option. -/
  | picked (id : Nat)
  /-- The dialogue is ended at once, by the host or after an error. -/
  | halted (e : Option EngineError)

/-- On whose behalf host code runs inside an operation. -/
inductive Errand where
  /-- It has been handed something by the coordinator. -/
  | handover
  /-- The machine asks the store. -/
  | machine
  /-- The host itself asks the store. -/
  | client
  deriving DecidableEq

/-- Where host code runs. -/
def Errand.place : Errand → Place
  | .handover => .handover
  | .machine | .client => .store

/-- What is written down of a new state of the host. What a store does in answer to the machine is
    part of the machine's step. -/
def Errand.writes (e : Errand) (x : σ) : List (Happening σ) :=
  match e with
  | .machine => []
  | _ => [.wrote x]

/-- A result, or what broke the operation off, with the record of what has happened. -/
structure Recorded (σ α : Type) where
  happenings : List (Happening σ)
  outcome : Except Fault α

namespace Recorded

def bind (x : Recorded σ α) (f : α → Recorded σ β) : Recorded σ β :=
  match x.outcome with
  | .ok a => ⟨x.happenings ++ (f a).happenings, (f a).outcome⟩
  | .error e => ⟨x.happenings, .error e⟩

instance : Monad (Recorded σ) where
  pure a := ⟨[], .ok a⟩
  bind := bind

protected theorem bind_pure (x : Recorded σ α) : x.bind Pure.pure = x := by
  obtain ⟨l, e | a⟩ := x
  · rfl
  · exact congrArg (Recorded.mk · (.ok a)) (List.append_nil l)

protected theorem bind_assoc (x : Recorded σ α) (f : α → Recorded σ β) (g : β → Recorded σ γ) :
    (x.bind f).bind g = x.bind fun a => (f a).bind g := by
  obtain ⟨l, e | a⟩ := x
  · rfl
  · unfold bind
    cases outcome : (f a).outcome with
    | error e => simp only [outcome]
    | ok b => simp only [outcome, List.append_assoc]

instance : LawfulMonad (Recorded σ) :=
  .mk' _ Recorded.bind_pure (fun _ _ => rfl) Recorded.bind_assoc

def note (l : List (Happening σ)) : Recorded σ Unit := ⟨l, .ok ()⟩

def quiet (x : Except Fault α) : Recorded σ α := ⟨[], x⟩

@[simp] theorem outcome_bind (x : Recorded σ α) (f : α → Recorded σ β) :
    (x >>= f).outcome = x.outcome >>= fun a => (f a).outcome := by
  change (bind x f).outcome = _
  unfold bind
  split <;> simp_all [Bind.bind, Except.bind]

@[simp] theorem outcome_note_bind (l : List (Happening σ)) (f : Unit → Recorded σ β) :
    (note l >>= f).outcome = (f ()).outcome := rfl

theorem happenings_bind {x : Recorded σ α} {a : α} (h : x.outcome = .ok a)
    (f : α → Recorded σ β) : (x >>= f).happenings = x.happenings ++ (f a).happenings := by
  change (bind x f).happenings = _
  unfold bind
  rw [h]

theorem bind_fault {x : Recorded σ α} {e : Fault} (h : x.outcome = .error e)
    (f : α → Recorded σ β) : x >>= f = ⟨x.happenings, .error e⟩ := by
  change bind x f = _
  unfold bind
  rw [h]

theorem happenings_before_bind (x : Recorded σ α) (f : α → Recorded σ β) :
    x.happenings <+: (x >>= f).happenings := by
  change x.happenings <+: (bind x f).happenings
  unfold bind
  split
  · exact List.prefix_append _ _
  · exact List.prefix_refl _

/-! ## Host code inside an operation -/

/-- The use of a handle inside an operation: what is written down in any case, and what else if
    the dialogue goes on. -/
def wake (place : Place) (s : Session σ) (used more : List (Happening σ)) :
    Coordinator.Use σ → Recorded σ (Answer σ Unit)
  | .resumed c =>
    match place with
    | .handover => ⟨used ++ more, .ok (.ok (), s.withCoordinator { c with woken := true })⟩
    | .store => ⟨used, .error .reentrantStore⟩
  | use => ⟨used, s.wake place use⟩

def delay (s : Session σ) (k : Continuation) (d : Duration)
    (use : Coordinator.Use σ → Recorded σ (Answer σ Unit)) : Recorded σ (Answer σ Unit) :=
  if d.isZero then use (s.coordinator.useContinuation k)
  else
    match s.coordinator.schedule? d k with
    | some c => ⟨[.used (.continuation k)], .ok (.ok (), s.withCoordinator c)⟩
    | none => ⟨[.used (.continuation k)], .error .clockOverflow⟩

def within (e : Errand) : Act σ α → Session σ → Recorded σ (α × Session σ)
  | .done a, s => do
    note [.moment s]
    return (a, s)
  | .read k, s => do
    note [.moment s]
    within e (k s.host) s
  | .write x k, s => do
    note (.moment s :: e.writes x)
    within e k { s with host := x }
  | .resume h k, s => do
    note [.moment s]
    let (r, s) ← wake e.place s [.used (.continuation h)] [] (s.coordinator.useContinuation h)
    within e (k r) s
  | .resumeAfter h d k, s => do
    note [.moment s]
    let (r, s) ← delay s h d (wake e.place s [.used (.continuation h)] [])
    within e (k r) s
  | .select h id k, s => do
    note [.moment s]
    let (r, s) ←
      wake e.place s [.used (.selector h)] [.picked id] (s.coordinator.useSelector h id)
    within e (k r) s
  | .isStale h k, s => do
    note [.moment s]
    within e (k (!s.coordinator.isLive h.generation)) s

/-! ## The drive -/

def nextYield (s : Session σ) : Recorded σ (Answer σ Yield) := do
  let act := s.coordinator.machine.next.onStore s.coordinator.store
  let (((r, m), store), s) ← within .machine act s
  note [.stepped r]
  return (r, s.withCoordinator { s.coordinator with machine := m, store := store })

/-- A yield handed over with a suspension. -/
def handOver (s : Session σ) (y : Yield) (w : Suspension) (call : Nat → Act σ α) :
    Recorded σ (α × Session σ) := do
  let c := s.coordinator.suspend w
  note [.delivered y (some (.ofSuspension w c.generation))]
  within .handover (call c.generation) (s.withCoordinator c)

/-- A command on its way to its handler or to the presenter. One without words is handed over to
    nobody. -/
def deliverCommand (s : Session σ) (cmd : Command) : Recorded σ (Session.Turn × Session σ) := do
  if cmd.tokens.isEmpty then return s.afterHandover .proceed
  else
    match s.coordinator.commands.resolve cmd.tokens with
    | none =>
      if s.coordinator.lent then quiet (.error .reentrantCommands)
      else
        let (r, s) ← handOver s (.command cmd) .command fun n =>
          s.coordinator.presenter.runCommand cmd ⟨n⟩
        return s.handedOver r
    | some ⟨_, .immediate run, args⟩ =>
      note [.delivered (.command cmd) none]
      let (_, s) ← within .handover (run args) s
      return s.afterHandover .proceed
    | some ⟨_, .blocking run, args⟩ =>
      let (_, s) ← handOver s (.command cmd) .command fun n => run args ⟨n⟩
      return s.afterHandover .pause

def deliverEnd (s : Session σ) : Recorded σ (Session.Turn × Session σ) := do
  let c := { s.coordinator with phase := .completed }.invalidate
  let c := { c with timers := c.timers.clear }.emit .dialogueComplete
  note [.delivered .dialogueComplete none]
  let (r, s) ← within .handover c.presenter.completed (s.withCoordinator c)
  match r with
  | .ok () => return (.rest, s)
  | .error e => return (.failed (.capability e), s)

def deliver (s : Session σ) (y : Yield) : Recorded σ (Session.Turn × Session σ) :=
  match y with
  | .line l => do
    let (r, s) ← handOver s y .line fun n =>
      s.coordinator.presenter.showLine l s.coordinator.text ⟨n⟩
    return s.handedOver r
  | .choices cs => do
    let (r, s) ← handOver s y (.choices cs.ids) fun n =>
      s.coordinator.presenter.showChoices cs s.coordinator.text ⟨n⟩
    return s.handedOver (r.map fun _ => .pause)
  | .command cmd => deliverCommand s cmd
  | .nodeStart node => do
    note [.delivered y none]
    return (.again, s.withCoordinator (s.coordinator.emit (.nodeStart node)))
  | .nodeComplete node => do
    note [.delivered y none]
    return (.again, s.withCoordinator (s.coordinator.emit (.nodeComplete node)))
  | .dialogueComplete => deliverEnd s

def turn (s : Session σ) : Recorded σ (Session.Turn × Session σ) := do
  if s.coordinator.isRunning then
    match ← nextYield s with
    | (.ok y, s) => deliver s y
    | (.error e, s) => return (.failed e, s)
  else return (.rest, s)

def run : Nat → Session σ → Recorded σ (Answer σ Unit)
  | 0, _ => quiet (.error .unfinished)
  | limit + 1, s => do
    match ← turn s with
    | (.again, s) => run limit s
    | (.rest, s) => return (.ok (), s.settle)
    | (.failed e, s) =>
      note [.halted (some e)]
      return (.error e, s.settle.halt)

/-- The use of a handle while no drive goes on: what is written down in any case, and what else if
    the dialogue goes on. -/
def follow (limit : Nat) (s : Session σ) (used more : List (Happening σ)) :
    Coordinator.Use σ → Recorded σ (Answer σ Unit)
  | .ignored => ⟨used, .ok (.ok (), s)⟩
  | .refused e | .failed e => ⟨used, .ok (.error e, s)⟩
  | .resumed c => do
    note (used ++ more)
    run limit (s.withCoordinator c).settle

/-! ## Host code between operations -/

def between (limit : Nat) : Act σ α → Session σ → Recorded σ (α × Session σ)
  | .done a, s => do
    note [.moment s]
    return (a, s)
  | .read k, s => do
    note [.moment s]
    between limit (k s.host) s
  | .write x k, s => do
    note [.moment s, .wrote x]
    between limit k { s with host := x }
  | .resume h k, s => do
    note [.moment s]
    let (r, s) ← follow limit s [.used (.continuation h)] [] (s.coordinator.useContinuation h)
    between limit (k r) s
  | .resumeAfter h d k, s => do
    note [.moment s]
    let (r, s) ← delay s h d (follow limit s [.used (.continuation h)] [])
    between limit (k r) s
  | .select h id k, s => do
    note [.moment s]
    let (r, s) ←
      follow limit s [.used (.selector h)] [.picked id] (s.coordinator.useSelector h id)
    between limit (k r) s
  | .isStale h k, s => do
    note [.moment s]
    between limit (k (!s.coordinator.isLive h.generation)) s

/-! ## Operations -/

def readVariable (s : Session σ) (name : String) : Recorded σ (Answer σ (Option Value)) := do
  let (r, s) ← within .client (s.coordinator.store.get name) s
  return (Session.capability r, s)

def changeStore (s : Session σ) (change : Change) : Recorded σ (Answer σ Unit) := do
  let ((r, store), s) ← within .client (change.act s.coordinator.store) s
  note [.changed change]
  return (Session.capability r, s.withCoordinator { s.coordinator with store := store })

def load (s : Session σ) (programs : List Program) : Recorded σ (Answer σ Unit) :=
  if s.coordinator.isRunning then quiet (s.load programs)
  else
    match Program.combine programs with
    | .error _ => quiet (s.load programs)
    | .ok p => ⟨[.loaded p], s.load programs⟩

def add (s : Session σ) (p : Program) : Recorded σ (Answer σ Unit) :=
  match s.coordinator.machine.add p with
  | .error _ => quiet (s.add p)
  | .ok _ => ⟨[.added p], s.add p⟩

def clear (s : Session σ) : Recorded σ (Answer σ Unit) :=
  if s.coordinator.isRunning then quiet s.clear else ⟨[.unloaded], s.clear⟩

def startAt (limit : Nat) (s : Session σ) (node : String) : Recorded σ (Answer σ Unit) :=
  if s.coordinator.isRunning then quiet (s.refuse (.dialogueActive "start"))
  else
    match s.coordinator.machine.enter node with
    | .error e => quiet (s.refuse e)
    | .ok m => do
      let c := { s.coordinator with machine := m, phase := .running }.invalidate
      let c := { c with timers := c.timers.clear }
      note [.entered node]
      let (r, s) ← within .handover (c.presenter.started node) (s.withCoordinator c)
      match r with
      | .error e =>
        note [.halted (some (.capability e))]
        return (.error (.capability e), s.halt)
      | .ok () => run limit s.settle

def start (limit : Nat) (s : Session σ) : Recorded σ (Answer σ Unit) :=
  startAt limit s s.coordinator.settings.startNode

def proceed (limit : Nat) (s : Session σ) : Recorded σ (Answer σ Unit) :=
  if s.coordinator.isRunning then
    match s.coordinator.suspension with
    | some (.choices _) => quiet (s.refuse .awaitingSelection)
    | _ => run limit (s.withCoordinator s.coordinator.invalidate).settle
  else quiet (s.refuse .notRunning)

def choose (limit : Nat) (s : Session σ) (id : Nat) : Recorded σ (Answer σ Unit) :=
  if s.coordinator.isRunning then follow limit s [] [.picked id] (s.coordinator.pick id)
  else quiet (s.refuse .notRunning)

def stop (s : Session σ) : Recorded σ (Answer σ Unit) := ⟨[.halted none], .ok (.ok (), s.stop)⟩

def reset (limit : Nat) (s : Session σ) : Recorded σ (Answer σ Unit) := do
  let (_, s) ← stop s
  match ← changeStore s .reset with
  | (.error e, s) => return (.error e, s)
  | (.ok (), s) => start limit s

def loadSome (s : Session σ) (programs : List Program) : Recorded σ (Answer σ Unit) :=
  if programs.isEmpty then pure (.ok (), s) else load s programs

def startIfSet (limit : Nat) (s : Session σ) : Recorded σ (Answer σ Unit) :=
  if s.coordinator.settings.startAutomatically then start limit s else pure (.ok (), s)

def prepare (limit : Nat) (s : Session σ) (programs : List Program) :
    Recorded σ (Answer σ Unit) := do
  match ← changeStore s .reset with
  | (.error e, s) => return (.error e, s)
  | (.ok (), s) =>
    match ← loadSome s programs with
    | (.error e, s) => return (.error e, s)
    | (.ok (), s) => startIfSet limit s

def resumeAll (limit : Nat) (s : Session σ) : List Continuation → Recorded σ (Answer σ Unit)
  | [] => pure (.ok (), s)
  | h :: rest => do
    match ← follow limit s [] [] (s.coordinator.useContinuation h) with
    | (.error e, s) => return (.error e, s)
    | (.ok (), s) => resumeAll limit s rest

def update (limit : Nat) (s : Session σ) (delta : Duration) : Recorded σ (Answer σ Unit) :=
  match s.coordinator.timers.advance? delta with
  | none => quiet (.error .clockOverflow)
  | some (due, timers) =>
    resumeAll limit (s.withCoordinator { s.coordinator with timers := timers }) due

def equip (limit : Nat) (s : Session σ)
    (act : CommandTable σ → Act σ (Except CapabilityError Unit × CommandTable σ)) :
    Recorded σ (Answer σ Unit) := do
  let ((r, t), s) ← between limit (act s.coordinator.commands) s.lend
  return (Session.capability r, s.withCommands t)

def perform (limit : Nat) (s : Session σ) : Operation σ → Recorded σ (Answer σ Unit)
  | .prepare programs => prepare limit s programs
  | .load programs => load s programs
  | .add p => add s p
  | .start => start limit s
  | .startAt node => startAt limit s node
  | .proceed => proceed limit s
  | .choose id => choose limit s id
  | .stop => stop s
  | .reset => reset limit s
  | .clear => clear s
  | .update delta => update limit s delta
  | .host act => do
    let (_, s) ← between limit act s
    return (.ok (), s)
  | .readVariable name => do
    let (r, s) ← readVariable s name
    return (r.map fun _ => (), s)
  | .writeVariable name value => changeStore s (.set name value)
  | .clearVariables => changeStore s .clear
  | .resetVariables => changeStore s .reset
  | .equip act => equip limit s act
  | op => quiet (op.perform limit s)

def history (limit : Nat) : List (Operation σ) → Session σ → Recorded σ (Session σ)
  | [], s => do
    note [.moment s]
    return s
  | op :: ops, s => do
    note [.moment s]
    let (_, s) ← perform limit s op
    history limit ops s

/-! ## The record decides nothing -/

theorem outcome_wake (place : Place) (s : Session σ) (used more : List (Happening σ))
    (use : Coordinator.Use σ) : (wake place s used more use).outcome = s.wake place use := by
  cases use with
  | ignored => rfl
  | refused e => rfl
  | failed e => rfl
  | resumed c => cases place <;> rfl

theorem outcome_delay {s : Session σ} {use : Coordinator.Use σ → Recorded σ (Answer σ Unit)}
    {plain : Coordinator.Use σ → Except Fault (Answer σ Unit)}
    (h : ∀ u, (use u).outcome = plain u) (k : Continuation) (d : Duration) :
    (delay s k d use).outcome = s.delay k d plain := by
  unfold delay Session.delay
  split
  · exact h _
  · cases s.coordinator.schedule? d k <;> rfl

theorem outcome_within (e : Errand) (act : Act σ α) (s : Session σ) :
    (within e act s).outcome = act.within e.place s := by
  induction act generalizing s with
  | done a => rfl
  | read k ih => exact ih s.host s
  | write x k ih => exact ih _
  | resume h k ih =>
    simp only [within, Act.within, outcome_bind, outcome_wake]
    cases s.wake e.place (s.coordinator.useContinuation h) with
    | error f => rfl
    | ok r => exact ih r.1 r.2
  | resumeAfter h d k ih =>
    simp only [within, Act.within, outcome_bind, outcome_delay (outcome_wake e.place s _ _)]
    cases s.delay h d (s.wake e.place) with
    | error f => rfl
    | ok r => exact ih r.1 r.2
  | select h id k ih =>
    simp only [within, Act.within, outcome_bind, outcome_wake]
    cases s.wake e.place (s.coordinator.useSelector h id) with
    | error f => rfl
    | ok r => exact ih r.1 r.2
  | isStale h k ih => exact ih _ s

theorem outcome_nextYield (s : Session σ) : (nextYield s).outcome = s.nextYield := by
  simp only [nextYield, Session.nextYield, outcome_bind, outcome_within]
  rfl

theorem outcome_handOver (s : Session σ) (y : Yield) (w : Suspension) (call : Nat → Act σ α) :
    (handOver s y w call).outcome =
      (call (s.coordinator.suspend w).generation).within .handover
        (s.withCoordinator (s.coordinator.suspend w)) :=
  outcome_within .handover _ _

theorem outcome_deliverCommand (s : Session σ) (cmd : Command) :
    (deliverCommand s cmd).outcome = s.deliverCommand cmd := by
  unfold deliverCommand Session.deliverCommand
  split
  · rfl
  · cases s.coordinator.commands.resolve cmd.tokens with
    | none =>
      dsimp only
      split
      · rfl
      · simp only [outcome_bind, outcome_handOver]
        rfl
    | some r =>
      obtain ⟨name, handler, args⟩ := r
      cases handler with
      | immediate run =>
        simp only [outcome_bind, outcome_within]
        rfl
      | blocking run =>
        simp only [outcome_bind, outcome_handOver]
        rfl

theorem outcome_deliverEnd (s : Session σ) : (deliverEnd s).outcome = s.deliverEnd := by
  unfold deliverEnd Session.deliverEnd
  rw [outcome_note_bind, outcome_bind, outcome_within]
  refine congrArg _ (funext fun r => ?_)
  obtain ⟨⟨⟩ | ⟨⟨⟩⟩, s⟩ := r <;> rfl

theorem outcome_deliver (s : Session σ) (y : Yield) : (deliver s y).outcome = s.deliver y := by
  cases y with
  | line l =>
    simp only [deliver, Session.deliver, Session.deliverLine, outcome_bind, outcome_handOver]
    rfl
  | choices cs =>
    simp only [deliver, Session.deliver, Session.deliverChoices, outcome_bind, outcome_handOver]
    rfl
  | command cmd => exact outcome_deliverCommand s cmd
  | nodeStart node => rfl
  | nodeComplete node => rfl
  | dialogueComplete => exact outcome_deliverEnd s

theorem outcome_turn (s : Session σ) : (turn s).outcome = s.turn := by
  unfold turn Session.turn
  split
  · simp only [outcome_bind, outcome_nextYield]
    refine congrArg _ (funext fun r => ?_)
    obtain ⟨e | y, s⟩ := r
    · rfl
    · exact outcome_deliver s y
  · rfl

theorem outcome_run (limit : Nat) (s : Session σ) : (run limit s).outcome = s.run limit := by
  induction limit generalizing s with
  | zero => rfl
  | succ limit ih =>
    simp only [run, Session.run, outcome_bind, outcome_turn]
    cases s.turn with
    | error f => rfl
    | ok r =>
      obtain ⟨_ | _ | e, s⟩ := r
      · exact ih s
      · rfl
      · rfl

theorem outcome_follow (limit : Nat) (s : Session σ) (used more : List (Happening σ))
    (use : Coordinator.Use σ) : (follow limit s used more use).outcome = s.follow limit use := by
  cases use with
  | ignored => rfl
  | refused e => rfl
  | failed e => rfl
  | resumed c => exact outcome_run limit _

theorem outcome_between (limit : Nat) (act : Act σ α) (s : Session σ) :
    (between limit act s).outcome = act.between limit s := by
  induction act generalizing s with
  | done a => rfl
  | read k ih => exact ih s.host s
  | write x k ih => exact ih _
  | resume h k ih =>
    simp only [between, Act.between, outcome_bind, outcome_follow]
    cases s.follow limit (s.coordinator.useContinuation h) with
    | error f => rfl
    | ok r => exact ih r.1 r.2
  | resumeAfter h d k ih =>
    simp only [between, Act.between, outcome_bind, outcome_delay (outcome_follow limit s _ _)]
    cases s.delay h d (s.follow limit) with
    | error f => rfl
    | ok r => exact ih r.1 r.2
  | select h id k ih =>
    simp only [between, Act.between, outcome_bind, outcome_follow]
    cases s.follow limit (s.coordinator.useSelector h id) with
    | error f => rfl
    | ok r => exact ih r.1 r.2
  | isStale h k ih => exact ih _ s

theorem outcome_changeStore (s : Session σ) (change : Change) :
    (changeStore s change).outcome = s.changeStore (change.act s.coordinator.store) := by
  simp only [changeStore, Session.changeStore, outcome_bind, outcome_within]
  rfl

theorem outcome_readVariable (s : Session σ) (name : String) :
    (readVariable s name).outcome = s.readVariable name := by
  simp only [readVariable, Session.readVariable, outcome_bind, outcome_within]
  rfl

theorem outcome_load (s : Session σ) (programs : List Program) :
    (load s programs).outcome = s.load programs := by
  unfold load
  split
  · rfl
  · cases Program.combine programs <;> rfl

theorem outcome_add (s : Session σ) (p : Program) : (add s p).outcome = s.add p := by
  unfold add
  cases s.coordinator.machine.add p <;> rfl

theorem outcome_clear (s : Session σ) : (clear s).outcome = s.clear := by
  unfold clear
  split <;> rfl

theorem outcome_startAt (limit : Nat) (s : Session σ) (node : String) :
    (startAt limit s node).outcome = s.startAt limit node := by
  unfold startAt Session.startAt
  split
  · rfl
  · cases s.coordinator.machine.enter node with
    | error e => rfl
    | ok m =>
      dsimp only
      rw [outcome_note_bind, outcome_bind, outcome_within]
      refine congrArg _ (funext fun r => ?_)
      obtain ⟨e | ⟨⟩, s⟩ := r
      · rfl
      · exact outcome_run limit _

theorem outcome_proceed (limit : Nat) (s : Session σ) :
    (proceed limit s).outcome = s.proceed limit := by
  unfold proceed Session.proceed
  split
  · rcases s.coordinator.suspension with _ | (_ | ids | _)
    · exact outcome_run limit _
    · exact outcome_run limit _
    · rfl
    · exact outcome_run limit _
  · rfl

theorem outcome_choose (limit : Nat) (s : Session σ) (id : Nat) :
    (choose limit s id).outcome = s.choose limit id := by
  unfold choose Session.choose
  split
  · exact outcome_follow limit s _ _ _
  · rfl

theorem outcome_reset (limit : Nat) (s : Session σ) :
    (reset limit s).outcome = s.reset limit := by
  change (changeStore s.stop .reset >>= _).outcome = _
  simp only [Session.reset, Session.resetVariables, outcome_bind, outcome_changeStore]
  refine congrArg _ (funext fun r => ?_)
  obtain ⟨e | ⟨⟩, s⟩ := r
  · rfl
  · exact outcome_startAt limit s _

theorem outcome_startIfSet (limit : Nat) (s : Session σ) :
    (startIfSet limit s).outcome =
      if s.coordinator.settings.startAutomatically then s.start limit else .ok (.ok (), s) := by
  unfold startIfSet
  split
  · exact outcome_startAt limit s _
  · rfl

theorem outcome_prepare (limit : Nat) (s : Session σ) (programs : List Program) :
    (prepare limit s programs).outcome = s.prepare limit programs := by
  simp only [prepare, Session.prepare, Session.resetVariables, outcome_bind, outcome_changeStore]
  refine congrArg _ (funext fun r => ?_)
  obtain ⟨e | ⟨⟩, s⟩ := r
  · rfl
  · unfold loadSome
    dsimp only
    split
    · exact outcome_startIfSet limit s
    · rw [outcome_bind, outcome_load]
      refine congrArg _ (funext fun r => ?_)
      obtain ⟨e | ⟨⟩, s⟩ := r
      · rfl
      · exact outcome_startIfSet limit s

theorem outcome_resumeAll (limit : Nat) (s : Session σ) (due : List Continuation) :
    (resumeAll limit s due).outcome = s.resumeAll limit due := by
  induction due generalizing s with
  | nil => rfl
  | cons h due ih =>
    simp only [resumeAll, Session.resumeAll, outcome_bind, outcome_follow]
    refine congrArg _ (funext fun r => ?_)
    obtain ⟨e | ⟨⟩, s⟩ := r
    · rfl
    · exact ih s

theorem outcome_update (limit : Nat) (s : Session σ) (delta : Duration) :
    (update limit s delta).outcome = s.update limit delta := by
  unfold update Session.update
  cases s.coordinator.timers.advance? delta with
  | none => rfl
  | some r => exact outcome_resumeAll limit _ _

theorem outcome_equip (limit : Nat) (s : Session σ)
    (act : CommandTable σ → Act σ (Except CapabilityError Unit × CommandTable σ)) :
    (equip limit s act).outcome = (Operation.equip act).perform limit s := by
  simp only [equip, Operation.perform, Session.equip, outcome_bind, outcome_between]
  cases (act s.coordinator.commands).between limit s.lend <;> rfl

/-- An operation with its record does what it does without. -/
theorem outcome_perform (limit : Nat) (s : Session σ) (op : Operation σ) :
    (perform limit s op).outcome = op.perform limit s := by
  cases op with
  | prepare programs => exact outcome_prepare limit s programs
  | load programs => exact outcome_load s programs
  | add p => exact outcome_add s p
  | start => exact outcome_startAt limit s _
  | startAt node => exact outcome_startAt limit s node
  | proceed => exact outcome_proceed limit s
  | choose id => exact outcome_choose limit s id
  | reset => exact outcome_reset limit s
  | clear => exact outcome_clear s
  | update delta => exact outcome_update limit s delta
  | host act =>
    simp only [perform, Operation.perform, outcome_bind, outcome_between]
    cases act.between limit s <;> rfl
  | readVariable name =>
    simp only [perform, Operation.perform, outcome_bind, outcome_readVariable]
    cases s.readVariable name <;> rfl
  | writeVariable name value => exact outcome_changeStore s _
  | clearVariables => exact outcome_changeStore s _
  | resetVariables => exact outcome_changeStore s _
  | equip act => exact outcome_equip limit s act
  | stop | setText | register | unregister | drainEvents => rfl

theorem outcome_history (limit : Nat) (ops : List (Operation σ)) (s : Session σ) :
    (history limit ops s).outcome = s.performAll limit ops := by
  induction ops generalizing s with
  | nil => rfl
  | cons op ops ih =>
    simp only [history, Session.performAll, outcome_bind, outcome_perform]
    cases op.perform limit s with
    | error f => rfl
    | ok r => exact ih r.2

end Recorded

end DialogueEngine
