import DialogueEngine.Coordinator.Operations
import DialogueEngine.Proofs.Coordinator.Suspension

/-! # Operations as data

What a host can do with a session, one thing after the other, so that statements can speak of
every finite sequence of operations.

* `Operation` — one operation, or host code that runs while none goes on.
* `Operation.perform` — the operation on a session.
* `Operation.importAll`, `Operation.scan` — the host's commands, taken in from a provider or from a
  tree of objects.
* `Session.performAll` — operations, one after the other, whatever they answer.
* `Session.opening` — a session as it is before the first operation.
-/

namespace DialogueEngine

/-- What a host can do with a session. -/
inductive Operation (σ : Type) where
  | prepare (programs : List Program)
  | load (programs : List Program)
  | add (program : Program)
  | start
  | startAt (node : String)
  | proceed
  | choose (id : Nat)
  | stop
  | reset
  | clear
  | update (delta : Duration)
  /-- Code of the host that runs while no operation goes on. It may use any handles. -/
  | host (act : Act σ Unit)
  | readVariable (name : String)
  | writeVariable (name : String) (value : Value)
  | clearVariables
  | resetVariables
  | setText (text : Line → String)
  | register (name : String) (handler : Handler σ)
  | unregister (name : String)
  /-- Code of the host that is lent the command table and gives another one back. -/
  | equip (act : CommandTable σ → Act σ (Except CapabilityError Unit × CommandTable σ))
  | drainEvents

variable {σ κ α β : Type}

def Operation.perform (limit : Nat) (s : Session σ) : Operation σ → Except Fault (Answer σ Unit)
  | .prepare programs => s.prepare limit programs
  | .load programs => s.load programs
  | .add p => s.add p
  | .start => s.start limit
  | .startAt node => s.startAt limit node
  | .proceed => s.proceed limit
  | .choose id => s.choose limit id
  | .stop => .ok (.ok (), s.stop)
  | .reset => s.reset limit
  | .clear => s.clear
  | .update delta => s.update limit delta
  | .host act => (act.between limit s).map fun r => (.ok (), r.2)
  | .readVariable name => (s.readVariable name).map fun r => (r.1.map fun _ => (), r.2)
  | .writeVariable name value => s.writeVariable name value
  | .clearVariables => s.clearVariables
  | .resetVariables => s.resetVariables
  | .setText text => .ok (.ok (), s.withText text)
  | .register name h => .ok (.ok (), (s.register name h).2)
  | .unregister name => .ok (.ok (), (s.unregister name).2)
  | .equip act => (s.equip limit act).map fun r => (Session.capability r.1, r.2)
  | .drainEvents => .ok (.ok (), s.drainEvents.2)

/-! ## Commands of the host -/

namespace Operation

def importAll (p : CommandProvider σ) : Operation σ :=
  .equip fun t => (t.importAll p).bind fun r => .done (r.1.map fun _ => (), r.2)

def scan (calls : HostCalls σ κ) (root : HostObject σ κ) : Operation σ :=
  .equip fun t => (t.scan calls root).bind fun r => .done (.ok (), r.2)

end Operation

/-- Host code that is lent the command table may give its result in another form. -/
theorem Session.equip_bind (limit : Nat) (s : Session σ)
    (act : CommandTable σ → Act σ (α × CommandTable σ)) (f : α → β) :
    s.equip limit (fun t => (act t).bind fun r => .done (f r.1, r.2)) =
      (s.equip limit act).map fun r => (f r.1, r.2) := by
  unfold equip
  rw [Act.between_bind]
  cases (act s.coordinator.commands).between limit s.lend <;> rfl

namespace Operation

theorem perform_importAll (limit : Nat) (s : Session σ) (p : CommandProvider σ) :
    (importAll p).perform limit s =
      (s.importAll limit p).map fun r => (r.1.map fun _ => (), r.2) := by
  have imported := Session.equip_bind limit s (CommandTable.importAll · p)
    (Except.map fun _ => ())
  rw [importAll, perform, Session.importAll, imported]
  cases s.equip limit (CommandTable.importAll · p) with
  | error f => rfl
  | ok r =>
    obtain ⟨r | r, s'⟩ := r <;> rfl

theorem perform_scan (limit : Nat) (s : Session σ) (calls : HostCalls σ κ)
    (root : HostObject σ κ) :
    (scan calls root).perform limit s =
      (s.scan limit calls root).map fun r => (.ok (), r.2) := by
  have scanned := Session.equip_bind limit s (CommandTable.scan calls · root)
    fun _ => (.ok () : Except CapabilityError Unit)
  rw [scan, perform, Session.scan, scanned]
  cases s.equip limit (CommandTable.scan calls · root) <;> rfl

end Operation

namespace Session

/-- Operations, one after the other. An error that one of them answers with does not keep the
    host from the next. -/
def performAll (limit : Nat) : List (Operation σ) → Session σ → Except Fault (Session σ)
  | [], s => .ok s
  | op :: ops, s =>
    match op.perform limit s with
    | .error f => .error f
    | .ok (_, s) => performAll limit ops s

/-- A session before its first operation: any presenter, store, settings, texts, handlers and
    host. -/
def opening (presenter : Presenter σ) (store : Store σ) (settings : Settings)
    (text : Line → String) (commands : CommandTable σ) (host : σ) : Session σ :=
  ⟨{ Coordinator.new presenter store settings with text := text, commands := commands }, host⟩

end Session

/-! ## A small session -/

/-- A presenter that waits for every handle. -/
def Presenter.waiting : Presenter σ where
  started _ := .done (.ok ())
  completed := .done (.ok ())
  showChoices _ _ _ := .done (.ok ())
  showLine _ _ _ := .done (.ok .pause)
  runCommand _ _ := .done (.ok .pause)

def Program.ofNode (name : String) (instructions : List Instruction) : Program :=
  ⟨"", ⟨[(name, ⟨[], instructions⟩)], List.pairwise_singleton _ _⟩⟩

/-- A session with a presenter that waits, and nothing else. -/
def Session.plain (presenter : Presenter σ) (host : σ) : Session σ :=
  opening presenter (.memory .empty) .default (fun l => l.id) .empty host

/-- Operations up to an option that leads to where it is offered. -/
def Operation.offering : List (Operation σ) :=
  [.add (.ofNode "Start" [.addOption "a" [] "Start", .showOptions]), .start]

end DialogueEngine
