import DialogueEngine.Proofs.Commands.Offers
import DialogueEngine.Proofs.Coordinator.Suspension

/-! # Sessions with a log of calls

Beside every session there is one whose presenter and handlers write down the calls that they get,
and which is the same otherwise: host code does the same in it and comes to the same.

* `HostCall` — a call of the presenter or of a handler.
* `Act.beside`, `Act.logged` — host code with a log beside its state, and code that is written down.
* `Session.logged` — a session with a log.
* `Act.within_beside` — host code in a session with a log.
* `Session.nextYield_logged` — the next yield.
-/

namespace DialogueEngine

variable {σ α β : Type}

/-- A call that the presenter or the handler of a command gets. -/
inductive HostCall where
  | started (node : String)
  | completed
  | choices (cs : Choices) (h : Selector)
  | line (l : Line) (k : Continuation)
  | command (cmd : Command) (k : Continuation)
  /-- The handler that is known by a name, and is done at once. -/
  | immediate (name : String) (args : List String)
  /-- The handler that is known by a name, and holds the dialogue. -/
  | blocking (name : String) (args : List String) (k : Continuation)
  deriving DecidableEq

/-! ## Host code with a log -/

namespace Act

/-- Host code on a part of the state, with a log beside it. -/
def beside (act : Act σ α) : Act (σ × List HostCall) α := act.focus Prod.fst fun x w => (x, w.2)

def logged (call : HostCall) (act : Act σ α) : Act (σ × List HostCall) α :=
  .read fun w => .write (w.1, w.2 ++ [call]) act.beside

theorem beside_bind (act : Act σ α) (f : α → Act σ β) :
    (act.bind f).beside = act.beside.bind fun a => (f a).beside := by
  induction act with
  | done a => rfl
  | read k ih => exact congrArg Act.read (funext fun w => ih w.1)
  | write x k ih => exact congrArg Act.read (funext fun w => congrArg (Act.write (x, w.2)) ih)
  | resume c k ih => exact congrArg (Act.resume c) (funext ih)
  | resumeAfter c d k ih => exact congrArg (Act.resumeAfter c d) (funext ih)
  | select h id k ih => exact congrArg (Act.select h id) (funext ih)
  | isStale c k ih => exact congrArg (Act.isStale c) (funext ih)

end Act

/-! ## What belongs to the host -/

/-- The same presenter, which writes its calls down. -/
def Presenter.logged (p : Presenter σ) : Presenter (σ × List HostCall) where
  started node := (p.started node).logged (.started node)
  completed := p.completed.logged .completed
  showChoices cs text h := (p.showChoices cs text h).logged (.choices cs h)
  showLine l text k := (p.showLine l text k).logged (.line l k)
  runCommand cmd k := (p.runCommand cmd k).logged (.command cmd k)

/-- The same handler, which writes its calls down under its name. -/
def Handler.logged (name : String) : Handler σ → Handler (σ × List HostCall)
  | .immediate run => .immediate fun args => (run args).logged (.immediate name args)
  | .blocking run => .blocking fun args k => (run args k).logged (.blocking name args k)

def Store.beside : Store σ → Store (σ × List HostCall)
  | .memory m => .memory m
  | .host h => .host
    { set := fun name value => (h.set name value).beside
      get := fun name => (h.get name).beside
      clear := h.clear.beside
      reset := h.reset.beside }

namespace CommandTable

/-- The same table, whose handlers write their calls down. -/
def logged (t : CommandTable σ) : CommandTable (σ × List HostCall) where
  handlers :=
    { entries := t.handlers.entries.map fun e => (e.1, e.2.logged e.1)
      sorted := by simpa [Entries.Sorted, List.pairwise_map] using t.handlers.sorted }

theorem find?_logged (t : CommandTable σ) (name : String) :
    t.logged.find? name = (t.find? name).map (Handler.logged name) := by
  change Entries.find? name (t.handlers.entries.map fun e => (e.1, e.2.logged e.1)) =
    (Entries.find? name t.handlers.entries).map (Handler.logged name)
  induction t.handlers.entries with
  | nil => rfl
  | cons e l ih =>
    by_cases same : name = e.1
    · simp [Entries.find?, same]
    · simp [Entries.find?, same, ih]

end CommandTable

/-- The same coordinator, whose presenter and handlers write their calls down. -/
def Coordinator.logged (c : Coordinator σ) : Coordinator (σ × List HostCall) where
  machine := c.machine
  store := c.store.beside
  phase := c.phase
  settings := c.settings
  presenter := c.presenter.logged
  text := c.text
  commands := c.commands.logged
  lent := c.lent
  timers := c.timers
  generation := c.generation
  suspension := c.suspension
  events := c.events
  woken := c.woken

/-- The same session with a log. -/
def Session.logged (s : Session σ) (log : List HostCall) : Session (σ × List HostCall) :=
  ⟨s.coordinator.logged, (s.host, log)⟩

/-- A result, with the same session with a log. -/
def Session.withLog (log : List HostCall) (r : α × Session σ) : α × Session (σ × List HostCall) :=
  (r.1, r.2.logged log)

/-- The same use of a handle. -/
def Coordinator.Use.logged : Coordinator.Use σ → Coordinator.Use (σ × List HostCall)
  | .ignored => .ignored
  | .refused e => .refused e
  | .failed e => .failed e
  | .resumed c => .resumed c.logged

/-! ## Host code inside an operation -/

namespace Coordinator

variable (c : Coordinator σ)

theorem useContinuation_logged (k : Continuation) :
    c.logged.useContinuation k = (c.useContinuation k).logged := by
  change (if c.isLive k.generation && c.isRunning then _ else _) = _
  rw [useContinuation]
  split <;> rfl

theorem pick_logged (id : Nat) : c.logged.pick id = (c.pick id).logged := by
  simp only [pick, show c.logged.suspension = c.suspension from rfl,
    show c.logged.machine = c.machine from rfl]
  cases c.suspension with
  | none => rfl
  | some w =>
    cases w with
    | line => rfl
    | command => rfl
    | choices ids =>
      by_cases offered : id ∈ ids
      · simp only [offered, if_true]
        cases c.machine.choose id <;> rfl
      · simp only [offered, if_false]
        rfl

theorem useSelector_logged (h : Selector) (id : Nat) :
    c.logged.useSelector h id = (c.useSelector h id).logged := by
  change (if c.isLive h.generation then _ else _) = _
  rw [useSelector, pick_logged]
  split <;> rfl

theorem schedule?_logged (k : Continuation) (d : Duration) :
    c.logged.schedule? d k = (c.schedule? d k).map logged := by
  change (c.timers.schedule? d k).map _ = ((c.timers.schedule? d k).map _).map _
  cases c.timers.schedule? d k <;> rfl

end Coordinator

namespace Session

/-- What goes on from sessions that are the same but for a log comes to the same. -/
theorem bind_withLog {log log' : List HostCall} {x : Except Fault (α × Session σ)}
    {f : α × Session σ → Except Fault (β × Session σ)}
    {g : α × Session (σ × List HostCall) → Except Fault (β × Session (σ × List HostCall))}
    (same : ∀ r, g (withLog log r) = (f r).map (withLog log')) :
    x.map (withLog log) >>= g = (x >>= f).map (withLog log') := by
  cases x with
  | error e => rfl
  | ok r => exact same r

variable (s : Session σ) (log : List HostCall)

theorem wake_logged (place : Place) (use : Coordinator.Use σ) :
    (s.logged log).wake place use.logged = (s.wake place use).map (withLog log) := by
  cases use with
  | ignored => rfl
  | refused e => rfl
  | failed e => cases place <;> rfl
  | resumed c => cases place <;> rfl

theorem delay_logged (place : Place) (k : Continuation) (d : Duration) :
    (s.logged log).delay k d ((s.logged log).wake place) =
      (s.delay k d (s.wake place)).map (withLog log) := by
  by_cases zero : d.isZero = true
  · simp only [delay, zero, if_true, ← wake_logged, ← Coordinator.useContinuation_logged]
    rfl
  · have scheduled := s.coordinator.schedule?_logged k d
    simp only [delay, zero, Bool.false_eq_true, if_false,
      show (s.logged log).coordinator = s.coordinator.logged from rfl, scheduled]
    cases s.coordinator.schedule? d k <;> rfl

end Session

/-- Host code does the same beside a log. -/
theorem Act.within_beside (act : Act σ α) (place : Place) (s : Session σ) (log : List HostCall) :
    act.beside.within place (s.logged log) = (act.within place s).map (Session.withLog log) := by
  induction act generalizing s with
  | done a => rfl
  | read k ih => exact ih s.host s
  | write x k ih => exact ih { s with host := x }
  | resume c k ih =>
    change ((resume c fun r => (k r).beside).within place (s.logged log)) = _
    rw [within_resume, within_resume]
    change (s.logged log).wake place (s.coordinator.logged.useContinuation c) >>= _ = _
    rw [Coordinator.useContinuation_logged, Session.wake_logged]
    exact Session.bind_withLog fun r => ih r.1 r.2
  | resumeAfter c d k ih =>
    change ((resumeAfter c d fun r => (k r).beside).within place (s.logged log)) = _
    rw [within_resumeAfter, within_resumeAfter, Session.delay_logged]
    exact Session.bind_withLog fun r => ih r.1 r.2
  | select h id k ih =>
    change ((select h id fun r => (k r).beside).within place (s.logged log)) = _
    rw [within_select, within_select]
    change (s.logged log).wake place (s.coordinator.logged.useSelector h id) >>= _ = _
    rw [Coordinator.useSelector_logged, Session.wake_logged]
    exact Session.bind_withLog fun r => ih r.1 r.2
  | isStale c k ih => exact ih _ s

/-- Code that is written down does the same otherwise. -/
theorem Act.within_logged (call : HostCall) (act : Act σ α) (place : Place) (s : Session σ)
    (log : List HostCall) : (act.logged call).within place (s.logged log) =
      (act.within place s).map (Session.withLog (log ++ [call])) :=
  act.within_beside place s (log ++ [call])

/-! ## The next yield -/

namespace Store

variable (store : Store σ)

/-- An answer of a store, with the same store beside a log. -/
def besideResult (r : α × Store σ) : α × Store (σ × List HostCall) := (r.1, r.2.beside)

theorem get_beside (name : String) : store.beside.get name = (store.get name).beside := by
  cases store <;> rfl

theorem set_beside (name : String) (value : Value) : store.beside.set name value =
    (store.set name value).beside.bind fun r => .done (besideResult r) := by
  cases store with
  | memory m => rfl
  | host h =>
    change (h.set name value).beside.bind _ = ((h.set name value).bind _).beside.bind _
    rw [Act.beside_bind, Act.bind_assoc]
    rfl

end Store

theorem Access.onStore_beside (x : Access α) (store : Store σ) : x.onStore store.beside =
    (x.onStore store).beside.bind fun r => .done (Store.besideResult r) := by
  induction x generalizing store with
  | done a => rfl
  | read name k ih =>
    rw [onStore, onStore, store.get_beside, Act.beside_bind, Act.bind_assoc]
    exact Act.bind_congr _ fun r => ih r store
  | write name value k ih =>
    rw [onStore, onStore, store.set_beside, Act.beside_bind, Act.bind_assoc, Act.bind_assoc]
    exact Act.bind_congr _ fun r => ih r.1 r.2

namespace Session

theorem nextYield_logged (s : Session σ) (log : List HostCall) :
    (s.logged log).nextYield = s.nextYield.map (withLog log) := by
  have asked := s.coordinator.machine.next.onStore_beside s.coordinator.store
  change ((s.coordinator.machine.next.onStore s.coordinator.store.beside).within .store
    (s.logged log)) >>= _ = _
  rw [asked, Act.within_bind, Act.within_beside, bind_assoc]
  exact bind_withLog fun r => rfl

end Session

end DialogueEngine
