import DialogueEngine.Proofs.Session.Recorded

/-! # Moves of a session

What a session can do next, as a relation between moments. Whatever an operation does, with any
host code in it, is a course of such moves (`Leads.history`), so what every move preserves holds
throughout.

* `Mode` — what a session is busy with.
* `Moment` — a session, what it is busy with, and the waits whose time has come.
* `Move` — one move, with what happens in it.
* `Course` — moves, one after the other.
* `Walk` — a course in which handles are used only where they have just been seen.
* `Walks`, `Leads` — what a recorded function does is a walk, and so a course.
-/

namespace DialogueEngine

variable {σ α β : Type}

/-! ## Moments -/

/-- What a session is busy with. -/
inductive Mode (σ : Type) where
  /-- No drive goes on. -/
  | resting
  /-- The presenter is told of the start. -/
  | starting
  /-- Between two turns. -/
  | driving
  /-- The machine is asked for the next yield of a session, and asks the store. -/
  | asking (s : Session σ)
  /-- A yield has left the machine. -/
  | carrying (y : Yield)
  /-- Something is handed over with a handle. -/
  | handing (w : Suspension)
  /-- A command is handed over without a handle. -/
  | passing
  /-- The presenter is told of the end. -/
  | ending
  /-- The drive is over. -/
  | settling
  /-- The drive cannot go on. -/
  | failing (e : EngineError)

/-- Which host code runs. -/
def Mode.Runs : Mode σ → Errand → Prop
  | .resting, .client => True
  | .asking _, .machine => True
  | .starting, .handover => True
  | .handing _, .handover => True
  | .passing, .handover => True
  | .ending, .handover => True
  | _, _ => False

def Mode.ofAnswer : Except EngineError Yield → Mode σ
  | .ok y => .carrying y
  | .error e => .failing e

/-- A session with what it is busy with, and the handles whose time has come. -/
structure Moment (σ : Type) where
  mode : Mode σ
  due : List Continuation
  session : Session σ

/-- What the dialogue is suspended on while a yield is handed over. A command with a handler that
    does not hold the dialogue is handed over without a suspension. -/
def Yield.suspension? : Yield → Option Suspension
  | .line _ => some .line
  | .choices cs => some (.choices cs.ids)
  | .command _ => some .command
  | _ => none

/-- Whether a yield is handed over. A command without words is not. -/
def Yield.isDelivered : Yield → Bool
  | .command cmd => !cmd.tokens.isEmpty
  | _ => true

/-- What the host is told of a yield that only says where the dialogue is. -/
def Yield.event? : Yield → Option LifecycleEvent
  | .nodeStart node => some (.nodeStart node)
  | .nodeComplete node => some (.nodeComplete node)
  | _ => none

namespace Coordinator

def begin (c : Coordinator σ) (m : Machine) : Coordinator σ :=
  let c := { c with machine := m, phase := .running }.invalidate
  { c with timers := c.timers.clear }

def complete (c : Coordinator σ) : Coordinator σ :=
  let c := { c with phase := .completed }.invalidate
  { c with timers := c.timers.clear }.emit .dialogueComplete

/-- What the host sets up, and takes out, without the dialogue. -/
def furnish (c : Coordinator σ) (text : Line → String) (commands : CommandTable σ) (lent : Bool)
    (events : List LifecycleEvent) : Coordinator σ :=
  { c with text := text, commands := commands, lent := lent, events := events }

end Coordinator

/-! ## Moves -/

/-- One move of a session, with what happens in it. -/
inductive Move : Moment σ → List (Happening σ) → Moment σ → Prop
  -- host code
  | see {mode : Mode σ} {due : List Continuation} {s : Session σ} {e : Errand}
      (runs : mode.Runs e) :
      Move ⟨mode, due, s⟩ [.moment s] ⟨mode, due, s⟩
  | write {mode : Mode σ} {due : List Continuation} {s : Session σ} {e : Errand} (x : σ)
      (runs : mode.Runs e) :
      Move ⟨mode, due, s⟩ (e.writes x) ⟨mode, due, { s with host := x }⟩
  | use {mode : Mode σ} {due : List Continuation} {s : Session σ} {e : Errand} (h : Handle)
      (runs : mode.Runs e) :
      Move ⟨mode, due, s⟩ [.used h] ⟨mode, due, s⟩
  | wait {mode : Mode σ} {due : List Continuation} {s : Session σ} {e : Errand}
      {k : Continuation} {d : Duration} {c : Coordinator σ} (runs : mode.Runs e)
      (scheduled : s.coordinator.schedule? d k = some c) :
      Move ⟨mode, due, s⟩ [.used (.continuation k)] ⟨mode, due, s.withCoordinator c⟩
  -- a live handle during a hand-over
  | wake {mode : Mode σ} {due : List Continuation} {s : Session σ} {k : Continuation}
      {c : Coordinator σ} (runs : mode.Runs .handover)
      (resumed : s.coordinator.useContinuation k = .resumed c) :
      Move ⟨mode, due, s⟩ [.used (.continuation k)]
        ⟨mode, due, s.withCoordinator { c with woken := true }⟩
  | pick {mode : Mode σ} {due : List Continuation} {s : Session σ} {id : Nat}
      {c : Coordinator σ} (runs : mode.Runs .handover)
      (resumed : s.coordinator.pick id = .resumed c) :
      Move ⟨mode, due, s⟩ [.picked id] ⟨mode, due, s.withCoordinator { c with woken := true }⟩
  -- a live handle while no drive goes on
  | resume {due : List Continuation} {s : Session σ} {k : Continuation} {c : Coordinator σ}
      (resumed : s.coordinator.useContinuation k = .resumed c) :
      Move ⟨.resting, due, s⟩ [.used (.continuation k)]
        ⟨.driving, due, (s.withCoordinator c).settle⟩
  | choose {due : List Continuation} {s : Session σ} {id : Nat} {c : Coordinator σ}
      (resumed : s.coordinator.pick id = .resumed c) :
      Move ⟨.resting, due, s⟩ [.picked id] ⟨.driving, due, (s.withCoordinator c).settle⟩
  -- time passes
  | advance {s : Session σ} {due : List Continuation} {delta : Duration} {timers : Timers}
      (advanced : s.coordinator.timers.advance? delta = some (due, timers)) :
      Move ⟨.resting, [], s⟩ []
        ⟨.resting, due, s.withCoordinator { s.coordinator with timers := timers }⟩
  | fire {due : List Continuation} {s : Session σ} {k : Continuation} {c : Coordinator σ}
      (resumed : s.coordinator.useContinuation k = .resumed c) :
      Move ⟨.resting, k :: due, s⟩ [] ⟨.driving, due, (s.withCoordinator c).settle⟩
  | expire {due : List Continuation} {s : Session σ} {k : Continuation} :
      Move ⟨.resting, k :: due, s⟩ [] ⟨.resting, due, s⟩
  -- turns of the drive
  | ask {due : List Continuation} {s : Session σ} (running : s.coordinator.isRunning = true) :
      Move ⟨.driving, due, s⟩ [] ⟨.asking s, due, s⟩
  | answer {due : List Continuation} {s s' : Session σ} {r : Except EngineError Yield}
      {m : Machine} {store : Store σ}
      (answered : (s.coordinator.machine.next.onStore s.coordinator.store).within .store s =
        .ok (((r, m), store), s')) :
      Move ⟨.asking s, due, s'⟩ [.stepped r]
        ⟨.ofAnswer r, due,
          s'.withCoordinator { s'.coordinator with machine := m, store := store }⟩
  | quiet {due : List Continuation} {s : Session σ}
      (notRunning : s.coordinator.isRunning = false) :
      Move ⟨.driving, due, s⟩ [] ⟨.settling, due, s⟩
  | announce {due : List Continuation} {s : Session σ} {y : Yield} {event : LifecycleEvent}
      (told : y.event? = some event) :
      Move ⟨.carrying y, due, s⟩ [.delivered y none]
        ⟨.driving, due, s.withCoordinator (s.coordinator.emit event)⟩
  | hand {due : List Continuation} {s : Session σ} {y : Yield} {w : Suspension}
      (given : y.isDelivered = true) (suspends : y.suspension? = some w) :
      Move ⟨.carrying y, due, s⟩
        [.delivered y (some (.ofSuspension w (s.coordinator.suspend w).generation))]
        ⟨.handing w, due, s.withCoordinator (s.coordinator.suspend w)⟩
  | pass {due : List Continuation} {s : Session σ} {cmd : Command}
      (given : (Yield.command cmd).isDelivered = true) :
      Move ⟨.carrying (.command cmd), due, s⟩ [.delivered (.command cmd) none]
        ⟨.passing, due, s⟩
  | skip {due : List Continuation} {s : Session σ} {cmd : Command}
      (blank : (Yield.command cmd).isDelivered = false) :
      Move ⟨.carrying (.command cmd), due, s⟩ [] ⟨.passing, due, s⟩
  | complete {due : List Continuation} {s : Session σ} :
      Move ⟨.carrying .dialogueComplete, due, s⟩ [.delivered .dialogueComplete none]
        ⟨.ending, due, s.withCoordinator s.coordinator.complete⟩
  -- the end of a hand-over
  | awaken {mode : Mode σ} {due : List Continuation} {s : Session σ}
      (handed : mode = .passing ∨ ∃ w, mode = .handing w) (woken : s.coordinator.woken = true) :
      Move ⟨mode, due, s⟩ []
        ⟨.driving, due, s.withCoordinator { s.coordinator with woken := false }⟩
  | goOn {mode : Mode σ} {due : List Continuation} {s : Session σ}
      (handed : mode = .passing ∨ mode = .handing .line ∨ mode = .handing .command)
      (asleep : s.coordinator.woken = false) :
      Move ⟨mode, due, s⟩ [] ⟨.driving, due, s.withCoordinator s.coordinator.invalidate⟩
  | pause {due : List Continuation} {s : Session σ} {w : Suspension}
      (asleep : s.coordinator.woken = false) :
      Move ⟨.handing w, due, s⟩ [] ⟨.settling, due, s⟩
  | finish {due : List Continuation} {s : Session σ} :
      Move ⟨.ending, due, s⟩ [] ⟨.settling, due, s⟩
  | fail {mode : Mode σ} {due : List Continuation} {s : Session σ} {e : CapabilityError}
      (handed : mode = .ending ∨ ∃ w, mode = .handing w) :
      Move ⟨mode, due, s⟩ [] ⟨.failing (.capability e), due, s⟩
  -- the end of the drive
  | settle {due : List Continuation} {s : Session σ} :
      Move ⟨.settling, due, s⟩ [] ⟨.resting, due, s.settle⟩
  | halt {due : List Continuation} {s : Session σ} {e : EngineError} :
      Move ⟨.failing e, due, s⟩ [.halted (some e)] ⟨.resting, due, s.settle.halt⟩
  -- the host's operations
  | enter {due : List Continuation} {s : Session σ} {node : String} {m : Machine}
      (notRunning : s.coordinator.isRunning = false)
      (entered : s.coordinator.machine.enter node = .ok m) :
      Move ⟨.resting, due, s⟩ [.entered node]
        ⟨.starting, due, s.withCoordinator (s.coordinator.begin m)⟩
  | begin {due : List Continuation} {s : Session σ} :
      Move ⟨.starting, due, s⟩ [] ⟨.driving, due, s.settle⟩
  | abort {due : List Continuation} {s : Session σ} {e : CapabilityError} :
      Move ⟨.starting, due, s⟩ [.halted (some (.capability e))] ⟨.resting, due, s.halt⟩
  | proceed {due : List Continuation} {s : Session σ}
      (running : s.coordinator.isRunning = true)
      (free : ∀ ids, s.coordinator.suspension ≠ some (.choices ids)) :
      Move ⟨.resting, due, s⟩ []
        ⟨.driving, due, (s.withCoordinator s.coordinator.invalidate).settle⟩
  | stop {due : List Continuation} {s : Session σ} :
      Move ⟨.resting, due, s⟩ [.halted none] ⟨.resting, due, s.halt⟩
  | load {due : List Continuation} {s : Session σ} {p : Program}
      (notRunning : s.coordinator.isRunning = false) :
      Move ⟨.resting, due, s⟩ [.loaded p]
        ⟨.resting, due,
          s.withCoordinator { s.coordinator with machine := s.coordinator.machine.load p }⟩
  | unload {due : List Continuation} {s : Session σ}
      (notRunning : s.coordinator.isRunning = false) :
      Move ⟨.resting, due, s⟩ [.unloaded]
        ⟨.resting, due,
          s.withCoordinator { s.coordinator with machine := s.coordinator.machine.unload }⟩
  | add {due : List Continuation} {s : Session σ} {p : Program} {m : Machine}
      (added : s.coordinator.machine.add p = .ok m) :
      Move ⟨.resting, due, s⟩ [.added p]
        ⟨.resting, due, s.withCoordinator { s.coordinator with machine := m }⟩
  | change {due : List Continuation} {s : Session σ} (change : Change) :
      Move ⟨.resting, due, s⟩ [.changed change]
        ⟨.resting, due,
          s.withCoordinator
            { s.coordinator with store := change.onStore s.coordinator.store }⟩
  | furnish {due : List Continuation} {s : Session σ} {text : Line → String}
      {commands : CommandTable σ} {lent : Bool} {events : List LifecycleEvent} :
      Move ⟨.resting, due, s⟩ []
        ⟨.resting, due, s.withCoordinator (s.coordinator.furnish text commands lent events)⟩

/-- At most one thing happens in a move. -/
theorem Move.label {m m' : Moment σ} {l : List (Happening σ)} (move : Move m l m') :
    l = [] ∨ ∃ a, l = [a] := by
  cases move with
  | @write _ _ _ e x runs =>
    cases e with
    | machine => exact .inl rfl
    | handover => exact .inr ⟨_, rfl⟩
    | client => exact .inr ⟨_, rfl⟩
  | advance | fire | expire | ask | quiet | skip | awaken | goOn | pause | finish | fail | settle | begin
  | proceed | furnish => exact .inl rfl
  | _ => exact .inr ⟨_, rfl⟩

/-- Moves, one after the other, with everything that happens in them. -/
inductive Course (start : Moment σ) : List (Happening σ) → Moment σ → Prop
  | nil : Course start [] start
  | snoc {t l : List (Happening σ)} {m m' : Moment σ} (before : Course start t m)
      (move : Move m l m') : Course start (t ++ l) m'

namespace Course

/-- A course through something that happens goes through the move in which it does. -/
theorem split {m m' : Moment σ} {t t₁ t₂ : List (Happening σ)} {a : Happening σ}
    (course : Course m t m') (ht : t = t₁ ++ a :: t₂) :
    ∃ n n', Course m t₁ n ∧ Move n [a] n' ∧ Course n' t₂ m' := by
  induction course generalizing t₂ with
  | nil => simp at ht
  | @snoc t l n n' before move ih =>
    rcases move.label with rfl | ⟨b, rfl⟩
    · rw [List.append_nil] at ht
      obtain ⟨p, p', first, through, last⟩ := ih ht
      have last := last.snoc move
      rw [List.append_nil] at last
      exact ⟨p, p', first, through, last⟩
    · rcases List.eq_nil_or_concat t₂ with rfl | ⟨t₂, c, rfl⟩
      · obtain ⟨rfl, hb⟩ := List.append_inj' ht rfl
        cases hb
        exact ⟨n, n', before, move, .nil⟩
      · rw [List.concat_eq_append, ← List.cons_append, ← List.append_assoc] at ht
        obtain ⟨ht', hb⟩ := List.append_inj' ht rfl
        cases hb
        obtain ⟨p, p', first, through, last⟩ := ih ht'
        rw [List.concat_eq_append]
        exact ⟨p, p', first, through, last.snoc move⟩

/-- A course through a moment reaches a session as it is at that moment. -/
theorem at_moment {m m' : Moment σ} {t₁ t₂ : List (Happening σ)} {s : Session σ}
    (course : Course m (t₁ ++ .moment s :: t₂) m') :
    ∃ n, Course m t₁ n ∧ n.session = s ∧ Course n t₂ m' := by
  obtain ⟨n, n', first, through, last⟩ := course.split rfl
  generalize hl : [Happening.moment s] = l at through
  cases through with
  | see runs =>
    cases hl
    exact ⟨_, first, rfl, last⟩
  | @write _ _ _ e x runs => cases e <;> cases hl
  | _ => cases hl

end Course

/-! ## Walks -/

/-- A course in which host code uses a handle only where it has just been seen: what was written
    down last is the session as it is. -/
inductive Walk (start : Moment σ) : List (Happening σ) → Moment σ → Prop
  | nil : Walk start [] start
  | snoc {t l : List (Happening σ)} {m m' : Moment σ} (before : Walk start t m)
      (move : Move m l m')
      (seen : ∀ h, l = [.used h] → t.getLast? = some (.moment m.session)) :
      Walk start (t ++ l) m'

namespace Walk

variable {m m' m'' : Moment σ} {t t' l : List (Happening σ)}

theorem course (walk : Walk m t m') : Course m t m' := by
  induction walk with
  | nil => exact .nil
  | snoc _ move _ ih => exact ih.snoc move

theorem one (move : Move m l m') (unused : ∀ h, l ≠ [.used h]) : Walk m l m' :=
  .snoc .nil move fun h hl => absurd hl (unused h)

theorem trans (walk : Walk m t m') (walk' : Walk m' t' m'') : Walk m (t ++ t') m'' := by
  induction walk' with
  | nil =>
    rw [List.append_nil]
    exact walk
  | snoc _ move seen ih =>
    rw [← List.append_assoc]
    refine ih.snoc move fun h hl => ?_
    rw [List.getLast?_append, seen h hl]
    rfl

/-- Host code is seen and then uses a handle. -/
theorem use {mode : Mode σ} {due : List Continuation} {s : Session σ} {e : Errand} {h : Handle}
    (runs : mode.Runs e) (move : Move ⟨mode, due, s⟩ [.used h] m') :
    Walk ⟨mode, due, s⟩ [.moment s, .used h] m' :=
  (one (.see runs) nofun).snoc move fun _ _ => rfl

theorem write {mode : Mode σ} {due : List Continuation} {s : Session σ} {e : Errand} (x : σ)
    (runs : mode.Runs e) :
    Walk ⟨mode, due, s⟩ (.moment s :: e.writes x) ⟨mode, due, { s with host := x }⟩ := by
  refine (one (.see runs) nofun).snoc (.write x runs) fun h hl => ?_
  cases e <;> cases hl

end Walk

/-! ## Recorded functions walk -/

/-- What happens is a walk from a moment, and a result comes with its end. -/
def Walks (m : Moment σ) (x : Recorded σ α) (after : α → Moment σ) : Prop :=
  ∃ m', Walk m x.happenings m' ∧ ∀ a, x.outcome = .ok a → m' = after a

/-- What happens is a course from a moment, and a result comes with its end. -/
def Leads (m : Moment σ) (x : Recorded σ α) (after : α → Moment σ) : Prop :=
  ∃ m', Course m x.happenings m' ∧ ∀ a, x.outcome = .ok a → m' = after a

namespace Walks

theorem leads {m : Moment σ} {x : Recorded σ α} {after : α → Moment σ} (h : Walks m x after) :
    Leads m x after := by
  obtain ⟨m', walk, ends⟩ := h
  exact ⟨m', walk.course, ends⟩

theorem pure {m : Moment σ} {a : α} {after : α → Moment σ} (h : m = after a) :
    Walks m (Pure.pure a : Recorded σ α) after :=
  ⟨m, .nil, fun _ e => by cases e; exact h⟩

theorem quiet {m : Moment σ} {x : Except Fault α} {after : α → Moment σ}
    (h : ∀ a, x = .ok a → m = after a) : Walks m (Recorded.quiet x) after :=
  ⟨m, .nil, h⟩

theorem step {m m' : Moment σ} {l : List (Happening σ)} {x : Except Fault α}
    {after : α → Moment σ} (walk : Walk m l m') (h : ∀ a, x = .ok a → m' = after a) :
    Walks m ⟨l, x⟩ after :=
  ⟨m', walk, h⟩

theorem note {m m' : Moment σ} {l : List (Happening σ)} (walk : Walk m l m') :
    Walks m (Recorded.note l) fun _ => m' :=
  ⟨m', walk, fun _ _ => rfl⟩

theorem bind {m : Moment σ} {x : Recorded σ α} {f : α → Recorded σ β} {after : α → Moment σ}
    {after' : β → Moment σ} (hx : Walks m x after)
    (hf : ∀ a, x.outcome = .ok a → Walks (after a) (f a) after') : Walks m (x >>= f) after' := by
  obtain ⟨m', walk, ends⟩ := hx
  change Walks m (Recorded.bind x f) after'
  unfold Recorded.bind
  cases h : x.outcome with
  | error e => exact ⟨m', walk, fun _ he => by cases he⟩
  | ok a =>
    obtain ⟨m'', walk', ends'⟩ := hf a h
    rw [← ends a h] at walk'
    exact ⟨m'', walk.trans walk', ends'⟩

theorem after {m m' : Moment σ} {x : Recorded σ α} {f : α → Moment σ} (move : Move m [] m')
    (hx : Walks m' x f) : Walks m x f := by
  obtain ⟨m'', walk, ends⟩ := hx
  exact ⟨m'', (Walk.one move nofun).trans walk, ends⟩

theorem noted {m m' : Moment σ} {l : List (Happening σ)} {x : Recorded σ α}
    {f : α → Moment σ} (walk : Walk m l m') (hx : Walks m' x f) :
    Walks m (Recorded.note l >>= fun _ => x) f :=
  (Walks.note walk).bind fun _ _ => hx

/-- Something is written down, and what comes next goes on from there in one walk with it. -/
theorem seen {m : Moment σ} {l : List (Happening σ)} {x : Recorded σ α} {f : α → Recorded σ β}
    {after : α → Moment σ} {after' : β → Moment σ}
    (hx : Walks m (Recorded.note l >>= fun _ => x) after)
    (hf : ∀ a, x.outcome = .ok a → Walks (after a) (f a) after') :
    Walks m (Recorded.note l >>= fun _ => x >>= f) after' := by
  rw [← bind_assoc]
  exact hx.bind hf

end Walks

end DialogueEngine
