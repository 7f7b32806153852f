import DialogueEngine.Proofs.Session.Handles
import DialogueEngine.Proofs.Session.Lifting

/-! # Commands of host objects

The method of a host object that holds the dialogue is given a callable that resumes it. Whatever
the host does with that callable, the dialogue is resumed once at most, so that it would make no
difference if the callable were spent by its first call; and a method that fails does not hold the
dialogue.

* `Recorded.Runs` — a piece of host code in a history, inside an operation or between operations.
* `Recorded.Runs.void`, `Course.spent` — after a call of a completion its handle is void.
* `Session.Dispatching` — a command that is being carried out.
* `Session.deliverCommand_failed`, `Session.run_failed` — the end of a dispatch that has failed.
* `Session.completions_once` — the two together, over whole histories.
-/

namespace DialogueEngine

variable {σ κ α : Type}

namespace Coordinator

/-- The dialogue goes on as long as it is suspended. -/
def Lively (c : Coordinator σ) : Prop := c.suspension ≠ none → c.phase = .running

variable {c c' : Coordinator σ}

theorem lively_of_free (free : c.suspension = none) : c.Lively := fun held => absurd free held

theorem Lively.alike (lively : c.Lively) (alike : c.Alike c') : c'.Lively := by
  intro held
  rw [alike.suspension] at held
  exact alike.phase.trans (lively held)

/-- In a dialogue that goes on as long as it is suspended, a live continuation resumes. -/
theorem Lively.useContinuation (lively : c.Lively) (k : Continuation) :
    c.isLive k.generation = false ∧ c.useContinuation k = .ignored ∨
      c.isLive k.generation = true ∧ c.useContinuation k = .resumed c.invalidate := by
  cases live : c.isLive k.generation with
  | false => exact .inl ⟨rfl, useContinuation_stale live⟩
  | true =>
    have held : c.suspension ≠ none := by
      intro free
      rw [isLive_of_suspension_none free] at live
      cases live
    refine .inr ⟨rfl, ?_⟩
    simp [Coordinator.useContinuation, live, isRunning_iff.mpr (lively held)]

end Coordinator

theorem Move.lively {m m' : Moment σ} {l : List (Happening σ)} (move : Move m l m')
    (sound : m.Sound) (lively : m.session.coordinator.Lively) :
    m'.session.coordinator.Lively := by
  cases move with
  | wait runs scheduled => exact lively.alike (Coordinator.alike_schedule scheduled)
  | hand given suspends => exact fun _ => sound.1.running
  | wake runs resumed | resume resumed | fire resumed =>
    obtain ⟨_, _, rfl⟩ := Coordinator.useContinuation_resumed resumed
    exact Coordinator.lively_of_free rfl
  | pick runs picked =>
    have free := Coordinator.pick_resumed_suspension picked
    exact Coordinator.lively_of_free free
  | choose picked =>
    have free := Coordinator.pick_resumed_suspension picked
    exact Coordinator.lively_of_free free
  | complete | goOn | halt | enter | abort | proceed | stop => exact Coordinator.lively_of_free rfl
  | _ => exact lively

theorem Course.lively {m m' : Moment σ} {t : List (Happening σ)} (course : Course m t m')
    (sound : m.Sound) (lively : m.session.coordinator.Lively) :
    m'.session.coordinator.Lively := by
  induction course with
  | nil => exact lively
  | snoc before move ih => exact move.lively (before.sound sound) ih

/-- Every moment of a course is later than its start. -/
theorem Course.later_moment {m m' : Moment σ} {t : List (Happening σ)} {s : Session σ}
    (course : Course m t m') (mem : .moment s ∈ t) :
    m.session.coordinator.Later s.coordinator := by
  obtain ⟨t₁, t₂, rfl⟩ := List.append_of_mem mem
  obtain ⟨n, first, rfl, -⟩ := course.at_moment
  exact first.later

/-! ## Host code in a history -/

namespace Recorded

/-- A piece of host code runs in a history, in an operation or between operations: it starts at a
    moment, what is written down behind that moment is `u`, and it has a result. -/
inductive Runs (limit : Nat) (act : Act σ α) (s : Session σ) (u : List (Happening σ)) (a : α)
    (s' : Session σ) : Prop where
  | within (e : Errand) (ran : Recorded.within e act s = ⟨.moment s :: u, .ok (a, s')⟩)
  | between (ran : Recorded.between limit act s = ⟨.moment s :: u, .ok (a, s')⟩)

/-- Two computations, one after the other, that have a result. -/
theorem of_bind_ok {β : Type} {x : Recorded σ α} {f : α → Recorded σ β} {t : List (Happening σ)}
    {b : β} (ran : x >>= f = ⟨t, .ok b⟩) :
    ∃ a t₁ t₂, x = ⟨t₁, .ok a⟩ ∧ f a = ⟨t₂, .ok b⟩ ∧ t = t₁ ++ t₂ := by
  obtain ⟨t₁, outcome⟩ := x
  cases outcome with
  | error e => cases ran
  | ok a =>
    have happenings := congrArg Recorded.happenings ran
    have result := congrArg Recorded.outcome ran
    exact ⟨a, t₁, (f a).happenings, rfl, congrArg (Recorded.mk _) result, happenings.symm⟩

namespace Runs

variable {limit : Nat} {k : Continuation} {g : Except EngineError Unit → α} {s s' : Session σ}
  {u : List (Happening σ)} {a : α}

/-- A void handle does nothing. -/
theorem ignored (runs : Runs limit (.resume k fun r => .done (g r)) s u a s')
    (void : s.coordinator.isLive k.generation = false) :
    a = g (.ok ()) ∧ s' = s ∧ u = [.used (.continuation k), .moment s] := by
  have use := Coordinator.useContinuation_stale void
  cases runs with
  | within e ran =>
    rw [Recorded.within, use] at ran
    cases ran
    exact ⟨rfl, rfl, rfl⟩
  | between ran =>
    rw [Recorded.between, use] at ran
    cases ran
    exact ⟨rfl, rfl, rfl⟩

/-- After its use a handle is void, also at all moments of the drive that the use sets going. -/
theorem void (runs : Runs limit (.resume k fun r => .done (g r)) s u a s')
    (lively : s.coordinator.Lively) (given : k.generation ≤ s.coordinator.generation) :
    s'.coordinator.isLive k.generation = false ∧
      ∃ v, u = .used (.continuation k) :: (v ++ [.moment s']) ∧
        ∀ s'', .moment s'' ∈ v → s''.coordinator.isLive k.generation = false := by
  rcases lively.useContinuation k with ⟨stale, -⟩ | ⟨live, use⟩
  · obtain ⟨-, rfl, rfl⟩ := runs.ignored stale
    exact ⟨stale, [], rfl, by simp⟩
  · -- what comes of it is later than the end of the suspension
    have ended {c : Coordinator σ} (later : s.coordinator.invalidate.Later c) :
        c.isLive k.generation = false :=
      later.stays_stale (Nat.le_succ_of_le given)
        (Coordinator.isLive_of_suspension_none rfl k.generation)
    cases runs with
    | within e ran =>
      rw [Recorded.within, use] at ran
      cases place : e.place with
      | handover =>
        rw [place] at ran
        cases ran
        exact ⟨ended (.of_same rfl rfl), [], rfl, by simp⟩
      | store =>
        -- a live handle is not for a store to use
        rw [place] at ran
        cases ran
    | between ran =>
      -- what is written down is the use, the drive that it sets going, and the answer
      rw [Recorded.between, use] at ran
      obtain ⟨⟨⟩, t₁, t₂, noted, rest, split⟩ := of_bind_ok ran
      obtain ⟨r, t₃, t₄, followed, last, rfl⟩ := of_bind_ok rest
      obtain ⟨⟨⟩, t₅, t, used, driven, rfl⟩ := of_bind_ok followed
      cases noted
      cases used
      cases last
      cases split
      have walks : Walks ⟨.driving, [], (s.withCoordinator s.coordinator.invalidate).settle⟩
        (Recorded.run limit _) _ := .run limit _
      obtain ⟨m, course, ends⟩ := walks.leads
      rw [driven] at course ends
      cases ends r rfl
      have settled : s.coordinator.invalidate.Later
          (s.withCoordinator s.coordinator.invalidate).settle.coordinator := .of_same rfl rfl
      refine ⟨ended (settled.trans course.later), t, rfl, fun s'' mem => ?_⟩
      exact ended (settled.trans (course.later_moment mem))

end Runs

end Recorded

section Histories

variable {m m' : Moment σ} {t₁ t₂ : List (Happening σ)} {s : Session σ} {k : Continuation}

/-- A handle that has been given and is void at a moment stays so. -/
theorem Course.stays_void (course : Course m (t₁ ++ .moment s :: t₂) m')
    (given : .continuation k ∈ handed t₁) (void : s.coordinator.isLive k.generation = false) :
    ∀ s', .moment s' ∈ t₂ → s'.coordinator.isLive k.generation = false := by
  intro s' mem
  obtain ⟨n, first, rfl, last⟩ := course.at_moment
  exact (last.later_moment mem).stays_stale (first.handed_increasing.2 _ given) void

/-- A handle that has been given is void at all moments behind its use. -/
theorem Course.spent {limit : Nat} {g : Except EngineError Unit → α} {u : List (Happening σ)}
    {a : α} {s' : Session σ} (course : Course m (t₁ ++ .moment s :: (u ++ t₂)) m')
    (sound : m.Sound) (lively : m.session.coordinator.Lively)
    (given : .continuation k ∈ handed t₁)
    (runs : Recorded.Runs limit (.resume k fun r => .done (g r)) s u a s') :
    ∀ s'', .moment s'' ∈ u ++ t₂ → s''.coordinator.isLive k.generation = false := by
  obtain ⟨n, first, rfl, last⟩ := course.at_moment
  have old : k.generation ≤ n.session.coordinator.generation := first.handed_increasing.2 _ given
  obtain ⟨void, v, rfl, during⟩ := runs.void (first.lively sound lively) old
  intro s'' mem
  simp only [List.cons_append, List.append_assoc, List.nil_append, List.mem_cons, reduceCtorEq,
    false_or, List.mem_append, Happening.moment.injEq] at mem
  rcases mem with mem | rfl | mem
  · exact during s'' mem
  · exact void
  · -- what comes behind the answer is later
    have split : .used (.continuation k) :: (v ++ [.moment s']) ++ t₂ =
        (.used (.continuation k) :: v) ++ .moment s' :: t₂ := by simp
    rw [split] at last
    obtain ⟨n', answered, rfl, rest⟩ := last.at_moment
    have grown := answered.later.generation
    exact (rest.later_moment mem).stays_stale (Nat.le_trans old grown) void

end Histories

/-! ## The callables of host methods -/

/-- The answer of the callable that stands for a continuation. -/
def Callable.answer : Except EngineError Unit → Except HostError (HostValue κ)
  | .ok () => .ok .nil
  | .error e => .error ⟨e.message⟩

theorem Callable.call_completion (calls : HostCalls σ κ) (args : List (HostValue κ))
    (c : Continuation) :
    Callable.call calls args (.completion c) = .resume c fun r => .done (answer r) := by
  rw [Callable.call]
  congr 1
  funext r
  cases r <;> rfl

namespace Adapter

/-- What an object gives as a provider are methods that are called with a completion. -/
theorem provider_blocking (calls : HostCalls σ κ) (a : Adapter .commandProvider σ κ) :
    (a.provider calls).blocking.All fun r => ∀ table, r = .ok table → ∀ e ∈ table.entries,
      ∃ f : Callable κ, e.2 = blockingHandler fun args => f.call calls args := by
  unfold provider
  dsimp only
  split
  · refine Act.all_bind fun r table provided e mem => ?_
    cases r with
    | error error => cases provided
    | ok callables =>
      cases provided
      obtain ⟨entry, -, rfl⟩ := List.mem_map.mp mem
      exact ⟨entry.2, rfl⟩
  · rintro table provided e mem
    cases provided
    cases mem

end Adapter

/-- So are the methods that are marked as commands and hold the dialogue. -/
theorem MethodInfo.blocking_of_handler? {o : HostObject σ κ} {m : MethodInfo} {name : String}
    {run : BlockingHandler σ} (marked : m.handler? o = some (name, .blocking run)) :
    run = Adapter.blockingHandler (o.call m.name) := by
  unfold MethodInfo.handler? at marked
  split at marked
  · cases marked
  · split at marked
    · cases marked
    · cases marked
      rfl
    · cases marked

/-! ## A dispatch -/

namespace Session

/-- A command that is carried out under a number: the dialogue goes on, and the machine has not
    been asked. The suspension lasts, or it has ended and the drive will find that out. -/
structure Dispatching (m : Machine) (n : Nat) (s : Session σ) : Prop where
  running : s.coordinator.phase = .running
  machine : s.coordinator.machine = m
  state : s.coordinator.generation = n ∧ s.coordinator.suspension = some .command ∨
    s.coordinator.woken = true ∧ s.coordinator.suspension = none

namespace Dispatching

variable {m : Machine} {n : Nat} {s : Session σ}

theorem lively (busy : s.Dispatching m n) : s.coordinator.Lively := fun _ => busy.running

theorem not_picked (busy : s.Dispatching m n) {id : Nat} {c : Coordinator σ} :
    s.coordinator.pick id ≠ .resumed c := by
  intro picked
  obtain ⟨ids, _, suspended, _⟩ := Coordinator.pick_resumed picked
  rcases busy.state with ⟨-, held⟩ | ⟨-, free⟩
  · rw [held] at suspended
    cases suspended
  · rw [free] at suspended
    cases suspended

theorem wake_continuation (busy : s.Dispatching m n) (k : Continuation) :
    Ensures (s.wake .handover (s.coordinator.useContinuation k)) fun r =>
      r.2.Dispatching m n := by
  rcases busy.lively.useContinuation k with ⟨-, use⟩ | ⟨-, use⟩
  · rw [use]
    exact .ok busy
  · rw [use]
    exact .ok ⟨busy.running, busy.machine, .inr ⟨rfl, rfl⟩⟩

theorem delay (busy : s.Dispatching m n) (k : Continuation) (d : Duration) :
    Ensures (s.delay k d (s.wake .handover)) fun r => r.2.Dispatching m n := by
  unfold Session.delay
  split
  · exact busy.wake_continuation k
  · split
    · rename_i c scheduled
      refine .ok ?_
      rw [Coordinator.schedule?_eq scheduled]
      exact ⟨busy.running, busy.machine, busy.state⟩
    · exact .fault

theorem wake_selector (busy : s.Dispatching m n) (h : Selector) (id : Nat) :
    Ensures (s.wake .handover (s.coordinator.useSelector h id)) fun r =>
      r.2.Dispatching m n := by
  cases use : s.coordinator.useSelector h id with
  | ignored => exact .ok busy
  | refused e => exact .ok busy
  | failed e => exact .ok busy
  | resumed c => exact absurd (Coordinator.useSelector_resumed use).2 busy.not_picked

/-- Whatever the host does in the meantime, the command is still being carried out. -/
theorem within (busy : s.Dispatching m n) (act : Act σ α) :
    Ensures (act.within .handover s) fun r => r.2.Dispatching m n := by
  induction act generalizing s with
  | done a => exact .ok busy
  | read k ih => exact ih s.host busy
  | write x k ih => exact ih ⟨busy.running, busy.machine, busy.state⟩
  | isStale k f ih => exact ih _ busy
  | resume k f ih =>
    rw [Act.within_resume]
    exact (busy.wake_continuation k).bind fun r => ih r.1
  | resumeAfter k d f ih =>
    rw [Act.within_resumeAfter]
    exact (busy.delay k d).bind fun r => ih r.1
  | select h id f ih =>
    rw [Act.within_select]
    exact (busy.wake_selector h id).bind fun r => ih r.1

/-- The use of the handle ends the suspension, unless it has ended before. -/
theorem resuming (busy : s.Dispatching m n) :
    ∃ s', (Act.resuming ⟨n⟩).within .handover s = .ok (.ok (), s') ∧ s'.host = s.host ∧
      s'.coordinator.phase = .running ∧ s'.coordinator.machine = m ∧
      s'.coordinator.woken = true ∧ s'.coordinator.suspension = none := by
  rw [Act.resuming, Act.within]
  rcases busy.lively.useContinuation ⟨n⟩ with ⟨void, use⟩ | ⟨-, use⟩
  · -- the method has used a handle before, so the drive has been woken already
    rw [use]
    rcases busy.state with ⟨same, held⟩ | ⟨woken, free⟩
    · have live : s.coordinator.isLive n = true := Coordinator.isLive_iff.mpr ⟨same, by simp [held]⟩
      rw [live] at void
      cases void
    · exact ⟨s, rfl, rfl, busy.running, busy.machine, woken, free⟩
  · rw [use]
    exact ⟨_, rfl, rfl, busy.running, busy.machine, rfl, rfl⟩

end Dispatching

/-- A method that fails does not hold the dialogue: when its dispatch ends the suspension has
    ended, and the next turn follows. -/
theorem deliverCommand_failed {s s₁ : Session σ} {cmd : Command} {name : String}
    {args : List String} {call : MethodBody σ κ} {e : HostError}
    (running : s.coordinator.phase = .running)
    (resolved : s.coordinator.commands.resolve cmd.tokens =
      some ⟨name, .blocking (Adapter.blockingHandler call), args⟩)
    (failed : (call [.strings args, .callable (.completion ⟨s.coordinator.generation + 1⟩)]).within
      .handover (s.withCoordinator (s.coordinator.suspend .command)) = .ok (.error e, s₁)) :
    ∃ s', s.deliverCommand cmd = .ok (.again, s') ∧ s'.host = s₁.host ∧
      s'.coordinator.phase = .running ∧ s'.coordinator.machine = s.coordinator.machine ∧
      s'.coordinator.woken = false ∧ s'.coordinator.suspension = none := by
  have begun : (s.withCoordinator (s.coordinator.suspend .command)).Dispatching
      s.coordinator.machine (s.coordinator.generation + 1) := ⟨running, rfl, .inl ⟨rfl, rfl⟩⟩
  have busy := begun.within _ _ failed
  obtain ⟨s₂, resumed, host, running, machine, woken, free⟩ := busy.resuming
  have dispatched : (Adapter.blockingHandler call args ⟨s.coordinator.generation + 1⟩).within
      .handover (s.withCoordinator (s.coordinator.suspend .command)) = .ok ((), s₂) := by
    unfold Adapter.blockingHandler
    change (Act.bind _ _).within _ _ = _
    rw [Act.within_bind, failed]
    change (Act.bind _ _).within _ _ = _
    rw [Act.within_bind, resumed]
    rfl
  refine ⟨s₂.withCoordinator { s₂.coordinator with woken := false }, ?_, host, running, machine,
    rfl, free⟩
  rw [deliverCommand_blocking resolved, dispatched]
  exact congrArg Except.ok (afterHandover_woken woken .pause)

/-- The answer of the machine leaves the phase. -/
theorem nextYield_phase {s s' : Session σ} {r : Except EngineError Yield}
    (answered : s.nextYield = .ok (r, s')) : s'.coordinator.phase = s.coordinator.phase := by
  unfold nextYield at answered
  dsimp only at answered
  cases ran : (s.coordinator.machine.next.onStore s.coordinator.store).within .store s with
  | error f =>
    rw [ran] at answered
    cases answered
  | ok x =>
    rw [ran] at answered
    cases answered
    have frame := congrArg Coordinator.phase (Act.within_store ran)
    exact frame

/-- The drive goes on with what follows the command whose method has failed. -/
theorem run_failed {s₀ s s₁ : Session σ} {cmd : Command} {name : String} {args : List String}
    {call : MethodBody σ κ} {e : HostError} (flows : s₀.coordinator.Flows)
    (answered : s₀.nextYield = .ok (.ok (.command cmd), s))
    (resolved : s.coordinator.commands.resolve cmd.tokens =
      some ⟨name, .blocking (Adapter.blockingHandler call), args⟩)
    (failed : (call [.strings args, .callable (.completion ⟨s.coordinator.generation + 1⟩)]).within
      .handover (s.withCoordinator (s.coordinator.suspend .command)) = .ok (.error e, s₁)) :
    ∃ s' : Session σ, (∀ limit, s₀.run (limit + 1) = s'.run limit) ∧ s'.host = s₁.host ∧
      s'.coordinator.phase = .running ∧ s'.coordinator.machine = s.coordinator.machine ∧
      s'.coordinator.woken = false ∧ s'.coordinator.suspension = none := by
  have running := (nextYield_phase answered).trans flows.running
  obtain ⟨s', delivered, goesOn⟩ := deliverCommand_failed running resolved failed
  have turned := turn_answered (Coordinator.isRunning_iff.mpr flows.running) answered
  exact ⟨s', fun limit => run_again limit (turned.trans delivered), goesOn⟩

/-- Whatever the methods of host objects do with the completions that they are given, and whatever
    else a host does with its session:
    the handlers of commands that hold the dialogue, from the provider of an object or from a
    marked method, call the method with a completion and use that if the method fails;
    what a use resumes with makes the handle void, and a handle that is void stays so;
    a call of a completion leaves it void, at all moments from the answer on and at those of the
    drive that the call sets going, and if it is void before the call answers nil and changes
    nothing;
    and a method that fails, whether or not it has used the completion, leads to exactly one more
    turn: the suspension has ended, and the machine is asked for what follows the command. -/
theorem completions_once (calls : HostCalls σ κ) (limit : Nat) (ops : List (Operation σ))
    (presenter : Presenter σ) (store : Store σ) (settings : Settings) (text : Line → String)
    (commands : CommandTable σ) (host : σ) :
    let start := opening presenter store settings text commands host
    let t := (Recorded.history limit ops start).happenings
    (∀ a : Adapter .commandProvider σ κ, (a.provider calls).blocking.All fun r =>
      ∀ table, r = .ok table → ∀ e ∈ table.entries,
        ∃ f : Callable κ, e.2 = Adapter.blockingHandler fun args => f.call calls args) ∧
    (∀ (o : HostObject σ κ) (m : MethodInfo) (name : String) (run : BlockingHandler σ),
      m.handler? o = some (name, .blocking run) → run = Adapter.blockingHandler (o.call m.name)) ∧
    (∀ (c c' : Coordinator σ) (k : Continuation), c.useContinuation k = .resumed c' →
      c.isLive k.generation = true ∧ c'.isLive k.generation = false) ∧
    (∀ t₁ s t₂ k, t = t₁ ++ .moment s :: t₂ → .continuation k ∈ handed t₁ →
      s.coordinator.isLive k.generation = false →
        ∀ s', .moment s' ∈ t₂ → s'.coordinator.isLive k.generation = false) ∧
    (∀ t₁ s u t₂ k args r s', t = t₁ ++ .moment s :: (u ++ t₂) → .continuation k ∈ handed t₁ →
      Recorded.Runs limit (Callable.call calls args (.completion k)) s u r s' →
        (s.coordinator.isLive k.generation = false → r = .ok .nil ∧ s' = s) ∧
        ∀ s'', .moment s'' ∈ u ++ t₂ → s''.coordinator.isLive k.generation = false) ∧
    (∀ t due s₀ s s₁ cmd name (call : MethodBody σ κ) args e,
      Course ⟨.resting, [], start⟩ t ⟨.driving, due, s₀⟩ →
      s₀.nextYield = .ok (.ok (.command cmd), s) →
      s.coordinator.commands.resolve cmd.tokens =
        some ⟨name, .blocking (Adapter.blockingHandler call), args⟩ →
      (call [.strings args, .callable (.completion ⟨s.coordinator.generation + 1⟩)]).within
        .handover (s.withCoordinator (s.coordinator.suspend .command)) = .ok (.error e, s₁) →
      ∃ s' : Session σ, (∀ limit, s₀.run (limit + 1) = s'.run limit) ∧ s'.host = s₁.host ∧
        s'.coordinator.phase = .running ∧ s'.coordinator.machine = s.coordinator.machine ∧
        s'.coordinator.woken = false ∧ s'.coordinator.suspension = none) := by
  intro start t
  have sound : Moment.Sound ⟨.resting, [], start⟩ :=
    opening_sound presenter store settings text commands host
  obtain ⟨m, course, -⟩ := Leads.history limit ops start
  have lively : start.coordinator.Lively := Coordinator.lively_of_free rfl
  refine ⟨Adapter.provider_blocking calls, fun o m name run => MethodInfo.blocking_of_handler?,
    fun _ _ _ => Coordinator.useContinuation_once, ?_, ?_, ?_⟩
  · intro t₁ s t₂ k ht given void
    rw [show Recorded.happenings _ = _ from ht] at course
    exact course.stays_void given void
  · intro t₁ s u t₂ k args r s' ht given called
    rw [show Recorded.happenings _ = _ from ht] at course
    rw [Callable.call_completion] at called
    refine ⟨fun void => ?_, course.spent sound lively given called⟩
    obtain ⟨answer, same, -⟩ := called.ignored void
    exact ⟨answer, same⟩
  · intro t due s₀ s s₁ cmd name call args e reached answered resolved failed
    exact run_failed (reached.sound sound) answered resolved failed

/-- A method that uses the completion it is given twice, and then fails. -/
def exploding : MethodBody Unit Empty := fun args =>
  match args with
  | [_, .callable f] => do
    let _ ← f.call nofun []
    let _ ← f.call nofun []
    return .error ⟨"exploded"⟩
  | _ => return .ok .nil

/-- A session whose command `boom` is that method. -/
def explosive : Session Unit :=
  opening .waiting (.memory .empty) .default (fun l => l.id)
    (CommandTable.empty.insert "boom" (.blocking (Adapter.blockingHandler exploding))).2 ()

/-- Operations up to a line in front of the command. -/
def approach : List (Operation Unit) :=
  [.add (.ofNode "Start" [.line "a" [], .command "boom", .line "b" []]), .start]

theorem completions_once_exploding :
    ∃ s s' : Session Unit, explosive.performAll 9 approach = .ok s ∧
      s.coordinator.suspension = some .line ∧
      (s.withCoordinator s.coordinator.invalidate).settle.run 9 = s'.run 8 ∧
      s'.coordinator.phase = .running ∧ s'.coordinator.suspension = none := by
  obtain ⟨-, -, -, -, -, failing⟩ := completions_once (κ := Empty) nofun 9 approach
    .waiting (.memory .empty) .default (fun l => l.id)
    (CommandTable.empty.insert "boom" (.blocking (Adapter.blockingHandler exploding))).2 ()
  have arrived : explosive.performAll 9 approach = .ok _ := rfl
  have reached := (Course.of_performAll arrived).snoc (.proceed rfl nofun)
  obtain ⟨s', goesOn, -, running, -, -, free⟩ :=
    failing _ _ _ _ _ ⟨"boom"⟩ "boom" exploding [] ⟨"exploded"⟩ reached rfl rfl rfl
  exact ⟨_, s', rfl, rfl, goesOn 8, running, free⟩

end Session

end DialogueEngine
