import DialogueEngine.Proofs.Coordinator.Suspension
import DialogueEngine.Proofs.Machine.Steps
import DialogueEngine.Proofs.Session.Moves

/-! # Operations are courses

Every recorded function walks: one lemma for each, up to whole histories.

* `Walks.within`, `Walks.between` — host code.
* `Walks.turn`, `Walks.run` — the drive.
* `Walks.perform`, `Walks.history` — operations.
-/

namespace DialogueEngine

variable {σ α β : Type}

open Recorded

/-- Where a session is after a turn. -/
def Mode.afterTurn : Session.Turn → Mode σ
  | .again => .driving
  | .rest => .settling
  | .failed e => .failing e

/-- The store after a change by the host does not depend on what the host does on the way. -/
theorem Change.act_all (change : Change) (store : Store σ) :
    (change.act store).All fun r => r.2 = change.onStore store := by
  cases store with
  | memory m => cases change <;> rfl
  | host h =>
    cases change with
    | set name value => exact Act.all_bind fun r => rfl
    | clear => exact Act.all_bind fun r => rfl
    | reset => exact Act.all_bind fun r => rfl

namespace Session

theorem afterHandover_woken {s : Session σ} (woken : s.coordinator.woken = true) (pace : Pace) :
    s.afterHandover pace = (.again, s.withCoordinator { s.coordinator with woken := false }) :=
  if_pos woken

theorem afterHandover_proceed {s : Session σ} (asleep : s.coordinator.woken = false) :
    s.afterHandover .proceed = (.again, s.withCoordinator s.coordinator.invalidate) :=
  if_neg (ne_true_of_eq_false asleep)

theorem afterHandover_pause {s : Session σ} (asleep : s.coordinator.woken = false) :
    s.afterHandover .pause = (.rest, s) :=
  if_neg (ne_true_of_eq_false asleep)

section Turns

variable {s s' : Session σ} {y : Yield}

theorem turn_answered (running : s.coordinator.isRunning = true)
    (answered : s.nextYield = .ok (.ok y, s')) : s.turn = s'.deliver y := by
  rw [turn, if_pos running, answered]
  rfl

theorem run_again (limit : Nat) (turned : s.turn = .ok (.again, s')) :
    s.run (limit + 1) = s'.run limit := by
  rw [run, turned]

theorem run_rest (limit : Nat) (turned : s.turn = .ok (.rest, s')) :
    s.run (limit + 1) = .ok (.ok (), s'.settle) := by
  rw [run, turned]

end Turns

end Session

namespace Walks

variable {due : List Continuation} {mode : Mode σ}

/-! ## Host code inside an operation -/

/-- Host code that has been seen uses a handle. -/
theorem wake {e : Errand} {s : Session σ} {used more : List (Happening σ)}
    {use : Coordinator.Use σ}
    (idle : Walk ⟨mode, due, s⟩ (.moment s :: used) ⟨mode, due, s⟩)
    (moves : e.place = .handover → ∀ c, use = .resumed c →
      Walk ⟨mode, due, s⟩ (.moment s :: (used ++ more))
        ⟨mode, due, s.withCoordinator { c with woken := true }⟩) :
    Walks ⟨mode, due, s⟩
      (Recorded.note [.moment s] >>= fun _ => Recorded.wake e.place s used more use) fun r =>
      ⟨mode, due, r.2⟩ := by
  cases use with
  | ignored => exact Walks.step idle fun _ h => by cases h; rfl
  | refused error => exact Walks.step idle fun _ h => by cases h; rfl
  | failed error =>
    cases e.place with
    | handover => exact Walks.step idle fun _ h => by cases h; rfl
    | store => exact Walks.step idle fun _ h => by cases h
  | resumed c =>
    cases place : e.place with
    | handover => exact ⟨_, moves place c rfl, fun _ h => by cases h; rfl⟩
    | store => exact Walks.step idle fun _ h => by cases h

theorem delay {e : Errand} (runs : mode.Runs e) {s : Session σ} {k : Continuation} {d : Duration}
    {use : Coordinator.Use σ → Recorded σ (Answer σ Unit)} {after : Session σ → Moment σ}
    (rests : ∀ c, after (Session.withCoordinator s c) = ⟨mode, due, s.withCoordinator c⟩)
    (atOnce : Walks ⟨mode, due, s⟩
      (Recorded.note [.moment s] >>= fun _ => use (s.coordinator.useContinuation k)) fun r =>
      after r.2) :
    Walks ⟨mode, due, s⟩
      (Recorded.note [.moment s] >>= fun _ => Recorded.delay s k d use) fun r => after r.2 := by
  unfold Recorded.delay
  split
  · exact atOnce
  · cases scheduled : s.coordinator.schedule? d k with
    | none => exact Walks.step (.use runs (.use _ runs)) fun _ h => by cases h
    | some c =>
      exact Walks.step (.use runs (.wait runs scheduled)) fun _ h => by
        cases h
        exact (rests c).symm

theorem within (e : Errand) (runs : mode.Runs e) (act : Act σ α) (s : Session σ) :
    Walks ⟨mode, due, s⟩ (Recorded.within e act s) fun r => ⟨mode, due, r.2⟩ := by
  have handover (place : e.place = .handover) : mode.Runs .handover := by
    cases e with
    | handover => exact runs
    | machine => cases place
    | client => cases place
  -- a handle of a line or a command that is used at once
  have resumes (s : Session σ) (h : Continuation) :
      Walks ⟨mode, due, s⟩ (Recorded.note [.moment s] >>= fun _ =>
        Recorded.wake e.place s [.used (.continuation h)] [] (s.coordinator.useContinuation h))
        fun r => ⟨mode, due, r.2⟩ :=
    wake (.use runs (.use _ runs)) fun place c resumed =>
      .use runs (.wake (handover place) resumed)
  induction act generalizing s with
  | done a => exact noted (.one (.see runs) nofun) (Walks.pure rfl)
  | read k ih => exact noted (.one (.see runs) nofun) (ih s.host s)
  | write x k ih => exact noted (.write x runs) (ih _)
  | resume h k ih => exact (resumes s h).seen fun r _ => ih r.1 r.2
  | resumeAfter h d k ih =>
    exact (delay runs (fun _ => rfl) (resumes s h)).seen fun r _ => ih r.1 r.2
  | select h id k ih =>
    refine (wake (.use runs (.use _ runs)) fun place c resumed => ?_).seen fun r _ => ih r.1 r.2
    have picked := (Coordinator.useSelector_resumed resumed).2
    exact (Walk.use runs (.use _ runs)).trans (.one (.pick (handover place) picked) nofun)
  | isStale h k ih => exact noted (.one (.see runs) nofun) (ih _ s)

/-! ## The drive -/

theorem nextYield {s : Session σ} (running : s.coordinator.isRunning = true) :
    Walks ⟨.driving, due, s⟩ (Recorded.nextYield s) fun r => ⟨.ofAnswer r.1, due, r.2⟩ := by
  refine .after (.ask running) (.bind (within .machine (by trivial) _ s) fun r answered => ?_)
  obtain ⟨⟨⟨r, m⟩, store⟩, s'⟩ := r
  rw [outcome_within] at answered
  exact noted (.one (.answer answered) nofun) (Walks.pure rfl)

theorem handOver {s : Session σ} {y : Yield} {w : Suspension} (given : y.isDelivered = true)
    (suspends : y.suspension? = some w) (call : Nat → Act σ α) :
    Walks ⟨.carrying y, due, s⟩ (Recorded.handOver s y w call) fun r =>
      ⟨.handing w, due, r.2⟩ :=
  noted (.one (.hand given suspends) nofun) (within .handover (by trivial) _ _)

/-- The end of a hand-over that had a handle. -/
theorem afterHandover {s : Session σ} {w : Suspension} {pace : Pace}
    (free : pace = .proceed → w = .line ∨ w = .command) :
    Walks ⟨.handing w, due, s⟩ (Pure.pure (s.afterHandover pace)) fun r =>
      ⟨.afterTurn r.1, due, r.2⟩ := by
  cases woken : s.coordinator.woken with
  | true =>
    rw [Session.afterHandover_woken woken]
    exact .after (.awaken (.inr ⟨w, rfl⟩) woken) (Walks.pure rfl)
  | false =>
    cases pace with
    | pause =>
      rw [Session.afterHandover_pause woken]
      exact .after (.pause woken) (Walks.pure rfl)
    | proceed =>
      rw [Session.afterHandover_proceed woken]
      rcases free rfl with rfl | rfl
      · exact .after (.goOn (.inr (.inl rfl)) woken) (Walks.pure rfl)
      · exact .after (.goOn (.inr (.inr rfl)) woken) (Walks.pure rfl)

/-- The end of a hand-over that had none. -/
theorem afterPassing {s : Session σ} :
    Walks ⟨.passing, due, s⟩ (Pure.pure (s.afterHandover .proceed)) fun r =>
      ⟨.afterTurn r.1, due, r.2⟩ := by
  cases woken : s.coordinator.woken with
  | true =>
    rw [Session.afterHandover_woken woken]
    exact .after (.awaken (.inl rfl) woken) (Walks.pure rfl)
  | false =>
    rw [Session.afterHandover_proceed woken]
    exact .after (.goOn (.inl rfl) woken) (Walks.pure rfl)

theorem handedOver {s : Session σ} {w : Suspension} {r : Except CapabilityError Pace}
    (free : r = .ok .proceed → w = .line ∨ w = .command) :
    Walks ⟨.handing w, due, s⟩ (Pure.pure (s.handedOver r)) fun r =>
      ⟨.afterTurn r.1, due, r.2⟩ := by
  cases r with
  | error e => exact .after (.fail (.inr ⟨w, rfl⟩)) (Walks.pure rfl)
  | ok pace => exact afterHandover fun h => free (congrArg _ h)

theorem deliverCommand (s : Session σ) (cmd : Command) :
    Walks ⟨.carrying (.command cmd), due, s⟩ (Recorded.deliverCommand s cmd) fun r =>
      ⟨.afterTurn r.1, due, r.2⟩ := by
  unfold Recorded.deliverCommand
  split
  · rename_i blank
    exact .after (.skip (congrArg (!·) blank)) afterPassing
  · rename_i words
    have given : (Yield.command cmd).isDelivered = true :=
      congrArg (!·) (eq_false_of_ne_true words)
    cases s.coordinator.commands.resolve cmd.tokens with
    | none =>
      dsimp only
      split
      · exact Walks.quiet fun _ h => by cases h
      · refine (handOver given rfl _).bind fun r _ => ?_
        exact handedOver fun _ => .inr rfl
    | some r =>
      obtain ⟨name, handler, args⟩ := r
      cases handler with
      | immediate run =>
        exact noted (.one (.pass given) nofun)
          ((within .handover (by trivial) _ _).bind fun r _ => afterPassing)
      | blocking run =>
        refine (handOver given rfl _).bind fun r _ => ?_
        exact afterHandover fun h => by cases h

theorem deliverEnd (s : Session σ) :
    Walks ⟨.carrying .dialogueComplete, due, s⟩ (Recorded.deliverEnd s) fun r =>
      ⟨.afterTurn r.1, due, r.2⟩ := by
  refine noted (.one .complete nofun) ((within .handover (by trivial) _ _).bind fun r _ => ?_)
  obtain ⟨e | ⟨⟩, s'⟩ := r
  · exact .after (.fail (.inl rfl)) (Walks.pure rfl)
  · exact .after .finish (Walks.pure rfl)

theorem deliver (s : Session σ) (y : Yield) :
    Walks ⟨.carrying y, due, s⟩ (Recorded.deliver s y) fun r => ⟨.afterTurn r.1, due, r.2⟩ := by
  cases y with
  | line l =>
    refine (handOver rfl rfl _).bind fun r _ => ?_
    exact handedOver fun _ => .inl rfl
  | choices cs =>
    refine (handOver rfl rfl _).bind fun r _ => ?_
    -- options are never gone past without a choice
    refine handedOver fun h => ?_
    cases hr : r.1 with
    | error e =>
      rw [hr] at h
      cases h
    | ok u =>
      rw [hr] at h
      cases h
  | command cmd => exact deliverCommand s cmd
  | nodeStart node => exact noted (.one (.announce rfl) nofun) (Walks.pure rfl)
  | nodeComplete node => exact noted (.one (.announce rfl) nofun) (Walks.pure rfl)
  | dialogueComplete => exact deliverEnd s

theorem turn (s : Session σ) :
    Walks ⟨.driving, due, s⟩ (Recorded.turn s) fun r => ⟨.afterTurn r.1, due, r.2⟩ := by
  unfold Recorded.turn
  split
  · rename_i running
    refine (nextYield running).bind fun r _ => ?_
    obtain ⟨e | y, s'⟩ := r
    · exact Walks.pure rfl
    · exact deliver s' y
  · rename_i idle
    exact .after (.quiet (eq_false_of_ne_true idle)) (Walks.pure rfl)

theorem run (limit : Nat) (s : Session σ) :
    Walks ⟨.driving, due, s⟩ (Recorded.run limit s) fun r => ⟨.resting, due, r.2⟩ := by
  induction limit generalizing s with
  | zero => exact Walks.quiet fun _ h => by cases h
  | succ limit ih =>
    refine (turn s).bind fun r _ => ?_
    obtain ⟨_ | _ | e, s'⟩ := r
    · exact ih s'
    · exact .after .settle (Walks.pure rfl)
    · exact noted (.one .halt nofun) (Walks.pure rfl)

/-! ## Host code between operations -/

theorem follow {limit : Nat} {s : Session σ} {m : Moment σ} {used more : List (Happening σ)}
    {use : Coordinator.Use σ} (idle : Walk m used ⟨.resting, due, s⟩)
    (moves : ∀ c, use = .resumed c →
      Walk m (used ++ more) ⟨.driving, due, (s.withCoordinator c).settle⟩) :
    Walks m (Recorded.follow limit s used more use) fun r => ⟨.resting, due, r.2⟩ := by
  cases use with
  | ignored => exact ⟨_, idle, fun _ h => by cases h; rfl⟩
  | refused error => exact ⟨_, idle, fun _ h => by cases h; rfl⟩
  | failed error => exact ⟨_, idle, fun _ h => by cases h; rfl⟩
  | resumed c => exact noted (moves c rfl) (run limit _)

/-- Host code that has been seen uses a handle while no drive goes on. -/
theorem followSeen {limit : Nat} {s : Session σ} {used more : List (Happening σ)}
    {use : Coordinator.Use σ}
    (idle : Walk ⟨.resting, due, s⟩ (.moment s :: used) ⟨.resting, due, s⟩)
    (moves : ∀ c, use = .resumed c →
      Walk ⟨.resting, due, s⟩ (.moment s :: (used ++ more))
        ⟨.driving, due, (s.withCoordinator c).settle⟩) :
    Walks ⟨.resting, due, s⟩
      (Recorded.note [.moment s] >>= fun _ => Recorded.follow limit s used more use) fun r =>
      ⟨.resting, due, r.2⟩ := by
  have joined : (Recorded.note [.moment s] >>= fun _ => Recorded.follow limit s used more use) =
      Recorded.follow limit s (.moment s :: used) more use := by
    cases use <;> rfl
  rw [joined]
  exact follow idle moves

theorem between (limit : Nat) (act : Act σ α) (s : Session σ) :
    Walks ⟨.resting, due, s⟩ (Recorded.between limit act s) fun r => ⟨.resting, due, r.2⟩ := by
  have runs : (Mode.resting : Mode σ).Runs .client := trivial
  have resumes (s : Session σ) (h : Continuation) :
      Walks ⟨.resting, due, s⟩ (Recorded.note [.moment s] >>= fun _ =>
        Recorded.follow limit s [.used (.continuation h)] [] (s.coordinator.useContinuation h))
        fun r => ⟨.resting, due, r.2⟩ :=
    followSeen (.use runs (.use _ runs)) fun c resumed => .use runs (.resume resumed)
  induction act generalizing s with
  | done a => exact noted (.one (.see runs) nofun) (Walks.pure rfl)
  | read k ih => exact noted (.one (.see runs) nofun) (ih s.host s)
  | write x k ih => exact noted (.write x runs) (ih _)
  | resume h k ih => exact (resumes s h).seen fun r _ => ih r.1 r.2
  | resumeAfter h d k ih =>
    exact (delay runs (fun _ => rfl) (resumes s h)).seen fun r _ => ih r.1 r.2
  | select h id k ih =>
    refine (followSeen (.use runs (.use _ runs)) fun c resumed => ?_).seen fun r _ => ih r.1 r.2
    have picked := (Coordinator.useSelector_resumed resumed).2
    exact (Walk.use runs (.use _ runs)).trans (.one (.choose picked) nofun)
  | isStale h k ih => exact noted (.one (.see runs) nofun) (ih _ s)

/-! ## Operations -/

theorem readVariable (s : Session σ) (name : String) :
    Walks ⟨.resting, due, s⟩ (Recorded.readVariable s name) fun r => ⟨.resting, due, r.2⟩ :=
  (within .client (by trivial) _ s).bind fun _ _ => Walks.pure rfl

theorem changeStore (s : Session σ) (change : Change) :
    Walks ⟨.resting, due, s⟩ (Recorded.changeStore s change) fun r => ⟨.resting, due, r.2⟩ := by
  refine (within .client (by trivial) _ s).bind fun r ran => ?_
  obtain ⟨⟨r, store⟩, s'⟩ := r
  rw [outcome_within] at ran
  have changed : store = change.onStore s.coordinator.store :=
    (change.act_all s.coordinator.store).within ran
  have frame : s'.coordinator.store = s.coordinator.store := by rw [Act.within_store ran]
  refine noted (.one (.change change) nofun) (Walks.pure ?_)
  rw [frame, ← changed]

theorem load (s : Session σ) (programs : List Program) :
    Walks ⟨.resting, due, s⟩ (Recorded.load s programs) fun r => ⟨.resting, due, r.2⟩ := by
  unfold Recorded.load Session.load
  split
  · exact Walks.quiet fun _ h => by cases h; rfl
  · rename_i idle
    cases Program.combine programs with
    | error e => exact Walks.quiet fun _ h => by cases h; rfl
    | ok p =>
      exact Walks.step (.one (.load (eq_false_of_ne_true idle)) nofun) fun _ h => by cases h; rfl

theorem add (s : Session σ) (p : Program) :
    Walks ⟨.resting, due, s⟩ (Recorded.add s p) fun r => ⟨.resting, due, r.2⟩ := by
  unfold Recorded.add Session.add
  cases added : s.coordinator.machine.add p with
  | error e => exact Walks.quiet fun _ h => by cases h; rfl
  | ok m => exact Walks.step (.one (.add added) nofun) fun _ h => by cases h; rfl

theorem clear (s : Session σ) :
    Walks ⟨.resting, due, s⟩ (Recorded.clear s) fun r => ⟨.resting, due, r.2⟩ := by
  unfold Recorded.clear Session.clear
  split
  · exact Walks.quiet fun _ h => by cases h; rfl
  · rename_i idle
    exact Walks.step (.one (.unload (eq_false_of_ne_true idle)) nofun) fun _ h => by cases h; rfl

theorem refuse {s : Session σ} {e : RuntimeError} :
    Walks ⟨.resting, due, s⟩ (Recorded.quiet (s.refuse (α := α) e)) fun r =>
      ⟨.resting, due, r.2⟩ :=
  Walks.quiet fun _ h => by cases h; rfl

theorem startAt (limit : Nat) (s : Session σ) (node : String) :
    Walks ⟨.resting, due, s⟩ (Recorded.startAt limit s node) fun r => ⟨.resting, due, r.2⟩ := by
  unfold Recorded.startAt
  split
  · exact refuse
  · rename_i idle
    cases entered : s.coordinator.machine.enter node with
    | error e => exact refuse
    | ok m =>
      refine noted (.one (.enter (eq_false_of_ne_true idle) entered) nofun)
        ((within .handover (by trivial) _ _).bind fun r _ => ?_)
      obtain ⟨e | ⟨⟩, s'⟩ := r
      · exact noted (.one .abort nofun) (Walks.pure rfl)
      · exact .after .begin (run limit _)

theorem proceed (limit : Nat) (s : Session σ) :
    Walks ⟨.resting, due, s⟩ (Recorded.proceed limit s) fun r => ⟨.resting, due, r.2⟩ := by
  unfold Recorded.proceed
  split
  · rename_i running
    split
    · exact refuse
    · rename_i free
      exact .after (.proceed running fun ids h => free ids h) (run limit _)
  · exact refuse

theorem choose (limit : Nat) (s : Session σ) (id : Nat) :
    Walks ⟨.resting, due, s⟩ (Recorded.choose limit s id) fun r => ⟨.resting, due, r.2⟩ := by
  unfold Recorded.choose
  split
  · exact follow .nil fun c resumed => .one (.choose resumed) nofun
  · exact refuse

theorem stop (s : Session σ) :
    Walks ⟨.resting, due, s⟩ (Recorded.stop s) fun r => ⟨.resting, due, r.2⟩ :=
  Walks.step (.one .stop nofun) fun _ h => by cases h; rfl

theorem reset (limit : Nat) (s : Session σ) :
    Walks ⟨.resting, due, s⟩ (Recorded.reset limit s) fun r => ⟨.resting, due, r.2⟩ := by
  refine (stop s).bind fun r _ => (changeStore r.2 _).bind fun r _ => ?_
  obtain ⟨e | ⟨⟩, s'⟩ := r
  · exact Walks.pure rfl
  · exact startAt limit s' _

theorem loadSome (s : Session σ) (programs : List Program) :
    Walks ⟨.resting, due, s⟩ (Recorded.loadSome s programs) fun r => ⟨.resting, due, r.2⟩ := by
  unfold Recorded.loadSome
  split
  · exact Walks.pure rfl
  · exact load s programs

theorem startIfSet (limit : Nat) (s : Session σ) :
    Walks ⟨.resting, due, s⟩ (Recorded.startIfSet limit s) fun r => ⟨.resting, due, r.2⟩ := by
  unfold Recorded.startIfSet
  split
  · exact startAt limit s _
  · exact Walks.pure rfl

theorem prepare (limit : Nat) (s : Session σ) (programs : List Program) :
    Walks ⟨.resting, due, s⟩ (Recorded.prepare limit s programs) fun r =>
      ⟨.resting, due, r.2⟩ := by
  refine (changeStore s _).bind fun r _ => ?_
  obtain ⟨e | ⟨⟩, s'⟩ := r
  · exact Walks.pure rfl
  · refine (loadSome s' programs).bind fun r _ => ?_
    obtain ⟨e | ⟨⟩, s''⟩ := r
    · exact Walks.pure rfl
    · exact startIfSet limit s''

theorem expired (due : List Continuation) (s : Session σ) :
    Walk ⟨.resting, due, s⟩ [] ⟨.resting, [], s⟩ := by
  induction due with
  | nil => exact .nil
  | cons k due ih => exact (Walk.one .expire nofun).trans ih

theorem resumeAll (limit : Nat) (s : Session σ) (due : List Continuation) :
    Walks ⟨.resting, due, s⟩ (Recorded.resumeAll limit s due) fun r => ⟨.resting, [], r.2⟩ := by
  induction due generalizing s with
  | nil => exact Walks.pure rfl
  | cons k due ih =>
    refine (follow (.one .expire nofun) fun c resumed => .one (.fire resumed) nofun).bind
      fun r _ => ?_
    obtain ⟨e | ⟨⟩, s'⟩ := r
    · exact ⟨_, expired due s', fun _ h => by cases h; rfl⟩
    · exact ih s'

theorem update (limit : Nat) (s : Session σ) (delta : Duration) :
    Walks ⟨.resting, [], s⟩ (Recorded.update limit s delta) fun r => ⟨.resting, [], r.2⟩ := by
  unfold Recorded.update
  split
  · exact Walks.quiet fun _ h => by cases h
  · rename_i advanced
    exact .after (.advance advanced) (resumeAll limit _ _)

theorem furnish {s : Session σ} {text : Line → String} {commands : CommandTable σ} {lent : Bool}
    {events : List LifecycleEvent} :
    Walks ⟨.resting, due, s⟩ (Recorded.quiet (.ok (.ok (),
      s.withCoordinator (s.coordinator.furnish text commands lent events))) :
        Recorded σ (Answer σ Unit)) fun r => ⟨.resting, due, r.2⟩ :=
  .after .furnish (Walks.quiet fun _ h => by cases h; rfl)

theorem equip (limit : Nat) (s : Session σ)
    (act : CommandTable σ → Act σ (Except CapabilityError Unit × CommandTable σ)) :
    Walks ⟨.resting, due, s⟩ (Recorded.equip limit s act) fun r => ⟨.resting, due, r.2⟩ :=
  .after .furnish ((between limit _ s.lend).bind fun _ _ => .after .furnish (Walks.pure rfl))

theorem perform (limit : Nat) (s : Session σ) (op : Operation σ) :
    Walks ⟨.resting, [], s⟩ (Recorded.perform limit s op) fun r => ⟨.resting, [], r.2⟩ := by
  cases op with
  | prepare programs => exact prepare limit s programs
  | load programs => exact load s programs
  | add p => exact add s p
  | start => exact startAt limit s _
  | startAt node => exact startAt limit s node
  | proceed => exact proceed limit s
  | choose id => exact choose limit s id
  | stop => exact stop s
  | reset => exact reset limit s
  | clear => exact clear s
  | update delta => exact update limit s delta
  | host act => exact (between limit act s).bind fun _ _ => Walks.pure rfl
  | readVariable name => exact (readVariable s name).bind fun _ _ => Walks.pure rfl
  | writeVariable name value => exact changeStore s _
  | clearVariables => exact changeStore s _
  | resetVariables => exact changeStore s _
  | setText text => exact furnish
  | register name h => exact furnish
  | unregister name => exact furnish
  | equip act => exact equip limit s act
  | drainEvents => exact furnish

/-- Whatever a host does with a session is a walk. -/
theorem history (limit : Nat) (ops : List (Operation σ)) (s : Session σ) :
    Walks ⟨.resting, [], s⟩ (Recorded.history limit ops s) fun s' => ⟨.resting, [], s'⟩ := by
  have runs : (Mode.resting : Mode σ).Runs .client := trivial
  induction ops generalizing s with
  | nil => exact noted (.one (.see runs) nofun) (Walks.pure rfl)
  | cons op ops ih =>
    refine noted (.one (.see runs) nofun) ((perform limit s op).bind fun r _ => ?_)
    exact ih r.2

end Walks

/-- Whatever a host does with a session is a course of moves. -/
theorem Leads.history (limit : Nat) (ops : List (Operation σ)) (s : Session σ) :
    Leads ⟨.resting, [], s⟩ (Recorded.history limit ops s) fun s' => ⟨.resting, [], s'⟩ :=
  (Walks.history limit ops s).leads

/-- The operations of a host, and what happens in them, as a walk to where they end. -/
theorem Walk.of_performAll {limit : Nat} {ops : List (Operation σ)} {s s' : Session σ}
    (done : s.performAll limit ops = .ok s') :
    Walk ⟨.resting, [], s⟩ (Recorded.history limit ops s).happenings ⟨.resting, [], s'⟩ := by
  obtain ⟨m, walk, ends⟩ := Walks.history limit ops s
  rw [outcome_history] at ends
  cases ends s' done
  exact walk

/-- The operations of a host, and what happens in them, as a course to where they end. -/
theorem Course.of_performAll {limit : Nat} {ops : List (Operation σ)} {s s' : Session σ}
    (done : s.performAll limit ops = .ok s') :
    Course ⟨.resting, [], s⟩ (Recorded.history limit ops s).happenings ⟨.resting, [], s'⟩ :=
  (Walk.of_performAll done).course

end DialogueEngine
