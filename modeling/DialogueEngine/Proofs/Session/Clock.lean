import DialogueEngine.Proofs.Session.Delays

/-! # The clock of the waits

Time passes only where the host says so, and nothing sets the clock back: at every moment it shows
the sum of all updates, also those of earlier runs. A wait is put in at this time, so that a delay
that is written as it should be can still lie beyond the largest duration, and then the session
breaks off.

* `Session.clock`, `Operation.elapsed` — the time of a session, and what the host says of it.
* `Recorded.Stays` — host code sees one time throughout.
* `Recorded.Stays.perform` — within an operation time stands still.
* `Session.performAll_standing` — the clock shows the sum of all updates, and between operations no
  command table is lent out.
* `Session.deliverCommand_wait` — when a wait breaks off.
* `Session.wait_breaks_off_iff` — the two together.
-/

namespace DialogueEngine

variable {σ α β : Type}

def Operation.delta? : Operation σ → Option Duration
  | .update delta => some delta
  | _ => none

/-- The time that passes in operations, in nanoseconds. -/
def Operation.elapsed (ops : List (Operation σ)) : Nat :=
  Duration.total (ops.filterMap Operation.delta?)

/-- The time that has passed, in nanoseconds. -/
def Session.clock (s : Session σ) : Nat := s.coordinator.timers.now.nanos

/-- What a drive leaves alone: the time that has passed, and whether the command table is lent
    out. -/
def Session.standing (s : Session σ) : Nat × Bool := (s.clock, s.coordinator.lent)

theorem Session.standing_eq_iff {s : Session σ} {n : Nat} {b : Bool} :
    s.standing = (n, b) ↔ s.clock = n ∧ s.coordinator.lent = b := Prod.ext_iff

theorem Session.clock_of_standing {s : Session σ} {n : Nat} {b : Bool}
    (same : s.standing = (n, b)) : s.clock = n := (standing_eq_iff.mp same).1

/-- Where the time is kept, the rest of the standing may be another. -/
theorem Session.standing_of_clock {s s' : Session σ} {n : Nat} {b : Bool}
    (same : s.standing = (n, b)) (kept : s'.clock = s.clock) :
    s'.standing = (n, s'.coordinator.lent) :=
  standing_eq_iff.mpr ⟨kept.trans (clock_of_standing same), rfl⟩

/-- Where a session is seen it shows a time. -/
def Happening.Shows (n : Nat) : Happening σ → Prop
  | .moment s => s.clock = n
  | _ => True

theorem Errand.writes_shows (e : Errand) (x : σ) (n : Nat) : ∀ a ∈ e.writes x, a.Shows n := by
  intro a mem
  cases e with
  | machine => cases mem
  | handover | client => cases List.mem_singleton.mp mem; trivial

theorem Coordinator.schedule?_now {c c' : Coordinator σ} {d : Duration} {k : Continuation}
    (scheduled : c.schedule? d k = some c') : c'.timers.now = c.timers.now := by
  unfold schedule? Timers.schedule? at scheduled
  cases added : c.timers.now.add? d with
  | none =>
    rw [added] at scheduled
    cases scheduled
  | some deadline =>
    rw [added] at scheduled
    cases scheduled
    rfl

/-- A handle cannot be made to wait beyond the largest duration. -/
theorem Coordinator.schedule?_eq_none {c : Coordinator σ} {d : Duration} {k : Continuation} :
    c.schedule? d k = none ↔ Duration.bound ≤ c.timers.now.nanos + d.nanos := by
  rw [schedule?, Timers.schedule?, Option.map_eq_none_iff, Option.map_eq_none_iff, Duration.add?,
    Duration.ofNanos?]
  split
  · rename_i small
    exact iff_of_false (by rintro ⟨⟩) (Nat.not_le_of_lt small)
  · rename_i late
    exact iff_of_true rfl (Nat.le_of_not_lt late)

/-! ## Time stands still -/

namespace Recorded

/-- Host code sees one time throughout, and it is the time afterwards. Whether the command table is
    lent out is said of the end only, as an operation may lend it in between. -/
structure Stays (n : Nat) (b : Bool) (x : Recorded σ (α × Session σ)) : Prop where
  seen : ∀ a ∈ x.happenings, a.Shows n
  after : ∀ a s, x.outcome = .ok (a, s) → s.standing = (n, b)

namespace Stays

variable {n : Nat} {b b' : Bool} {s : Session σ}

theorem pure {a : α} (same : s.standing = (n, b)) :
    Stays n b (Pure.pure (a, s) : Recorded σ _) :=
  ⟨List.forall_mem_nil _, fun _ _ h => by cases h; exact same⟩

theorem fault {f : Fault} : Stays n b (quiet (.error f) : Recorded σ (α × Session σ)) :=
  ⟨List.forall_mem_nil _, fun _ _ h => by cases h⟩

theorem bind {x : Recorded σ (α × Session σ)} {f : α × Session σ → Recorded σ (β × Session σ)}
    (hx : Stays n b x) (hf : ∀ a s, s.standing = (n, b) → Stays n b' (f (a, s))) :
    Stays n b' (x >>= f) := by
  cases outcome : x.outcome with
  | error e =>
    rw [bind_fault outcome]
    exact ⟨hx.seen, fun _ _ h => by cases h⟩
  | ok r =>
    obtain ⟨seen, after⟩ := hf r.1 r.2 (hx.after _ _ outcome)
    refine ⟨?_, fun b s' done => after b s' ?_⟩
    · rw [happenings_bind outcome]
      exact List.forall_mem_append.mpr ⟨hx.seen, seen⟩
    · rw [outcome_bind, outcome] at done
      exact done

theorem noted {l : List (Happening σ)} {x : Recorded σ (α × Session σ)}
    (shows : ∀ a ∈ l, a.Shows n) (hx : Stays n b x) : Stays n b (note l >>= fun _ => x) :=
  ⟨List.forall_mem_append.mpr ⟨shows, hx.seen⟩, hx.after⟩

/-- A single thing that is written down. -/
theorem noted_one {a : Happening σ} {x : Recorded σ (α × Session σ)} (shown : a.Shows n)
    (hx : Stays n b x) : Stays n b (note [a] >>= fun _ => x) :=
  noted (List.forall_mem_singleton.mpr shown) hx

/-- A session that is seen. -/
theorem saw {x : Recorded σ (α × Session σ)} (same : s.standing = (n, b)) (hx : Stays n b' x) :
    Stays n b' (note [.moment s] >>= fun _ => x) :=
  noted_one (Session.clock_of_standing same) hx

/-- Something that happens at once. -/
theorem step {l : List (Happening σ)} {a : α} (shows : ∀ a ∈ l, a.Shows n)
    (same : s.standing = (n, b)) : Stays n b (⟨l, .ok (a, s)⟩ : Recorded σ _) :=
  ⟨shows, fun _ _ h => by cases h; exact same⟩

theorem step_one {e : Happening σ} {a : α} (shown : e.Shows n) (same : s.standing = (n, b)) :
    Stays n b (⟨[e], .ok (a, s)⟩ : Recorded σ _) :=
  step (List.forall_mem_singleton.mpr shown) same

/-! ### Host code -/

theorem wake {place : Place} {h : Handle} {more : List (Happening σ)} {use : Coordinator.Use σ}
    (same : s.standing = (n, b))
    (resumed : ∀ c, use = .resumed c → (s.withCoordinator c).standing = (n, b))
    (shows : ∀ a ∈ more, a.Shows n) : Stays n b (Recorded.wake place s [.used h] more use) := by
  have used : ∀ a ∈ [(.used h : Happening σ)], a.Shows n := List.forall_mem_singleton.mpr trivial
  cases use with
  | ignored => exact step used same
  | refused e => exact step used same
  -- a store is asked while the session is in use: what takes effect there breaks off
  | failed e =>
    cases place with
    | handover => exact step used same
    | store => exact ⟨used, fun _ _ h => by cases h⟩
  | resumed c =>
    cases place with
    | handover => exact step (List.forall_mem_append.mpr ⟨used, shows⟩) (resumed c rfl)
    | store => exact ⟨used, fun _ _ h => by cases h⟩

theorem delay {h : Continuation} {d : Duration}
    {use : Coordinator.Use σ → Recorded σ (Answer σ Unit)} (same : s.standing = (n, b))
    (hu : Stays n b (use (s.coordinator.useContinuation h))) :
    Stays n b (Recorded.delay s h d use) := by
  have used : ∀ a ∈ [(.used (.continuation h) : Happening σ)], a.Shows n :=
    List.forall_mem_singleton.mpr trivial
  unfold Recorded.delay
  split
  · exact hu
  · split
    · rename_i c scheduled
      refine step used ?_
      rw [← same]
      have lent : c.lent = s.coordinator.lent := by rw [Coordinator.schedule?_eq scheduled]
      exact Prod.ext (congrArg Duration.nanos (Coordinator.schedule?_now scheduled)) lent
    · exact ⟨used, fun _ _ h => by cases h⟩

theorem useContinuation_now {k : Continuation} (same : s.standing = (n, b)) (c : Coordinator σ)
    (resumed : s.coordinator.useContinuation k = .resumed c) :
    (s.withCoordinator c).standing = (n, b) := by
  obtain ⟨_, _, rfl⟩ := Coordinator.useContinuation_resumed resumed
  exact same

theorem pick_now {id : Nat} (same : s.standing = (n, b)) (c : Coordinator σ)
    (resumed : s.coordinator.pick id = .resumed c) : (s.withCoordinator c).standing = (n, b) := by
  obtain ⟨_, _, _, _, rfl⟩ := Coordinator.pick_resumed resumed
  exact same

theorem useSelector_now {h : Selector} {id : Nat} (same : s.standing = (n, b)) (c : Coordinator σ)
    (resumed : s.coordinator.useSelector h id = .resumed c) :
    (s.withCoordinator c).standing = (n, b) :=
  pick_now same c (Coordinator.useSelector_resumed resumed).2

theorem within (e : Errand) (act : Act σ α) (same : s.standing = (n, b)) :
    Stays n b (Recorded.within e act s) := by
  have picked (id : Nat) : ∀ a ∈ [(.picked id : Happening σ)], a.Shows n :=
    List.forall_mem_singleton.mpr trivial
  have resumes {s : Session σ} (same : s.standing = (n, b)) (h : Continuation) :
      Stays n b (Recorded.wake e.place s [.used (.continuation h)] []
        (s.coordinator.useContinuation h)) :=
    wake same (useContinuation_now same) (List.forall_mem_nil _)
  induction act generalizing s with
  | done a => exact saw same (pure same)
  | read k ih => exact saw same (ih s.host same)
  | write x k ih =>
    have shows : ∀ a ∈ .moment s :: e.writes x, a.Shows n :=
      List.forall_mem_cons.mpr ⟨Session.clock_of_standing same, e.writes_shows x n⟩
    exact noted shows (ih same)
  | resume h k ih => exact saw same ((resumes same h).bind fun r _ same => ih r same)
  | resumeAfter h d k ih =>
    exact saw same ((delay same (resumes same h)).bind fun r _ same => ih r same)
  | select h id k ih =>
    exact saw same
      ((wake same (useSelector_now same) (picked id)).bind fun r _ same => ih r same)
  | isStale h k ih => exact saw same (ih _ same)

/-! ### The drive -/

theorem nextYield (same : s.standing = (n, b)) : Stays n b (Recorded.nextYield s) :=
  (within .machine _ same).bind fun _ _ same => noted_one trivial (pure same)

theorem handOver (same : s.standing = (n, b)) (y : Yield) (w : Suspension) (call : Nat → Act σ α) :
    Stays n b (Recorded.handOver s y w call) :=
  noted_one trivial (within .handover _ same)

theorem afterHandover (same : s.standing = (n, b)) (pace : Pace) :
    Stays n b (Pure.pure (s.afterHandover pace) : Recorded σ _) := by
  cases woken : s.coordinator.woken with
  | true =>
    rw [Session.afterHandover_woken woken]
    exact pure same
  | false =>
    cases pace with
    | proceed =>
      rw [Session.afterHandover_proceed woken]
      exact pure same
    | pause =>
      rw [Session.afterHandover_pause woken]
      exact pure same

theorem handedOver (same : s.standing = (n, b)) (r : Except CapabilityError Pace) :
    Stays n b (Pure.pure (s.handedOver r) : Recorded σ _) := by
  cases r with
  | error e => exact pure same
  | ok pace => exact afterHandover same pace

theorem deliverCommand (same : s.standing = (n, b)) (cmd : Command) :
    Stays n b (Recorded.deliverCommand s cmd) := by
  unfold Recorded.deliverCommand
  split
  · exact afterHandover same _
  · split
    · split
      · exact fault
      · exact (handOver same _ _ _).bind fun _ _ same => handedOver same _
    · exact noted_one trivial
        ((within .handover _ same).bind fun _ _ same => afterHandover same _)
    · exact (handOver same _ _ _).bind fun _ _ same => afterHandover same _

theorem deliverEnd (same : s.standing = (n, b)) : Stays n b (Recorded.deliverEnd s) := by
  have ended : (s.withCoordinator s.coordinator.complete).standing = (n, b) := same
  refine noted_one trivial ((within .handover _ ended).bind fun r s' same => ?_)
  obtain e | ⟨⟩ := r
  · exact pure same
  · exact pure same

theorem deliver (same : s.standing = (n, b)) (y : Yield) : Stays n b (Recorded.deliver s y) := by
  cases y with
  | line l => exact (handOver same _ _ _).bind fun _ _ same => handedOver same _
  | choices cs => exact (handOver same _ _ _).bind fun _ _ same => handedOver same _
  | command cmd => exact deliverCommand same cmd
  | nodeStart node => exact noted_one trivial (pure same)
  | nodeComplete node => exact noted_one trivial (pure same)
  | dialogueComplete => exact deliverEnd same

theorem turn (same : s.standing = (n, b)) : Stays n b (Recorded.turn s) := by
  unfold Recorded.turn
  split
  · refine (nextYield same).bind fun r s' same => ?_
    obtain e | y := r
    · exact pure same
    · exact deliver same y
  · exact pure same

theorem run (limit : Nat) (same : s.standing = (n, b)) : Stays n b (Recorded.run limit s) := by
  induction limit generalizing s with
  | zero => exact fault
  | succ limit ih =>
    refine (turn same).bind fun r s' same => ?_
    obtain _ | _ | e := r
    · exact ih same
    · exact pure same
    · exact noted_one trivial (pure same)

/-! ### Operations -/

theorem follow {limit : Nat} {used more : List (Happening σ)} {use : Coordinator.Use σ}
    (same : s.standing = (n, b))
    (resumed : ∀ c, use = .resumed c → (s.withCoordinator c).standing = (n, b))
    (shows : ∀ a ∈ used ++ more, a.Shows n) :
    Stays n b (Recorded.follow limit s used more use) := by
  have before := (List.forall_mem_append.mp shows).1
  cases use with
  | ignored => exact step before same
  | refused e => exact step before same
  | failed e => exact step before same
  | resumed c => exact noted shows (run limit (resumed c rfl))

theorem between (limit : Nat) (act : Act σ α) (same : s.standing = (n, b)) :
    Stays n b (Recorded.between limit act s) := by
  have resumes {s : Session σ} (same : s.standing = (n, b)) (h : Continuation) :
      Stays n b (Recorded.follow limit s [.used (.continuation h)] []
        (s.coordinator.useContinuation h)) :=
    follow same (useContinuation_now same) (List.forall_mem_singleton.mpr trivial)
  induction act generalizing s with
  | done a => exact saw same (pure same)
  | read k ih => exact saw same (ih s.host same)
  | write x k ih =>
    exact noted (List.forall_mem_cons.mpr
      ⟨Session.clock_of_standing same, List.forall_mem_singleton.mpr trivial⟩) (ih same)
  | resume h k ih => exact saw same ((resumes same h).bind fun r _ same => ih r same)
  | resumeAfter h d k ih =>
    exact saw same ((delay same (resumes same h)).bind fun r _ same => ih r same)
  | select h id k ih =>
    have shows : ∀ a ∈ [.used (.selector h), (.picked id : Happening σ)], a.Shows n :=
      List.forall_mem_cons.mpr ⟨trivial, List.forall_mem_singleton.mpr trivial⟩
    exact saw same
      ((follow same (useSelector_now same) shows).bind fun r _ same => ih r same)
  | isStale h k ih => exact saw same (ih _ same)

theorem readVariable (same : s.standing = (n, b)) (name : String) :
    Stays n b (Recorded.readVariable s name) :=
  (within .client _ same).bind fun _ _ same => pure same

theorem changeStore (same : s.standing = (n, b)) (change : Change) :
    Stays n b (Recorded.changeStore s change) :=
  (within .client _ same).bind fun _ _ same => noted_one trivial (pure same)

theorem load (same : s.standing = (n, b)) (programs : List Program) :
    Stays n b (Recorded.load s programs) := by
  unfold Recorded.load Session.load
  split
  · exact pure same
  · cases Program.combine programs with
    | error e => exact pure same
    | ok p => exact step_one trivial same

theorem add (same : s.standing = (n, b)) (p : Program) : Stays n b (Recorded.add s p) := by
  unfold Recorded.add Session.add
  cases s.coordinator.machine.add p with
  | error e => exact pure same
  | ok m => exact step_one trivial same

theorem clear (same : s.standing = (n, b)) : Stays n b (Recorded.clear s) := by
  unfold Recorded.clear Session.clear
  split
  · exact pure same
  · exact step_one trivial same

theorem startAt (limit : Nat) (same : s.standing = (n, b)) (node : String) :
    Stays n b (Recorded.startAt limit s node) := by
  unfold Recorded.startAt
  split
  · exact pure same
  · split
    · exact pure same
    · rename_i m entered
      have begun : (s.withCoordinator (s.coordinator.begin m)).standing = (n, b) := same
      refine noted_one trivial ((within .handover _ begun).bind fun r s' same => ?_)
      obtain e | ⟨⟩ := r
      · exact noted_one trivial (pure same)
      · exact run limit same

theorem proceed (limit : Nat) (same : s.standing = (n, b)) :
    Stays n b (Recorded.proceed limit s) := by
  unfold Recorded.proceed
  split
  · split
    · exact pure same
    · exact run limit same
  · exact pure same

theorem choose (limit : Nat) (same : s.standing = (n, b)) (id : Nat) :
    Stays n b (Recorded.choose limit s id) := by
  unfold Recorded.choose
  split
  · exact follow same (pick_now same) (List.forall_mem_singleton.mpr trivial)
  · exact pure same

theorem reset (limit : Nat) (same : s.standing = (n, b)) : Stays n b (Recorded.reset limit s) := by
  have stopped : Stays n b (Recorded.stop s) := step_one trivial same
  refine stopped.bind fun _ _ same => (changeStore same _).bind fun r s' same => ?_
  obtain e | ⟨⟩ := r
  · exact pure same
  · exact startAt limit same _

theorem prepare (limit : Nat) (same : s.standing = (n, b)) (programs : List Program) :
    Stays n b (Recorded.prepare limit s programs) := by
  have loads {s : Session σ} (same : s.standing = (n, b)) :
      Stays n b (Recorded.loadSome s programs) := by
    unfold Recorded.loadSome
    split
    · exact pure same
    · exact load same programs
  have starts {s : Session σ} (same : s.standing = (n, b)) :
      Stays n b (Recorded.startIfSet limit s) := by
    unfold Recorded.startIfSet
    split
    · exact startAt limit same _
    · exact pure same
  refine (changeStore same _).bind fun r s' same => ?_
  obtain e | ⟨⟩ := r
  · exact pure same
  · refine (loads same).bind fun r s'' same => ?_
    obtain e | ⟨⟩ := r
    · exact pure same
    · exact starts same

theorem resumeAll (limit : Nat) (same : s.standing = (n, b)) (due : List Continuation) :
    Stays n b (Recorded.resumeAll limit s due) := by
  induction due generalizing s with
  | nil => exact pure same
  | cons k due ih =>
    refine (follow same (useContinuation_now same) (List.forall_mem_nil _)).bind
      fun r s' same => ?_
    obtain e | ⟨⟩ := r
    · exact pure same
    · exact ih same

/-- An update takes place at the time that it leads to. -/
theorem update (limit : Nat) (same : s.standing = (n, b)) (delta : Duration) :
    Stays (n + delta.nanos) b (Recorded.update limit s delta) := by
  cases same
  unfold Recorded.update Timers.advance?
  cases added : s.coordinator.timers.now.add? delta with
  | none => exact fault
  | some now =>
    have later (entries : List Timer) : (s.withCoordinator
        { s.coordinator with timers := ⟨now, entries⟩ }).standing =
          (s.clock + delta.nanos, s.coordinator.lent) :=
      Session.standing_eq_iff.mpr ⟨Duration.add?_eq_some.mp added, rfl⟩
    exact resumeAll limit (later _) _

theorem equip (limit : Nat) (same : s.standing = (n, b))
    (act : CommandTable σ → Act σ (Except CapabilityError Unit × CommandTable σ)) :
    Stays n false (Recorded.equip limit s act) := by
  -- the table is lent out only in between, so that the second part of the standing changes twice
  have lent : s.lend.standing = (n, true) := Session.standing_of_clock same rfl
  exact (between limit _ lent).bind fun r s' same => pure (Session.standing_of_clock same rfl)

/-- Within an operation time stands still, and after it no command table is lent out. -/
theorem perform (limit : Nat) (same : s.standing = (n, false)) (op : Operation σ) :
    Stays (n + Operation.elapsed [op]) false (Recorded.perform limit s op) := by
  cases op with
  | prepare programs => exact prepare limit same programs
  | load programs => exact load same programs
  | add p => exact add same p
  | start => exact startAt limit same _
  | startAt node => exact startAt limit same node
  | proceed => exact proceed limit same
  | choose id => exact choose limit same id
  | stop => exact step_one trivial same
  | reset => exact reset limit same
  | clear => exact clear same
  | update delta => exact update limit same delta
  | host act => exact (between limit act same).bind fun _ _ same => pure same
  | readVariable name => exact (readVariable same name).bind fun _ _ same => pure same
  | writeVariable name value => exact changeStore same _
  | clearVariables => exact changeStore same _
  | resetVariables => exact changeStore same _
  | register | unregister => exact pure (Session.standing_of_clock same rfl)
  | equip act => exact equip limit same act
  | setText | drainEvents => exact pure same

end Stays

end Recorded

/-! ## The sum of all updates -/

theorem Operation.elapsed_cons (op : Operation σ) (ops : List (Operation σ)) :
    elapsed (op :: ops) = elapsed [op] + elapsed ops := by
  cases op with
  | update delta => exact congrArg (· + elapsed ops) (Nat.add_zero delta.nanos).symm
  | _ => exact (Nat.zero_add _).symm

theorem Operation.elapsed_append (ops more : List (Operation σ)) :
    elapsed (ops ++ more) = elapsed ops + elapsed more := by
  induction ops with
  | nil => exact (Nat.zero_add _).symm
  | cons op ops ih =>
    rw [List.cons_append, elapsed_cons, ih, elapsed_cons op ops, Nat.add_assoc]

namespace Session

/-- The clock shows the sum of all updates, and no command table is lent out. -/
theorem performAll_standing {limit n : Nat} {ops : List (Operation σ)} {s s' : Session σ}
    (same : s.standing = (n, false)) (done : s.performAll limit ops = .ok s') :
    s'.standing = (n + Operation.elapsed ops, false) := by
  induction ops generalizing s n with
  | nil =>
    cases done
    exact same
  | cons op ops ih =>
    rw [performAll] at done
    split at done
    · cases done
    · rename_i r s₁ performed
      have moved := (Recorded.Stays.perform limit same op).after r s₁
        ((Recorded.outcome_perform limit s op).trans performed)
      rw [ih moved done, Operation.elapsed_cons op ops, Nat.add_assoc]

/-- Between operations the command table of a session is its own. -/
theorem performAll_unlent {presenter : Presenter σ} {store : Store σ} {settings : Settings}
    {text : Line → String} {commands : CommandTable σ} {host : σ} {limit : Nat}
    {ops : List (Operation σ)} {s : Session σ}
    (reached : (opening presenter store settings text commands host).performAll limit ops = .ok s) :
    s.coordinator.lent = false :=
  (standing_eq_iff.mp (performAll_standing rfl reached)).2

/-! ## Waits -/

theorem wake_handover (s : Session σ) (use : Coordinator.Use σ) :
    ∃ r, s.wake .handover use = .ok r := by
  cases use <;> exact ⟨_, rfl⟩

variable {s : Session σ} {args : List String} {f : Fault}

/-- The handler of `wait` breaks off exactly if there is no deadline for the delay. -/
theorem waitHandler_within (k : Continuation) :
    (waitHandler args k).within .handover s = .error f ↔
      f = .clockOverflow ∧ ∃ d, Duration.parse? args = some d ∧
        Duration.bound ≤ s.clock + d.nanos := by
  obtain ⟨r, woken⟩ := s.wake_handover (s.coordinator.useContinuation k)
  unfold waitHandler
  cases parsed : Duration.parse? args with
  | none =>
    simp only [Act.within, woken]
    simp
  | some d =>
    simp only [Act.within, delay, Option.some.injEq, exists_eq_left']
    cases zero : d.isZero with
    | true =>
      -- without a time the handle is used at once
      have small : s.clock + d.nanos < Duration.bound := by
        rw [eq_of_beq zero]
        exact s.coordinator.timers.now.nanos_lt
      rw [if_pos rfl, woken]
      exact ⟨by rintro ⟨⟩, fun h => absurd h.2 (Nat.not_le_of_lt small)⟩
    | false =>
      rw [if_neg Bool.false_ne_true]
      cases scheduled : s.coordinator.schedule? d k with
      | none =>
        have late := Coordinator.schedule?_eq_none.mp scheduled
        exact ⟨fun h => ⟨by cases h; rfl, late⟩, fun h => by rw [h.1]⟩
      | some c =>
        refine ⟨by rintro ⟨⟩, fun h => ?_⟩
        rw [Coordinator.schedule?_eq_none.mpr h.2] at scheduled
        cases scheduled

/-- A wait that is carried out breaks off exactly if its deadline lies beyond the largest
    duration. -/
theorem deliverCommand_wait {cmd : Command} {name : String}
    (resolved : s.coordinator.commands.resolve cmd.tokens =
      some ⟨name, .blocking waitHandler, args⟩) :
    s.deliverCommand cmd = .error f ↔
      f = .clockOverflow ∧ ∃ d, Duration.parse? args = some d ∧
        Duration.bound ≤ s.clock + d.nanos := by
  have same : s.suspended.clock = s.clock := rfl
  rw [deliverCommand_blocking resolved, ← same, ← waitHandler_within]
  change ((waitHandler args _).within .handover s.suspended >>= _) = _ ↔ _
  cases (waitHandler args ⟨s.coordinator.generation + 1⟩).within .handover s.suspended with
  | error e => exact ⟨fun h => by cases h; rfl, fun h => by cases h; rfl⟩
  | ok r => exact ⟨nofun, nofun⟩

/-- Throughout an operation the clock shows the sum of all updates up to this one, and so it does
    afterwards. A wait that is carried out at this time breaks off exactly if the sum and the delay
    that it writes lie beyond the largest duration together; nothing else in it breaks off. -/
theorem wait_breaks_off_iff (presenter : Presenter σ) (store : Store σ) (settings : Settings)
    (text : Line → String) (commands : CommandTable σ) (host : σ) (limit : Nat)
    {before : List (Operation σ)} {s : Session σ}
    (reached : (opening presenter store settings text commands host).performAll limit before =
      .ok s) (op : Operation σ) :
    let n := Operation.elapsed (before ++ [op])
    (∀ s', .moment s' ∈ (Recorded.perform limit s op).happenings → s'.clock = n) ∧
    (∀ r s', op.perform limit s = .ok (r, s') → s'.clock = n) ∧
    ∀ (s' : Session σ) (cmd : Command) (name : String) (args : List String) (f : Fault),
      s'.clock = n →
      s'.coordinator.commands.resolve cmd.tokens = some ⟨name, .blocking waitHandler, args⟩ →
      (s'.deliverCommand cmd = .error f ↔ f = .clockOverflow ∧
        ∃ d, Duration.parse? args = some d ∧ Duration.bound ≤ n + d.nanos) := by
  intro n
  have start : (opening presenter store settings text commands host).standing = (0, false) := rfl
  have stays := Recorded.Stays.perform limit (performAll_standing start reached) op
  rw [Nat.zero_add, ← Operation.elapsed_append] at stays
  refine ⟨fun s' seen => stays.seen _ seen, fun r s' done => ?_, ?_⟩
  · have after := stays.after r s' ((Recorded.outcome_perform limit s op).trans done)
    exact clock_of_standing after
  · intro s' cmd name args f same resolved
    rw [← same]
    exact deliverCommand_wait resolved

/-- Some time passes, and then a wait of almost the largest duration is still to come. -/
def belated : List (Operation Unit) :=
  [.add (.ofNode "Start" [.command "wait 18446744073709549568"]),
    .update ⟨2048000000000, by decide⟩]

theorem wait_breaks_off_belated :
    let s := drowsy.atTime ⟨⟨2048000000000, by decide⟩, []⟩
    (∃ s, drowsy.performAll 9 belated = .ok s) ∧
      s.deliverCommand ⟨"wait 18446744073709549568"⟩ = .error .clockOverflow ∧
      drowsy.performAll 9 (belated ++ [.start]) = .error .clockOverflow := by
  intro s
  have breaks : (match drowsy.performAll 9 (belated ++ [.start]) with
      | .error f => some f
      | .ok _ => none) = some .clockOverflow := by decide +kernel
  have lasts : (drowsy.performAll 9 belated).toOption.isSome = true := by decide +kernel
  cases reached : drowsy.performAll 9 belated with
  | error f =>
    rw [reached] at lasts
    cases lasts
  | ok s₁ =>
    obtain ⟨-, -, waits⟩ := wait_breaks_off_iff .waiting (.memory .empty) .default (fun l => l.id)
      .builtin () 9 reached .start
    have parsed : Duration.parse? ["18446744073709549568"] =
        some ⟨18446744073709549568000000000, by decide⟩ := by decide +kernel
    refine ⟨⟨s₁, rfl⟩, ?_, ?_⟩
    · exact (waits s ⟨"wait 18446744073709549568"⟩ "wait" ["18446744073709549568"] .clockOverflow
        rfl rfl).mpr ⟨rfl, _, parsed, by decide⟩
    · cases done : drowsy.performAll 9 (belated ++ [.start]) with
      | error f =>
        rw [done] at breaks
        cases breaks
        rfl
      | ok s₂ =>
        rw [done] at breaks
        cases breaks

end Session

end DialogueEngine
