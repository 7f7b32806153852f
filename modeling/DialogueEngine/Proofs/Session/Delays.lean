import DialogueEngine.Proofs.Coordinator.Deadlines
import DialogueEngine.Proofs.Session.Fairness

/-! # How long `wait` waits

The handler of `wait` puts one timer in, which belongs to the suspension that begins. Up to its
deadline the time that passes changes nothing but the timers, and the update that reaches the
deadline drives the dialogue once, however the time is cut into updates and whatever void handles
wait beside it.

* `Course.waits_old` — under a fair host no timer belongs to a suspension to come.
* `Session.Sleeps` — a command waits for a deadline.
* `Session.Sleeps.early`, `Session.Sleeps.due` — one update.
* `Session.WakesAfter` — all updates up to a time, and the one that reaches it.
* `Session.deliver_atOnce`, `Session.deliver_later` — what the handler does.
* `Session.wait_exact` — the two together.
-/

namespace DialogueEngine

variable {σ : Type}

/-! ## Sums of durations -/

namespace Duration

def total (ds : List Duration) : Nat := ds.foldr (fun d sum => d.nanos + sum) 0

@[simp] theorem total_cons (d : Duration) (ds : List Duration) :
    total (d :: ds) = d.nanos + total ds := rfl

end Duration

/-! ## Timers of suspensions -/

/-- Under a fair host the handles that wait belong to the present suspension or to older ones. -/
theorem Course.waits_old {m m' : Moment σ} {t : List (Happening σ)} (course : Course m t m')
    (none : m.waits = []) (fair : Fair t) : ∀ k ∈ m'.waits, k.generation ≤ m'.generation := by
  induction course with
  | nil => simp [none]
  | @snoc t l n n' before move ih =>
    intro k waiting
    have grown : n.generation ≤ n'.generation := move.later.generation
    rcases move.waits k waiting with waiting | rfl
    · exact Nat.le_trans (ih fair.before k waiting) grown
    · exact Nat.le_trans (before.handed_increasing.2 _ fair.used) grown

/-- Whether a timer belongs to a suspension from a number on. -/
def Timer.isFrom (n : Nat) (e : Timer) : Bool := decide (n ≤ e.continuation.generation)

namespace Session

/-- A command waits for a deadline: one timer belongs to its suspension, and all others to older
    ones. -/
structure Sleeps (deadline : Duration) (s : Session σ) : Prop where
  running : s.coordinator.phase = .running
  suspension : s.coordinator.suspension = some .command
  timer : s.coordinator.timers.entries.filter (·.isFrom s.coordinator.generation) =
    [⟨deadline, ⟨s.coordinator.generation⟩⟩]

/-- The session at a later time. -/
def atTime (s : Session σ) (timers : Timers) : Session σ :=
  s.withCoordinator { s.coordinator with timers := timers }

/-- The session with its suspension ended and all timers dropped. -/
def awake (s : Session σ) (now : Duration) : Session σ :=
  s.withCoordinator { s.coordinator with
    timers := ⟨now, []⟩, generation := s.coordinator.generation + 1, suspension := none }

variable {s : Session σ} {deadline x : Duration} {limit : Nat}

theorem withCoordinator_invalidate (s : Session σ) :
    s.withCoordinator s.coordinator.invalidate = s.awake s.coordinator.timers.now := by
  have dropped : s.coordinator.invalidate.timers = ⟨s.coordinator.timers.now, []⟩ :=
    congrArg (Timers.mk _) s.coordinator.invalidate_entries
  rw [awake, ← dropped]
  rfl

/-! ## Handles whose time has come -/

/-- Void handles are passed over. -/
theorem resumeAll_stale (limit : Nat) {ks : List Continuation}
    (stale : ∀ k ∈ ks, s.coordinator.isLive k.generation = false) (rest : List Continuation) :
    s.resumeAll limit (ks ++ rest) = s.resumeAll limit rest := by
  induction ks with
  | nil => rfl
  | cons k ks ih =>
    have void := stale k List.mem_cons_self
    rw [List.cons_append, resumeAll, Coordinator.useContinuation_stale void]
    exact ih fun k' mem => stale k' (List.mem_cons_of_mem k mem)

theorem resumeAll_void (limit : Nat) {ks : List Continuation}
    (stale : ∀ k ∈ ks, s.coordinator.isLive k.generation = false) :
    s.resumeAll limit ks = .ok (.ok (), s) := by
  have passed := resumeAll_stale limit stale []
  rw [List.append_nil] at passed
  exact passed

/-- What a drive leads to is later than where it starts. -/
theorem drive_later {s' : Session σ} {r : Except EngineError Unit}
    (driven : s.drive limit = .ok (r, s')) : s.coordinator.Later s'.coordinator := by
  have walks : Walks ⟨.driving, [], s.settle⟩ (Recorded.run limit s.settle) _ := .run limit _
  obtain ⟨m, course, ends⟩ := walks.leads
  rw [Recorded.outcome_run] at ends
  cases ends _ driven
  have settled : s.coordinator.Later s.settle.coordinator := .of_same rfl rfl
  exact settled.trans course.later

theorem isLive_of_lt {n : Nat} (older : n < s.coordinator.generation) :
    s.coordinator.isLive n = false := by
  have other : ¬ s.coordinator.generation = n := by omega
  simp [Coordinator.isLive, other]

/-- The handle of the suspension comes between those of older ones, in whatever order. -/
theorem resumeAll_once (limit : Nat) {w : Suspension} (running : s.coordinator.phase = .running)
    (held : s.coordinator.suspension = some w) {due : List Timer}
    (one : due.filter (·.isFrom s.coordinator.generation) =
      [⟨deadline, ⟨s.coordinator.generation⟩⟩]) :
    s.resumeAll limit (due.map (·.continuation)) =
      (s.withCoordinator s.coordinator.invalidate).drive limit := by
  obtain ⟨before, after, rfl, older, -, none⟩ := List.filter_eq_cons_iff.mp one
  have stale {es : List Timer} (older : ∀ e ∈ es, ¬ e.isFrom s.coordinator.generation = true) :
      ∀ k ∈ es.map (·.continuation), k.generation < s.coordinator.generation := by
    intro k mem
    obtain ⟨e, waits, rfl⟩ := List.mem_map.mp mem
    simpa [Timer.isFrom] using older e waits
  have use : s.coordinator.useContinuation ⟨s.coordinator.generation⟩ =
      .resumed s.coordinator.invalidate := by
    simp [Coordinator.useContinuation, Coordinator.isLive, held, running]
  rw [List.map_append, resumeAll_stale limit fun k mem => isLive_of_lt (stale older k mem),
    List.map_cons, resumeAll, use, follow]
  cases driven : (s.withCoordinator s.coordinator.invalidate).drive limit with
  | error f => rfl
  | ok r =>
    obtain ⟨e | ⟨⟩, s'⟩ := r
    · rfl
    · -- what comes behind it is void after the drive as it was before
      have later := drive_later driven
      have void : ∀ k ∈ after.map (·.continuation), s'.coordinator.isLive k.generation = false := by
        intro k mem
        have old := stale (List.filter_eq_nil_iff.mp none) k mem
        exact later.stays_stale (Nat.le_succ_of_le (Nat.le_of_lt old))
          (Coordinator.isLive_of_suspension_none rfl k.generation)
      exact resumeAll_void limit void

/-! ## One update -/

namespace Sleeps

theorem filter_not_due (sleeps : s.Sleeps deadline) {now : Duration}
    (early : now.nanos < deadline.nanos) :
    (s.coordinator.timers.entries.filter fun e => !Timers.isDue now e).filter
      (·.isFrom s.coordinator.generation) = [⟨deadline, ⟨s.coordinator.generation⟩⟩] := by
  rw [Timers.filter_swap, sleeps.timer]
  have waits : Timers.isDue now ⟨deadline, ⟨s.coordinator.generation⟩⟩ = false := by
    simp [Timers.isDue, early]
  simp [waits]

theorem filter_due (sleeps : s.Sleeps deadline) (now : Duration) :
    (Timers.sortByDeadline (s.coordinator.timers.entries.filter (Timers.isDue now))).filter
      (·.isFrom s.coordinator.generation) =
        if deadline.nanos ≤ now.nanos then [⟨deadline, ⟨s.coordinator.generation⟩⟩] else [] := by
  rw [Timers.filter_sortByDeadline, Timers.filter_swap, sleeps.timer]
  by_cases reached : deadline.nanos ≤ now.nanos
  · simp [Timers.isDue, reached, Timers.sortByDeadline, Timers.insertByDeadline]
  · simp [Timers.isDue, reached, Timers.sortByDeadline]

/-- Before the deadline an update changes the timers alone. -/
theorem early (sleeps : s.Sleeps deadline) (limit : Nat)
    (before : s.coordinator.timers.now.nanos + x.nanos < deadline.nanos) :
    ∃ timers, s.update limit x = .ok (.ok (), s.atTime timers) ∧
      timers.now.nanos = s.coordinator.timers.now.nanos + x.nanos ∧
      (s.atTime timers).Sleeps deadline := by
  obtain ⟨now, added⟩ := Duration.exists_add? (Nat.lt_trans before deadline.nanos_lt)
  have sum := Duration.add?_eq_some.mp added
  have early : now.nanos < deadline.nanos := by omega
  refine ⟨⟨now, s.coordinator.timers.entries.filter fun e => !Timers.isDue now e⟩, ?_, sum,
    sleeps.running, sleeps.suspension, sleeps.filter_not_due early⟩
  have none := sleeps.filter_due now
  rw [if_neg (by omega), List.filter_eq_nil_iff] at none
  simp only [update, Timers.advance?, added, Option.map_some]
  -- all handles whose time has come are older than the suspension
  rw [resumeAll_void limit]
  · rfl
  · intro k mem
    obtain ⟨e, waits, rfl⟩ := List.mem_map.mp mem
    have old : e.continuation.generation < s.coordinator.generation := by
      simpa [Timer.isFrom] using none e waits
    exact isLive_of_lt old

/-- The update that reaches the deadline drives the dialogue, and does nothing else. -/
theorem due (sleeps : s.Sleeps deadline) {now : Duration}
    (added : s.coordinator.timers.now.add? x = some now)
    (reached : deadline.nanos ≤ now.nanos) :
    s.update limit x = (s.awake now).drive limit := by
  have one := sleeps.filter_due now
  rw [if_pos reached] at one
  simp only [update, Timers.advance?, added, Option.map_some]
  -- the timer has been taken out, but the suspension lasts
  have once := resumeAll_once limit
    (s := s.atTime ⟨now, s.coordinator.timers.entries.filter fun e => !Timers.isDue now e⟩)
    sleeps.running sleeps.suspension one
  rw [withCoordinator_invalidate] at once
  exact once

/-- A handle of an older suspension that is made to wait does not matter. -/
theorem schedule (sleeps : s.Sleeps deadline) {k : Continuation} {d : Duration}
    {c : Coordinator σ} (old : k.generation < s.coordinator.generation)
    (scheduled : s.coordinator.schedule? d k = some c) :
    (s.withCoordinator c).Sleeps deadline := by
  simp only [Coordinator.schedule?, Timers.schedule?, Option.map_map, Option.map_eq_some_iff]
    at scheduled
  obtain ⟨later, -, rfl⟩ := scheduled
  refine ⟨sleeps.running, sleeps.suspension, ?_⟩
  have older : Timer.isFrom s.coordinator.generation ⟨later, k⟩ = false := by
    simpa [Timer.isFrom] using old
  change List.filter (Timer.isFrom s.coordinator.generation)
    (s.coordinator.timers.entries ++ [⟨later, k⟩]) = _
  rw [List.filter_append, List.filter_cons_of_neg (by simp [older]), List.filter_nil,
    List.append_nil]
  exact sleeps.timer

/-- Updates that stay below the deadline change the timers alone. -/
theorem performAll (sleeps : s.Sleeps deadline) (limit : Nat) {xs : List Duration}
    (before : s.coordinator.timers.now.nanos + Duration.total xs < deadline.nanos) :
    ∃ timers, s.performAll limit (xs.map .update) = .ok (s.atTime timers) ∧
      timers.now.nanos = s.coordinator.timers.now.nanos + Duration.total xs ∧
      (s.atTime timers).Sleeps deadline := by
  induction xs generalizing s with
  | nil => exact ⟨s.coordinator.timers, rfl, rfl, sleeps⟩
  | cons x xs ih =>
    rw [Duration.total_cons] at before
    have early : s.coordinator.timers.now.nanos + x.nanos < deadline.nanos := by omega
    obtain ⟨timers, updated, sum, sleeps'⟩ := sleeps.early limit early
    have before' : timers.now.nanos + Duration.total xs < deadline.nanos := by omega
    obtain ⟨timers', done, sum', sleeps''⟩ := ih sleeps' before'
    have now : (s.atTime timers).coordinator.timers.now = timers.now := rfl
    refine ⟨timers', ?_, ?_, sleeps''⟩
    · rw [List.map_cons, Session.performAll, Operation.perform, updated]
      exact done
    · rw [now] at sum'
      rw [Duration.total_cons]
      omega

end Sleeps

/-! ## Any number of updates -/

/-- Updates that come to less than a time change nothing but the timers, and the first one with
    which they come to as much drives the dialogue once. -/
def WakesAfter (s : Session σ) (d : Duration) : Prop :=
  ∀ limit xs (x : Duration), Duration.total xs < d.nanos →
    s.coordinator.timers.now.nanos + Duration.total xs + x.nanos < Duration.bound →
    ∃ timers, s.performAll limit (xs.map .update) = .ok (s.atTime timers) ∧
      (Duration.total xs + x.nanos < d.nanos → ∃ timers',
        (s.atTime timers).update limit x = .ok (.ok (), s.atTime timers')) ∧
      (d.nanos ≤ Duration.total xs + x.nanos → ∃ now,
        now.nanos = s.coordinator.timers.now.nanos + Duration.total xs + x.nanos ∧
        (s.atTime timers).update limit x = (s.awake now).drive limit)

theorem Sleeps.wakesAfter (sleeps : s.Sleeps deadline) {d : Duration}
    (added : s.coordinator.timers.now.add? d = some deadline) : s.WakesAfter d := by
  intro limit xs x below small
  have sum := Duration.add?_eq_some.mp added
  have before : s.coordinator.timers.now.nanos + Duration.total xs < deadline.nanos := by omega
  obtain ⟨timers, done, passed, sleeps'⟩ := sleeps.performAll limit before
  refine ⟨timers, done, fun early => ?_, fun reached => ?_⟩
  · have before : timers.now.nanos + x.nanos < deadline.nanos := by omega
    obtain ⟨timers', updated, -⟩ := sleeps'.early limit before
    exact ⟨timers', updated⟩
  · obtain ⟨now, advanced⟩ := Duration.exists_add? (a := timers.now) (b := x) (by omega)
    have later := Duration.add?_eq_some.mp advanced
    exact ⟨now, by omega, sleeps'.due advanced (by omega)⟩

/-! ## The handler -/

section Handler

variable {cmd : Command} {name : String} {args : List String}

/-- The command is carried out under a number of its own. -/
def suspended (s : Session σ) : Session σ := s.withCoordinator (s.coordinator.suspend .command)

/-- The command is carried out, and its handle waits for a deadline. -/
def sleeping (s : Session σ) (deadline : Duration) : Session σ :=
  s.suspended.atTime ⟨s.coordinator.timers.now,
    s.coordinator.timers.entries ++ [⟨deadline, ⟨s.coordinator.generation + 1⟩⟩]⟩

/-- Without a time the dialogue goes on at once, and nothing waits. -/
theorem deliver_atOnce (free : s.coordinator.Free)
    (resolved : s.coordinator.commands.resolve cmd.tokens =
      some ⟨name, .blocking waitHandler, args⟩)
    (none : ∀ d, Duration.parse? args = some d → d.isZero = true) :
    s.deliverCommand cmd = .ok (.again, s.suspended.awake s.coordinator.timers.now) := by
  have use : s.suspended.coordinator.useContinuation ⟨s.coordinator.generation + 1⟩ =
      .resumed s.suspended.coordinator.invalidate := by
    simp [Coordinator.useContinuation, Coordinator.isLive, suspended, Coordinator.suspend,
      withCoordinator, free.running]
  have woken : s.suspended.wake .handover (.resumed s.suspended.coordinator.invalidate) =
      .ok (.ok (), s.suspended.withCoordinator
        { s.suspended.coordinator.invalidate with woken := true }) := rfl
  have ran : (waitHandler args ⟨s.coordinator.generation + 1⟩).within .handover s.suspended =
      .ok ((), s.suspended.withCoordinator
        { s.suspended.coordinator.invalidate with woken := true }) := by
    unfold waitHandler
    cases parsed : Duration.parse? args with
    | none => simp only [Act.within, use, woken]
    | some d => simp only [Act.within, delay, none d parsed, if_true, use, woken]
  have settled : (s.suspended.withCoordinator s.suspended.coordinator.invalidate).settle =
      s.suspended.awake s.coordinator.timers.now := by
    rw [withCoordinator_invalidate]
    exact settle_eq free.asleep
  rw [deliverCommand_blocking resolved]
  change ((waitHandler args _).within .handover s.suspended >>= _) = _
  rw [ran, ← settled]
  exact congrArg Except.ok (afterHandover_woken rfl .pause)

/-- With a time the dialogue rests, and the handle waits for it. -/
theorem deliver_later {d : Duration} (free : s.coordinator.Free)
    (resolved : s.coordinator.commands.resolve cmd.tokens =
      some ⟨name, .blocking waitHandler, args⟩)
    (parsed : Duration.parse? args = some d) (positive : d.isZero = false)
    (added : s.coordinator.timers.now.add? d = some deadline) :
    s.deliverCommand cmd = .ok (.rest, s.sleeping deadline) := by
  have scheduled : s.suspended.coordinator.schedule? d ⟨s.coordinator.generation + 1⟩ =
      some (s.sleeping deadline).coordinator := by
    have now : s.suspended.coordinator.timers = s.coordinator.timers := rfl
    simp only [Coordinator.schedule?, Timers.schedule?, now, added, Option.map_some]
    rfl
  have ran : (waitHandler args ⟨s.coordinator.generation + 1⟩).within .handover s.suspended =
      .ok ((), s.sleeping deadline) := by
    unfold waitHandler
    rw [parsed]
    simp only [Act.within, delay, positive, scheduled]
    rfl
  rw [deliverCommand_blocking resolved]
  change ((waitHandler args _).within .handover s.suspended >>= _) = _
  rw [ran]
  exact congrArg Except.ok (afterHandover_pause free.asleep)

/-- The timer that is put in is the only one that does not belong to an older suspension. -/
theorem sleeping_sleeps (free : s.coordinator.Free)
    (old : ∀ e ∈ s.coordinator.timers.entries,
      e.continuation.generation ≤ s.coordinator.generation) :
    (s.sleeping deadline).Sleeps deadline := by
  refine ⟨free.running, rfl, ?_⟩
  have none : s.coordinator.timers.entries.filter
      (Timer.isFrom (s.coordinator.generation + 1)) = [] := by
    simpa [Timer.isFrom, Nat.lt_succ_iff] using old
  change List.filter (Timer.isFrom (s.coordinator.generation + 1))
    (s.coordinator.timers.entries ++ [⟨deadline, ⟨s.coordinator.generation + 1⟩⟩]) = _
  rw [List.filter_append, none]
  simp [Timer.isFrom, sleeping, suspended, atTime, withCoordinator, Coordinator.suspend]

end Handler

/-- In whatever a fair host does with a session, a command that comes to the handler of `wait`:
    without a time of more than nothing the same drive goes on, with the suspension ended and no
    timer left;
    with a time `d` the drive ends with the dialogue suspended on the command and nothing else
    changed but one timer more, what is left to do of an update under way does nothing, and the
    dialogue wakes after `d`: while the updates that follow come to less than `d` they change
    nothing but the timers, and the one with which they come to as much does exactly what a single
    drive without the suspension does.
    The same holds of every session in which a command waits for a deadline, whatever handles of
    older suspensions wait beside it or are made to wait in the meantime. -/
theorem wait_exact (presenter : Presenter σ) (store : Store σ) (settings : Settings)
    (text : Line → String) (commands : CommandTable σ) (host : σ) :
    (∀ t due s cmd name args,
      Course ⟨.resting, [], opening presenter store settings text commands host⟩ t
        ⟨.carrying (.command cmd), due, s⟩ → Fair t →
      s.coordinator.commands.resolve cmd.tokens = some ⟨name, .blocking waitHandler, args⟩ →
      ∀ s₀ : Session σ, s₀.coordinator.isRunning = true →
        s₀.nextYield = .ok (.ok (.command cmd), s) →
      ((∀ d, Duration.parse? args = some d → d.isZero = true) →
        ∀ limit, s₀.run (limit + 1) = (s.suspended.awake s.coordinator.timers.now).run limit) ∧
      (∀ d deadline, Duration.parse? args = some d → d.isZero = false →
        s.coordinator.timers.now.add? d = some deadline →
        (∀ limit, s₀.run (limit + 1) = .ok (.ok (), s.sleeping deadline) ∧
          (s.sleeping deadline).resumeAll limit due = .ok (.ok (), s.sleeping deadline)) ∧
          (s.sleeping deadline).Sleeps deadline ∧ (s.sleeping deadline).WakesAfter d)) ∧
    (∀ (s : Session σ) deadline d, s.Sleeps deadline →
      s.coordinator.timers.now.add? d = some deadline → s.WakesAfter d) ∧
    (∀ (s : Session σ) deadline k d c, s.Sleeps deadline →
      k.generation < s.coordinator.generation → s.coordinator.schedule? d k = some c →
        (s.withCoordinator c).Sleeps deadline) := by
  refine ⟨?_, fun s deadline d sleeps added => sleeps.wakesAfter added,
    fun s deadline k d c sleeps old scheduled => sleeps.schedule old scheduled⟩
  intro t due s cmd name args reached fair resolved s₀ running answered
  have free : s.coordinator.Free :=
    (reached.sound (opening_sound presenter store settings text commands host)).1
  have old := reached.waits_old rfl fair
  have turned : s₀.turn = s.deliverCommand cmd := turn_answered running answered
  refine ⟨fun none limit => ?_, fun d deadline parsed positive added => ?_⟩
  · exact run_again limit (turned.trans (deliver_atOnce free resolved none))
  · have sleeps : (s.sleeping deadline).Sleeps deadline :=
      sleeping_sleeps free fun e mem => old _ (List.mem_append_right _ (List.mem_map_of_mem mem))
    have void : ∀ k ∈ due, (s.sleeping deadline).coordinator.isLive k.generation = false :=
      fun k mem => isLive_of_lt (Nat.lt_succ_of_le (old k (List.mem_append_left _ mem)))
    refine ⟨fun limit => ⟨?_, resumeAll_void limit void⟩, sleeps, sleeps.wakesAfter added⟩
    have rested := turned.trans (deliver_later free resolved parsed positive added)
    rw [run_rest limit rested, settle_eq (s := s.sleeping deadline) free.asleep]

/-- A session that knows `wait` alone. -/
def drowsy : Session Unit :=
  opening .waiting (.memory .empty) .default (fun l => l.id) .builtin ()

/-- Operations up to a line in front of a wait of five seconds. -/
def drowsing : List (Operation Unit) :=
  [.add (.ofNode "Start" [.line "a" [], .command "wait 5", .line "b" []]), .start]

/-- The session while the line is shown. -/
def drowsed : Session Unit :=
  match drowsy.performAll 9 drowsing with
  | .ok s => s
  | .error _ => drowsy

theorem wait_exact_five :
    ∃ s s' : Session Unit, s = (drowsed.withCoordinator drowsed.coordinator.invalidate).settle ∧
      s.run 9 = .ok (.ok (), s') ∧ s'.coordinator.suspension = some .command ∧
      s'.WakesAfter ⟨5000000000, by decide⟩ := by
  obtain ⟨exact, -⟩ := wait_exact (σ := Unit) .waiting (.memory .empty) .default (fun l => l.id)
    .builtin ()
  have said : drowsy.performAll 9 drowsing = .ok drowsed := rfl
  have asked := ((Course.of_performAll said).snoc (.proceed rfl nofun)).snoc (.ask rfl)
  have reached := asked.snoc
    (@Move.answer _ _ _ (drowsed.withCoordinator drowsed.coordinator.invalidate).settle _ _ _ rfl)
  obtain ⟨-, later⟩ := exact _ _ _ ⟨"wait 5"⟩ "wait" ["5"] reached (fair_of_unused rfl) rfl
    (drowsed.withCoordinator drowsed.coordinator.invalidate).settle rfl rfl
  obtain ⟨rests, sleeps, wakes⟩ := later ⟨5000000000, by decide⟩ ⟨5000000000, by decide⟩
    (by decide +kernel) rfl (Duration.add?_eq_some.mpr rfl)
  exact ⟨_, _, rfl, (rests 8).1, sleeps.suspension, wakes⟩

end Session

end DialogueEngine
