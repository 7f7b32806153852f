import Mathlib.Algebra.GroupWithZero.Nat
import DialogueEngine.Proofs.Coordinator.Deadlines

/-! # Timers as a queue

What the timers give out, said of the calls alone: each wait has a deadline, which is the time that
has passed before it plus its delay, and time that passes gives out the waits whose deadlines it
reaches, in turn. A queue of this kind always makes progress: the time up to the next deadline is
never zero, and no shorter time gives anything out.

* `TimerCall` — a wait is put in, or time passes.
* `TimerCall.planned` — the waits that calls ask for, with deadlines in plain numbers.
* `Wait.InTurn` — waits by their deadlines, those with one deadline in the order of the plan.
* `Timers.Follows` — what calls have led to, kept by every call.
* `Timers.stable_queue` — the calls and what comes of them.
-/

namespace DialogueEngine

/-! ## Calls -/

inductive TimerCall where
  /-- A handle shall wait. -/
  | schedule (delay : Duration) (c : Continuation)
  /-- Time passes. -/
  | advance (delta : Duration)

structure Wait where
  deadline : Nat
  continuation : Continuation
  deriving DecidableEq

namespace TimerCall

/-- No wait is over at once. -/
def Positive : TimerCall → Prop
  | schedule delay _ => delay.isZero = false
  | advance _ => True

instance : DecidablePred Positive
  | schedule delay _ => inferInstanceAs (Decidable (delay.isZero = false))
  | advance _ => inferInstanceAs (Decidable True)

def length : TimerCall → Nat
  | schedule .. => 0
  | advance delta => delta.nanos

def elapsed (calls : List TimerCall) : Nat := (calls.map length).sum

/-- The waits that calls from a time on ask for, in the order of the calls. -/
def planned : Nat → List TimerCall → List Wait
  | _, [] => []
  | now, schedule delay c :: calls => ⟨now + delay.nanos, c⟩ :: planned now calls
  | now, advance delta :: calls => planned (now + delta.nanos) calls

variable (calls calls' : List TimerCall) (now : Nat)

theorem elapsed_append : elapsed (calls ++ calls') = elapsed calls + elapsed calls' := by
  simp [elapsed]

theorem planned_append :
    planned now (calls ++ calls') = planned now calls ++ planned (now + elapsed calls) calls' := by
  induction calls generalizing now with
  | nil => rfl
  | cons call calls ih =>
    cases call with
    | schedule delay c => simp [planned, elapsed, length, ih]
    | advance delta => simp [planned, elapsed, length, ih, Nat.add_assoc]

/-- Waits of some time have their deadlines after the time at which they are put in. -/
theorem lt_planned {calls : List TimerCall} (positive : ∀ call ∈ calls, call.Positive) :
    ∀ w ∈ planned now calls, now < w.deadline := by
  induction calls generalizing now with
  | nil => nofun
  | cons call calls ih =>
    have ⟨first, rest⟩ := List.forall_mem_cons.mp positive
    cases call with
    | schedule delay c =>
      intro w mem
      rcases List.mem_cons.mp mem with rfl | mem
      · have some : delay.nanos ≠ 0 := by simpa [Positive, Duration.isZero] using first
        exact Nat.lt_add_of_pos_right (Nat.pos_of_ne_zero some)
      · exact ih now rest w mem
    | advance delta =>
      intro w mem
      exact Nat.lt_of_le_of_lt (Nat.le_add_right _ _) (ih _ rest w mem)

end TimerCall

namespace Timers

/-- Carries out a call. What comes out are the handles whose time has come. -/
def perform? (t : Timers) : TimerCall → Option (List Continuation × Timers)
  | .schedule delay c => (t.schedule? delay c).map fun t' => ([], t')
  | .advance delta => t.advance? delta

def performAll? (t : Timers) : List TimerCall → Option (List Continuation × Timers)
  | [] => some ([], t)
  | call :: calls =>
    (t.perform? call).bind fun (due, t') =>
      (t'.performAll? calls).map fun (due', t'') => (due ++ due', t'')

end Timers

/-! ## Waits in turn -/

namespace Wait

/-- The waits of a plan with deadlines after one time and up to another, by their deadlines; those
    with one deadline stay in the order of the plan. -/
structure InTurn (plan : List Wait) (lo hi : Nat) (ws : List Wait) : Prop where
  ordered : ws.Pairwise fun w w' => w.deadline ≤ w'.deadline
  level : ∀ d, ws.filter (·.deadline = d) =
    if lo < d ∧ d ≤ hi then plan.filter (·.deadline = d) else []

variable {plan plan' ws ws' : List Wait} {lo mid hi : Nat}

namespace InTurn

/-- Nothing is in turn where no time passes. -/
theorem nil (plan : List Wait) (now : Nat) : InTurn plan now now [] where
  ordered := .nil
  level d := by rw [if_neg (by omega), List.filter_nil]

theorem bounds (turn : InTurn plan lo hi ws) : ∀ w ∈ ws, lo < w.deadline ∧ w.deadline ≤ hi := by
  intro w mem
  have here : w ∈ ws.filter (·.deadline = w.deadline) := List.mem_filter.mpr ⟨mem, by simp⟩
  rw [turn.level] at here
  split at here
  · assumption
  · cases here

/-- A time after another. -/
theorem append (turn : InTurn plan lo mid ws) (turn' : InTurn plan mid hi ws') (le : lo ≤ mid)
    (le' : mid ≤ hi) : InTurn plan lo hi (ws ++ ws') where
  ordered := by
    refine List.pairwise_append.mpr ⟨turn.ordered, turn'.ordered, fun w mem w' mem' => ?_⟩
    exact Nat.le_trans (turn.bounds w mem).2 (Nat.le_of_lt (turn'.bounds w' mem').1)
  level d := by
    rw [List.filter_append, turn.level, turn'.level]
    rcases Nat.lt_or_ge mid d with after | before
    · have due : (mid < d ∧ d ≤ hi) ↔ (lo < d ∧ d ≤ hi) := by omega
      rw [if_neg (by omega), List.nil_append]
      simp only [due]
    · have due : (lo < d ∧ d ≤ mid) ↔ (lo < d ∧ d ≤ hi) := by omega
      rw [if_neg (by omega : ¬ (mid < d ∧ d ≤ hi)), List.append_nil]
      simp only [due]

/-- What is planned for later does not matter. -/
theorem plan_later (turn : InTurn plan lo hi ws) (later : ∀ w ∈ plan', hi < w.deadline) :
    InTurn (plan ++ plan') lo hi ws where
  ordered := turn.ordered
  level d := by
    rw [turn.level]
    split
    · rename_i within
      have none : plan'.filter (·.deadline = d) = [] := by
        refine List.filter_eq_nil_iff.mpr fun w mem => ?_
        have := later w mem
        simp only [decide_eq_true_eq]
        omega
      rw [List.filter_append, none, List.append_nil]
    · rfl

/-- What has been in turn and what has not come yet are the plan. -/
theorem perm (turn : InTurn plan lo hi ws) (after : ∀ w ∈ plan, lo < w.deadline) :
    (ws ++ plan.filter (hi < ·.deadline)).Perm plan := by
  refine List.perm_iff_count.mpr fun w => ?_
  have same : ws.count w = (ws.filter (·.deadline = w.deadline)).count w :=
    (List.count_filter (by simp)).symm
  have planned : plan.count w = (plan.filter (·.deadline = w.deadline)).count w :=
    (List.count_filter (by simp)).symm
  rw [List.count_append, same, turn.level]
  by_cases mem : w ∈ plan
  · have lt := after w mem
    by_cases due : w.deadline ≤ hi
    · have dropped : w ∉ plan.filter (hi < ·.deadline) := by
        intro h
        have := (List.mem_filter.mp h).2
        simp only [decide_eq_true_eq] at this
        omega
      rw [if_pos ⟨lt, due⟩, List.count_eq_zero_of_not_mem dropped, Nat.add_zero, planned]
    · rw [if_neg (by omega), List.count_nil, Nat.zero_add,
        List.count_filter (by simpa using Nat.lt_of_not_le due)]
  · have none : plan.count w = 0 := List.count_eq_zero_of_not_mem mem
    have kept : (plan.filter (hi < ·.deadline)).count w = 0 :=
      List.count_eq_zero_of_not_mem fun h => mem (List.mem_filter.mp h).1
    rw [none, kept, Nat.add_zero]
    split
    · rw [← planned, none]
    · rfl

end InTurn

end Wait

/-! ## What a call keeps -/

/-- A timer with its deadline in plain numbers. -/
def Timer.wait (e : Timer) : Wait := ⟨e.deadline.nanos, e.continuation⟩

namespace Timers

open TimerCall Wait

variable {t : Timers} {calls calls' : List TimerCall} {due : List Continuation}
  {plan : List Wait} {es : List Timer}

/-- What calls have led to since the beginning of time: the waits whose deadlines have been reached
    have come out in turn, and all others wait in the order in which they were put in. -/
structure Follows (calls : List TimerCall) (due : List Continuation) (t : Timers) : Prop where
  now : t.now.nanos = elapsed calls
  given : ∃ ws, InTurn (planned 0 calls) 0 (elapsed calls) ws ∧ due = ws.map (·.continuation)
  waiting : t.entries.map Timer.wait = (planned 0 calls).filter (elapsed calls < ·.deadline)

theorem follows_empty : Follows [] [] empty := ⟨rfl, ⟨[], .nil _ _, rfl⟩, rfl⟩

/-- Timers with one deadline stay in order. -/
theorem sortByDeadline_level {d : Nat} (level : ∀ e ∈ es, e.deadline.nanos = d) :
    sortByDeadline es = es := by
  rw [sortByDeadline_eq]
  refine (List.pairwise_of_forall_mem_list fun e he e' he' => ?_).insertionSort_eq
  exact Nat.le_of_eq ((level e he).trans (level e' he').symm)

/-- The timers whose time has come, by their deadlines, are the waits in turn. -/
theorem due_inTurn {lo : Nat} (waiting : es.map Timer.wait = plan.filter (lo < ·.deadline))
    (now : Duration) :
    InTurn plan lo now.nanos ((sortByDeadline (es.filter (isDue now))).map Timer.wait) where
  ordered := List.pairwise_map.mpr (ordered_sortByDeadline _)
  level d := by
    have level : ∀ e ∈ (es.filter (isDue now)).filter (·.deadline.nanos = d),
        e.deadline.nanos = d := fun e mem => by simpa using (List.mem_filter.mp mem).2
    have picked : (es.filter (isDue now)).filter (·.deadline.nanos = d) =
        es.filter fun e => decide (e.deadline.nanos ≤ now.nanos ∧ e.deadline.nanos = d) := by
      rw [List.filter_filter]
      exact List.filter_congr fun e _ => by simp [isDue, and_comm]
    calc ((sortByDeadline (es.filter (isDue now))).map Timer.wait).filter (·.deadline = d)
        = ((sortByDeadline (es.filter (isDue now))).filter (·.deadline.nanos = d)).map
            Timer.wait := List.filter_map
      _ = (es.filter fun e => decide (e.deadline.nanos ≤ now.nanos ∧ e.deadline.nanos = d)).map
            Timer.wait := by
          rw [filter_sortByDeadline, sortByDeadline_level level, picked]
      _ = (es.map Timer.wait).filter fun w => decide (w.deadline ≤ now.nanos ∧ w.deadline = d) := by
          rw [List.filter_map]
          rfl
      _ = if lo < d ∧ d ≤ now.nanos then plan.filter (·.deadline = d) else [] := by
          rw [waiting, List.filter_filter]
          split
          · refine List.filter_congr fun w _ => ?_
            rw [Bool.eq_iff_iff]
            simp only [Bool.and_eq_true, decide_eq_true_eq]
            omega
          · refine List.filter_eq_nil_iff.mpr fun w _ => ?_
            simp only [Bool.and_eq_true, decide_eq_true_eq]
            omega

namespace Follows

variable (follows : Follows calls due t)
include follows

/-- Every deadline that is left is still to come. -/
theorem later : ∀ e ∈ t.entries, t.now.nanos < e.deadline.nanos := by
  intro e mem
  have waits : e.wait ∈ t.entries.map Timer.wait := List.mem_map_of_mem mem
  rw [follows.waiting] at waits
  rw [follows.now]
  exact of_decide_eq_true (List.mem_filter.mp waits).2

/-- What is put in waits behind all others. -/
theorem schedule {delay : Duration} {c : Continuation}
    (positive : (TimerCall.schedule delay c).Positive)
    (small : elapsed calls + delay.nanos < Duration.bound) :
    ∃ t', t.schedule? delay c = some t' ∧ Follows (calls ++ [.schedule delay c]) due t' := by
  rw [← follows.now] at small
  obtain ⟨deadline, added⟩ := Duration.exists_add? small
  have sum := Duration.add?_eq_some.mp added
  have some : delay.nanos ≠ 0 := by simpa [Positive, Duration.isZero] using positive
  have passed : elapsed (calls ++ [.schedule delay c]) = elapsed calls := elapsed_append _ _
  have plan : planned 0 (calls ++ [.schedule delay c]) =
      planned 0 calls ++ [⟨elapsed calls + delay.nanos, c⟩] := by
    rw [planned_append, Nat.zero_add]
    rfl
  refine ⟨_, by rw [schedule?, added]; rfl, ?_, ?_, ?_⟩
  · rw [passed]
    exact follows.now
  · obtain ⟨ws, turn, rfl⟩ := follows.given
    rw [passed, plan]
    exact ⟨ws, turn.plan_later (by simp; omega), rfl⟩
  · rw [passed, plan, List.map_append, List.filter_append, follows.waiting,
      List.filter_cons_of_pos (by simp; omega)]
    simp [Timer.wait, sum, follows.now]

/-- Time that passes gives out what is in turn. -/
theorem advance {delta : Duration} (small : elapsed calls + delta.nanos < Duration.bound) :
    ∃ ws t', t.advance? delta = some (ws.map (·.continuation), t') ∧
      InTurn (planned 0 calls) (elapsed calls) (elapsed calls + delta.nanos) ws ∧
      Follows (calls ++ [.advance delta]) (due ++ ws.map (·.continuation)) t' := by
  rw [← follows.now] at small
  obtain ⟨now, added⟩ := Duration.exists_add? small
  have sum : now.nanos = elapsed calls + delta.nanos := by
    rw [Duration.add?_eq_some.mp added, follows.now]
  have passed : elapsed (calls ++ [.advance delta]) = now.nanos := by
    rw [elapsed_append, sum]
    rfl
  have plan : planned 0 (calls ++ [.advance delta]) = planned 0 calls := by
    rw [planned_append]
    exact List.append_nil _
  have turn := due_inTurn follows.waiting now
  refine ⟨_, ⟨now, t.entries.filter fun e => !isDue now e⟩, ?_, sum ▸ turn, ?_, ?_, ?_⟩
  · rw [advance?, added, Option.map_some, List.map_map]
    rfl
  · exact passed.symm
  · obtain ⟨ws, turn', rfl⟩ := follows.given
    rw [passed, plan]
    exact ⟨_, turn'.append turn (Nat.zero_le _) (by omega), (List.map_append).symm⟩
  · have left : (fun e => !isDue now e) =
        fun e => decide (now.nanos < e.wait.deadline) := by
      funext e
      rw [isDue, Timer.wait, ← decide_not]
      exact decide_eq_decide.mpr Nat.not_le
    rw [passed, plan, left]
    change (List.filter ((fun w => decide (now.nanos < w.deadline)) ∘ Timer.wait) _).map _ = _
    rw [← List.filter_map, follows.waiting, List.filter_filter]
    refine List.filter_congr fun w _ => ?_
    rw [Bool.eq_iff_iff]
    simp only [Bool.and_eq_true, decide_eq_true_eq]
    omega

/-- Calls without an overflow are carried out. -/
theorem performAll (positive : ∀ call ∈ calls', call.Positive)
    (small : elapsed (calls ++ calls') < Duration.bound)
    (within : ∀ w ∈ planned 0 (calls ++ calls'), w.deadline < Duration.bound) :
    ∃ due' t', t.performAll? calls' = some (due', t') ∧
      Follows (calls ++ calls') (due ++ due') t' := by
  induction calls' generalizing calls due t with
  | nil => exact ⟨[], t, rfl, by simpa using follows⟩
  | cons call calls' ih =>
    have ⟨first, rest⟩ := List.forall_mem_cons.mp positive
    have next : calls ++ call :: calls' = (calls ++ [call]) ++ calls' := by simp
    rw [next] at small within ⊢
    cases call with
    | schedule delay c =>
      have asked : (⟨elapsed calls + delay.nanos, c⟩ : Wait) ∈
          planned 0 (calls ++ [.schedule delay c] ++ calls') := by
        rw [planned_append, planned_append, Nat.zero_add]
        simp [planned]
      obtain ⟨t', scheduled, follows'⟩ := follows.schedule first (within _ asked)
      obtain ⟨due', t'', done, follows''⟩ := ih follows' rest small within
      exact ⟨due', t'', by simp [performAll?, perform?, scheduled, done], follows''⟩
    | advance delta =>
      have early : elapsed calls + delta.nanos ≤ elapsed (calls ++ [.advance delta] ++ calls') := by
        rw [elapsed_append, elapsed_append]
        exact Nat.le_add_right _ _
      obtain ⟨ws, t', advanced, -, follows'⟩ :=
        follows.advance (Nat.lt_of_le_of_lt early small)
      obtain ⟨due', t'', done, follows''⟩ := ih follows' rest small within
      refine ⟨ws.map (·.continuation) ++ due', t'', ?_, ?_⟩
      · simp [performAll?, perform?, advanced, done]
      · rw [← List.append_assoc]
        exact follows''

end Follows

/-! ## The next deadline -/

/-- The time up to the next deadline is that of the timer whose deadline comes first. -/
theorem nextWake_least (nonempty : t.entries ≠ []) : ∃ d, t.nextWake = some d ∧
    (∀ e ∈ t.entries, d.nanos ≤ e.deadline.nanos - t.now.nanos) ∧
    ∃ e ∈ t.entries, d = e.deadline.sub t.now := by
  obtain ⟨now, entries⟩ := t
  dsimp only [nextWake] at nonempty ⊢
  induction entries with
  | nil => exact absurd rfl nonempty
  | cons e es ih =>
    cases es with
    | nil =>
      exact ⟨_, rfl, List.forall_mem_singleton.mpr (Nat.le_refl _), e, List.mem_cons_self, rfl⟩
    | cons e' es =>
      obtain ⟨d, next, least, e₀, mem, rfl⟩ := ih (List.cons_ne_nil e' es)
      rw [List.foldr_cons, next]
      by_cases first : (e.deadline.sub now).nanos ≤ (e₀.deadline.sub now).nanos
      · refine ⟨e.deadline.sub now, congrArg some (if_pos first), ?_, e, List.mem_cons_self, rfl⟩
        exact List.forall_mem_cons.mpr
          ⟨Nat.le_refl _, fun e' mem' => Nat.le_trans first (least e' mem')⟩
      · refine ⟨e₀.deadline.sub now, congrArg some (if_neg first), ?_, e₀,
          List.mem_cons_of_mem _ mem, rfl⟩
        exact List.forall_mem_cons.mpr ⟨Nat.le_of_not_le first, least⟩

/-- Where all deadlines are still to come, the time up to the next one gives something out, and no
    shorter time does. -/
theorem nextWake_exact (later : ∀ e ∈ t.entries, t.now.nanos < e.deadline.nanos)
    (nonempty : t.entries ≠ []) : ∃ d, t.nextWake = some d ∧ 0 < d.nanos ∧
      (∀ x : Duration, x.nanos < d.nanos →
        ∃ t', t.advance? x = some ([], t') ∧ t'.entries = t.entries) ∧
      ∃ due t', t.advance? d = some (due, t') ∧ due ≠ [] := by
  obtain ⟨d, next, least, e, mem, rfl⟩ := nextWake_least nonempty
  have ahead := later e mem
  have reach : t.now.nanos + (e.deadline.sub t.now).nanos = e.deadline.nanos :=
    Nat.add_sub_cancel' (Nat.le_of_lt ahead)
  refine ⟨_, next, Nat.sub_pos_of_lt ahead, fun x less => ?_, ?_⟩
  · obtain ⟨now, added⟩ := Duration.exists_add? (a := t.now) (b := x)
      (Nat.lt_trans (by omega) e.deadline.nanos_lt)
    have sum := Duration.add?_eq_some.mp added
    have waits : ∀ e ∈ t.entries, ¬ isDue now e = true := by
      intro e' mem'
      have := least e' mem'
      simp only [isDue, decide_eq_true_eq]
      omega
    refine ⟨⟨now, t.entries⟩, ?_, rfl⟩
    rw [advance?, added, Option.map_some, List.filter_eq_nil_iff.mpr waits,
      List.filter_eq_self.mpr (by simpa using waits)]
    rfl
  · obtain ⟨now, added⟩ := Duration.exists_add? (a := t.now) (b := e.deadline.sub t.now)
      (reach ▸ e.deadline.nanos_lt)
    have sum := Duration.add?_eq_some.mp added
    have due : isDue now e = true := by
      simp only [isDue, decide_eq_true_eq]
      omega
    refine ⟨_, _, by rw [advance?, added, Option.map_some], fun none => ?_⟩
    have picked : e ∈ sortByDeadline (t.entries.filter (isDue now)) :=
      mem_sortByDeadline.mpr (List.mem_filter.mpr ⟨mem, due⟩)
    exact List.ne_nil_of_mem picked (List.map_eq_nil_iff.mp none)

/-! ## Time in pieces -/

/-- What is due at a time comes before all that is not. -/
theorem filter_append_of_ordered (ordered : es.Pairwise Before) (now : Duration) :
    es.filter (isDue now) ++ es.filter (fun e => !isDue now e) = es := by
  induction es with
  | nil => rfl
  | cons e es ih =>
    obtain ⟨first, rest⟩ := List.pairwise_cons.mp ordered
    by_cases due : isDue now e = true
    · rw [List.filter_cons_of_pos due, List.filter_cons_of_neg (by simp [due]), List.cons_append,
        ih rest]
    · have none : es.filter (isDue now) = [] := by
        refine List.filter_eq_nil_iff.mpr fun e' mem => ?_
        have : e.deadline.nanos ≤ e'.deadline.nanos := first e' mem
        simp only [isDue, decide_eq_true_eq] at due ⊢
        omega
      have left := ih rest
      rw [none, List.nil_append] at left
      rw [List.filter_cons_of_neg due, none, List.filter_cons_of_pos (by simp [due]), left]
      rfl

theorem isDue_later {now now' : Duration} (later : now.nanos ≤ now'.nanos) {e : Timer}
    (due : isDue now e = true) : isDue now' e = true := by
  simp only [isDue, decide_eq_true_eq] at due ⊢
  omega

/-- What is due first, and then what else is due later. -/
theorem sortByDeadline_append {now now' : Duration} (later : now.nanos ≤ now'.nanos) :
    sortByDeadline (es.filter (isDue now)) ++
      sortByDeadline ((es.filter fun e => !isDue now e).filter (isDue now')) =
        sortByDeadline (es.filter (isDue now')) := by
  have first : (es.filter (isDue now')).filter (isDue now) = es.filter (isDue now) := by
    rw [List.filter_filter]
    refine List.filter_congr fun e _ => ?_
    cases due : isDue now e with
    | true => rw [isDue_later later due, Bool.and_self]
    | false => rw [Bool.false_and]
  have split := filter_append_of_ordered (ordered_sortByDeadline (es.filter (isDue now'))) now
  rw [filter_sortByDeadline, filter_sortByDeadline, first, filter_swap (isDue now')] at split
  exact split

/-- Time that passes in two pieces does what it does in one. -/
theorem performAll?_advance (t : Timers) {a b c : Duration} (sum : a.add? b = some c) :
    t.performAll? [.advance a, .advance b] = t.performAll? [.advance c] := by
  have whole := Duration.add?_eq_some.mp sum
  cases added : t.now.add? c with
  | none =>
    have beyond : ∀ now', t.now.add? a = some now' → now'.add? b = none := by
      intro now' first
      refine Option.eq_none_iff_forall_ne_some.mpr fun now'' second => ?_
      have sums := And.intro (Duration.add?_eq_some.mp first) (Duration.add?_eq_some.mp second)
      have both : t.now.add? c = some now'' := Duration.add?_eq_some.mpr (by omega)
      rw [added] at both
      cases both
    cases first : t.now.add? a with
    | none => simp [performAll?, perform?, advance?, added, first]
    | some now' => simp [performAll?, perform?, advance?, added, first, beyond now' first]
  | some now'' =>
    have sum'' := Duration.add?_eq_some.mp added
    obtain ⟨now', first⟩ := Duration.exists_add? (a := t.now) (b := a)
      (Nat.lt_of_le_of_lt (by omega) now''.nanos_lt)
    have sum' := Duration.add?_eq_some.mp first
    have second : now'.add? b = some now'' := Duration.add?_eq_some.mpr (by omega)
    have later : now'.nanos ≤ now''.nanos := by omega
    have left : (t.entries.filter fun e => !isDue now' e).filter (fun e => !isDue now'' e) =
        t.entries.filter fun e => !isDue now'' e := by
      rw [List.filter_filter]
      refine List.filter_congr fun e _ => ?_
      cases due : isDue now' e with
      | true =>
        rw [isDue_later later due]
        rfl
      | false => exact Bool.and_true _
    simp only [performAll?, perform?, advance?, added, first, second, left, Option.map_some,
      Option.bind_some, List.append_nil, ← List.map_append, sortByDeadline_append later]

/-! ## The queue -/

/-- Whatever calls without an overflow ask of timers that are empty at first, where no wait is over
    at once:
    all calls are carried out, and time stands where they say; the waits whose deadlines have been
    reached have come out in turn, and with those that are left they are the waits asked for, each
    once; time that passes next gives out in turn those whose deadlines it reaches and that have not
    come out before; the deadlines that are left are still to come, and as long as there is one, the
    time up to the next of them is not zero, gives something out, and no shorter time does.
    From any timers, time that passes in two pieces does what it does in one. -/
theorem stable_queue :
    (∀ calls, (∀ call ∈ calls, call.Positive) → elapsed calls < Duration.bound →
      (∀ w ∈ planned 0 calls, w.deadline < Duration.bound) →
      ∃ ws t, empty.performAll? calls = some (ws.map (·.continuation), t) ∧
        t.now.nanos = elapsed calls ∧
        InTurn (planned 0 calls) 0 (elapsed calls) ws ∧
        (ws ++ t.entries.map Timer.wait).Perm (planned 0 calls) ∧
        (∀ delta, elapsed calls + delta.nanos < Duration.bound →
          ∃ ws' t', t.advance? delta = some (ws'.map (·.continuation), t') ∧
            InTurn (planned 0 calls) (elapsed calls) (elapsed calls + delta.nanos) ws') ∧
        (∀ e ∈ t.entries, t.now.nanos < e.deadline.nanos) ∧
        (t.entries = [] → t.nextWake = none) ∧
        (t.entries ≠ [] → ∃ d, t.nextWake = some d ∧ 0 < d.nanos ∧
          (∀ x : Duration, x.nanos < d.nanos →
            ∃ t', t.advance? x = some ([], t') ∧ t'.entries = t.entries) ∧
          ∃ due t', t.advance? d = some (due, t') ∧ due ≠ [])) ∧
    ∀ (t : Timers) (a b c : Duration), a.add? b = some c →
      t.performAll? [.advance a, .advance b] = t.performAll? [.advance c] := by
  refine ⟨fun calls positive small within => ?_, fun t a b c => t.performAll?_advance⟩
  obtain ⟨due, t, done, follows⟩ := follows_empty.performAll positive small within
  rw [List.nil_append, List.nil_append] at follows
  obtain ⟨ws, turn, rfl⟩ := follows.given
  refine ⟨ws, t, done, follows.now, turn, ?_, fun delta short => ?_, follows.later, fun none => ?_,
    nextWake_exact follows.later⟩
  · rw [follows.waiting]
    exact turn.perm (lt_planned 0 positive)
  · obtain ⟨ws', t', advanced, turn', -⟩ := follows.advance short
    exact ⟨ws', t', advanced, turn'⟩
  · rw [nextWake, none]
    rfl

/-- Two waits with one deadline, asked for at different times, and one that is over before them. -/
theorem stable_queue_three :
    let calls : List TimerCall :=
      [.schedule ⟨5, by decide⟩ ⟨1⟩, .schedule ⟨2, by decide⟩ ⟨2⟩, .advance ⟨2, by decide⟩,
        .schedule ⟨3, by decide⟩ ⟨3⟩, .advance ⟨1, by decide⟩]
    ∃ t, empty.performAll? calls = some ([⟨2⟩], t) ∧
      (∃ d, t.nextWake = some d ∧ d.nanos = 2 ∧
        ∃ due t', t.advance? d = some (due, t') ∧ due ≠ []) ∧
      ∃ ws t', t.advance? ⟨2, by decide⟩ = some (ws.map (·.continuation), t') ∧
        ws.map (·.continuation) = [⟨1⟩, ⟨3⟩] ∧
        InTurn [⟨5, ⟨1⟩⟩, ⟨2, ⟨2⟩⟩, ⟨5, ⟨3⟩⟩] 3 5 ws := by
  intro calls
  obtain ⟨ws, t, done, -, -, -, next, -, -, wakes⟩ :=
    stable_queue.1 calls (by decide) (by decide) (by decide)
  have computed : empty.performAll? calls = some ([⟨2⟩], ⟨⟨3, by decide⟩,
      [⟨⟨5, by decide⟩, ⟨1⟩⟩, ⟨⟨5, by decide⟩, ⟨3⟩⟩]⟩) := rfl
  obtain ⟨-, rfl⟩ := Prod.mk.inj (Option.some.inj (done.symm.trans computed))
  obtain ⟨d, woken, -, -, gives⟩ := wakes nofun
  obtain ⟨ws', t', advanced, turn⟩ := next ⟨2, by decide⟩ (by decide)
  have two : d.nanos = 2 := by
    cases woken
    rfl
  have given := (Prod.mk.inj (Option.some.inj (advanced.symm.trans rfl))).1
  exact ⟨_, computed, ⟨d, woken, two, gives⟩, ws', t', advanced, given, turn⟩

end Timers

end DialogueEngine
