import DialogueEngine.Proofs.Coordinator.Suspension
import DialogueEngine.Proofs.Machine.Yields
import DialogueEngine.Proofs.Session.Operation

/-! # From machines to sessions

A session only asks its machine for one thing after the other. So what all requests but a new start
keep is kept throughout a run of a dialogue, and the errors that are told are those of the machine
and of the operations themselves, whatever the presenter, the handlers and the store do.

* `Ensures` — what holds of the result of a computation, if it is not broken off.
* `Machine.Kept` — a property that every request keeps, and the errors that come up.
* `Session.Tells` — a session whose machine has the property, with an answer.
* `Session.run_tells`, `Act.between_tells`, `Operation.perform_tells` — sessions keep it.
-/

namespace DialogueEngine

variable {σ α β : Type}

/-! ## Results -/

/-- The result has a property, unless the computation is broken off. -/
def Ensures (x : Except Fault α) (Q : α → Prop) : Prop := ∀ a, x = .ok a → Q a

namespace Ensures

variable {x : Except Fault α} {Q R : α → Prop}

theorem ok {a : α} (h : Q a) : Ensures (.ok a) Q := fun _ ha => by cases ha; exact h

theorem pure {a : α} (h : Q a) : Ensures (Pure.pure a) Q := ok h

theorem fault {f : Fault} : Ensures (.error f) Q := nofun

theorem imp (h : Ensures x Q) (weaker : ∀ a, Q a → R a) : Ensures x R :=
  fun a ha => weaker a (h a ha)

theorem and (h : Ensures x Q) (h' : Ensures x R) : Ensures x fun a => Q a ∧ R a :=
  fun a ha => ⟨h a ha, h' a ha⟩

theorem bind {f : α → Except Fault β} {R : β → Prop} (h : Ensures x Q)
    (next : ∀ a, Q a → Ensures (f a) R) : Ensures (x >>= f) R := by
  cases x with
  | error e => exact fault
  | ok a => exact next a (h a rfl)

theorem map {f : α → β} {R : β → Prop} (h : Ensures x Q) (next : ∀ a, Q a → R (f a)) :
    Ensures (x.map f) R := by
  cases x with
  | error e => exact fault
  | ok a => exact ok (next a (h a rfl))

end Ensures

/-! ## What requests keep -/

/-- Every request but a new start keeps a property of machines, and fails only with errors of a
    kind. Of this kind are also the errors of programs and of host objects, and refusals. -/
structure Machine.Kept (P : Machine → Prop) (E : EngineError → Prop) : Prop where
  next {m : Machine} : P m → m.next.All fun r => P r.2 ∧ ∀ e, r.1 = .error e → E e
  choose {m m' : Machine} {id : Nat} : P m → m.choose id = .ok m' → P m'
  choose_error {m : Machine} {id : Nat} {e : RuntimeError} :
    P m → m.choose id = .error e → E (.runtime e)
  add {m m' : Machine} {p : Program} : P m → m.add p = .ok m' → P m'
  load {m : Machine} (p : Program) : P m → P (m.load p)
  unload {m : Machine} : P m → P m.unload
  stop {m : Machine} : P m → P m.stop
  program (e : ProgramError) : E (.program e)
  capability (e : CapabilityError) : E (.capability e)
  refusal {e : EngineError} : e.IsRefusal → E e

/-- The operation starts a dialogue, or prepares for that. -/
def Operation.Starts : Operation σ → Prop
  | .prepare _ => True
  | .start => True
  | .startAt _ => True
  | .reset => True
  | _ => False

/-! ## Single uses of handles -/

namespace Act

/-- Host code that uses one handle, with the answer as its result. -/
inductive Uses : Act σ (Except EngineError Unit) → Prop
  | resume (k : Continuation) : Uses (.resuming k)
  | resumeAfter (k : Continuation) (d : Duration) : Uses (.resumingAfter k d)
  | select (h : Selector) (id : Nat) : Uses (.selecting h id)

theorem between_resuming (limit : Nat) (k : Continuation) (s : Session σ) :
    (resuming k).between limit s = s.follow limit (s.coordinator.useContinuation k) := by
  rw [resuming, between]
  cases s.follow limit (s.coordinator.useContinuation k) <;> rfl

theorem between_resumingAfter (limit : Nat) (k : Continuation) (d : Duration) (s : Session σ) :
    (resumingAfter k d).between limit s = s.delay k d (s.follow limit) := by
  rw [resumingAfter, between]
  cases s.delay k d (s.follow limit) <;> rfl

theorem between_selecting (limit : Nat) (h : Selector) (id : Nat) (s : Session σ) :
    (selecting h id).between limit s = s.follow limit (s.coordinator.useSelector h id) := by
  rw [selecting, between]
  cases s.follow limit (s.coordinator.useSelector h id) <;> rfl

end Act

section

variable {P : Machine → Prop} {E : EngineError → Prop} {s s' : Session σ}

/-- The machine of the session has the property. -/
def Session.Has (P : Machine → Prop) (s : Session σ) : Prop := P s.coordinator.machine

/-- The machine has the property, and an error that is told is of the kind. -/
structure Session.Tells (P : Machine → Prop) (E : EngineError → Prop) (r : Answer σ α) : Prop where
  has : r.2.Has P
  error : ∀ e, r.1 = .error e → E e

/-- What a handle does leads to a machine with the property, or to an error of the kind. -/
def Coordinator.Use.Leads (P : Machine → Prop) (E : EngineError → Prop) :
    Coordinator.Use σ → Prop
  | .ignored => True
  | .refused e | .failed e => E e
  | .resumed c => P c.machine

namespace Session

theorem tells_ok {a : α} (has : s.Has P) : Tells P E (.ok a, s) := ⟨has, nofun⟩

theorem tells_error {e : EngineError} (has : s.Has P) (kind : E e) :
    Tells (α := α) P E (.error e, s) :=
  ⟨has, fun _ he => by cases he; exact kind⟩

theorem tells_capability (kept : Machine.Kept P E) (has : s.Has P)
    (r : Except CapabilityError α) : Tells P E (capability r, s) := by
  cases r with
  | ok a => exact tells_ok has
  | error e => exact tells_error has (kept.capability e)

end Session

open Session Coordinator

variable (kept : Machine.Kept P E)

/-! ## Handles -/

include kept in
theorem Coordinator.pick_leads {c : Coordinator σ} (has : P c.machine) (id : Nat) :
    (c.pick id).Leads P E := by
  unfold pick
  split
  · split
    · cases chosen : c.machine.choose id with
      | ok m => exact kept.choose has chosen
      | error e => exact kept.choose_error has chosen
    · exact kept.refusal trivial
  · exact kept.refusal trivial

include kept in
theorem Coordinator.useSelector_leads {c : Coordinator σ} (has : P c.machine) (h : Selector)
    (id : Nat) : (c.useSelector h id).Leads P E := by
  unfold useSelector
  split
  · exact pick_leads kept has id
  · trivial

theorem Coordinator.useContinuation_leads {c : Coordinator σ} (has : P c.machine)
    (k : Continuation) : (c.useContinuation k).Leads P E := by
  unfold useContinuation
  split
  · exact has
  · trivial

theorem Session.delay_tells {k : Continuation} {d : Duration}
    {use : Use σ → Except Fault (Answer σ Unit)} (has : s.Has P)
    (atOnce : ∀ u : Use σ, u.Leads P E → Ensures (use u) (Tells P E)) :
    Ensures (s.delay k d use) (Tells P E) := by
  unfold delay
  split
  · exact atOnce _ (useContinuation_leads has k)
  · split
    · rename_i c scheduled
      refine .ok (tells_ok ?_)
      change P c.machine
      rw [schedule?_eq scheduled]
      exact has
    · exact .fault

/-! ## Host code inside an operation -/

theorem Session.wake_tells {place : Place} {use : Use σ} (has : s.Has P)
    (leads : use.Leads P E) : Ensures (s.wake place use) (Tells P E) := by
  cases use with
  | ignored => exact .ok (tells_ok has)
  | refused e => exact .ok (tells_error has leads)
  | failed e =>
    cases place with
    | handover => exact .ok (tells_error has leads)
    | store => exact .fault
  | resumed c =>
    cases place with
    | handover => exact .ok (tells_ok leads)
    | store => exact .fault

include kept in
/-- Host code inside an operation keeps what requests keep. -/
theorem Act.within_has (place : Place) (act : Act σ α) (has : s.Has P) :
    Ensures (act.within place s) fun r => r.2.Has P := by
  induction act generalizing s with
  | done a => exact .ok has
  | read k ih => exact ih s.host has
  | write x k ih => exact ih has
  | isStale k f ih => exact ih _ has
  | resume k f ih =>
    rw [within_resume]
    refine (wake_tells has (useContinuation_leads (E := E) has k)).bind fun r tells => ?_
    exact ih r.1 tells.has
  | resumeAfter k d f ih =>
    rw [within_resumeAfter]
    refine (delay_tells (E := E) has fun u leads => wake_tells has leads).bind fun r tells => ?_
    exact ih r.1 tells.has
  | select h id f ih =>
    rw [within_select]
    refine (wake_tells has (useSelector_leads kept has h id)).bind fun r tells => ?_
    exact ih r.1 tells.has

/-! ## The drive -/

namespace Session

/-- After a turn the machine has the property, and a turn fails with an error of the kind. -/
structure Turns (P : Machine → Prop) (E : EngineError → Prop) (r : Turn × Session σ) : Prop where
  has : r.2.Has P
  failed : ∀ e, r.1 = .failed e → E e

theorem turns_again (has : s.Has P) : Turns P E (.again, s) := ⟨has, nofun⟩

theorem turns_rest (has : s.Has P) : Turns P E (.rest, s) := ⟨has, nofun⟩

theorem turns_failed {e : EngineError} (has : s.Has P) (kind : E e) : Turns P E (.failed e, s) :=
  ⟨has, fun _ he => by cases he; exact kind⟩

theorem afterHandover_turns (has : s.Has P) (pace : Pace) : Turns P E (s.afterHandover pace) := by
  unfold afterHandover
  dsimp only
  split
  · exact turns_again has
  · cases pace with
    | proceed => exact turns_again has
    | pause => exact turns_rest has

include kept

theorem handedOver_turns (has : s.Has P) (r : Except CapabilityError Pace) :
    Turns P E (handedOver r s) := by
  cases r with
  | ok pace => exact afterHandover_turns has pace
  | error e => exact turns_failed has (kept.capability e)

theorem nextYield_tells (has : s.Has P) : Ensures s.nextYield (Tells P E) := by
  intro r answered
  unfold nextYield at answered
  dsimp only at answered
  cases ran : (s.coordinator.machine.next.onStore s.coordinator.store).within .store s with
  | error f =>
    rw [ran] at answered
    cases answered
  | ok r =>
    rw [ran] at answered
    cases answered
    obtain ⟨after, errors⟩ := ((kept.next has).onStore _).within ran
    exact ⟨after, errors⟩

theorem deliverCommand_turns (has : s.Has P) (cmd : Command) :
    Ensures (s.deliverCommand cmd) (Turns P E) := by
  unfold deliverCommand
  split
  · exact .pure (afterHandover_turns has .proceed)
  · split
    · split
      · exact .fault
      · refine .bind (Act.within_has kept .handover _ has) fun r has => ?_
        exact .pure (handedOver_turns kept has r.1)
    · refine .bind (Act.within_has kept .handover _ has) fun r has => ?_
      exact .pure (afterHandover_turns has .proceed)
    · refine .bind (Act.within_has kept .handover _ has) fun r has => ?_
      exact .pure (afterHandover_turns has .pause)

theorem deliverEnd_turns (has : s.Has P) : Ensures s.deliverEnd (Turns P E) := by
  refine .bind (Act.within_has kept .handover _ has) fun r has => ?_
  obtain ⟨e | ⟨⟩, s'⟩ := r
  · exact .pure (turns_failed has (kept.capability e))
  · exact .pure (turns_rest has)

theorem deliver_turns (has : s.Has P) (y : Yield) : Ensures (s.deliver y) (Turns P E) := by
  cases y with
  | line l =>
    refine .bind (Act.within_has kept .handover _ has) fun r has => ?_
    exact .pure (handedOver_turns kept has r.1)
  | choices cs =>
    refine .bind (Act.within_has kept .handover _ has) fun r has => ?_
    exact .pure (handedOver_turns kept has _)
  | command cmd => exact deliverCommand_turns kept has cmd
  | nodeStart node => exact .ok (turns_again has)
  | nodeComplete node => exact .ok (turns_again has)
  | dialogueComplete => exact deliverEnd_turns kept has

theorem turn_turns (has : s.Has P) : Ensures s.turn (Turns P E) := by
  unfold turn
  split
  · refine (nextYield_tells kept has).bind fun r tells => ?_
    obtain ⟨e | y, s'⟩ := r
    · exact .pure (turns_failed tells.has (tells.error e rfl))
    · exact deliver_turns kept tells.has y
  · exact .pure (turns_rest has)

/-- A drive keeps what requests keep, and ends with no other errors. -/
theorem run_tells (limit : Nat) (has : s.Has P) : Ensures (run limit s) (Tells P E) := by
  induction limit generalizing s with
  | zero => exact .fault
  | succ limit ih =>
    unfold run
    cases turned : s.turn with
    | error f => exact .fault
    | ok r =>
      have turns := turn_turns kept has r turned
      obtain ⟨_ | _ | e, s'⟩ := r
      · exact ih turns.has
      · exact .ok (tells_ok turns.has)
      · exact .ok (tells_error (kept.stop turns.has) (turns.failed e rfl))

theorem follow_tells (limit : Nat) {use : Use σ} (has : s.Has P) (leads : use.Leads P E) :
    Ensures (s.follow limit use) (Tells P E) := by
  cases use with
  | ignored => exact .ok (tells_ok has)
  | refused e => exact .ok (tells_error has leads)
  | failed e => exact .ok (tells_error has leads)
  | resumed c => exact run_tells kept limit leads

end Session

include kept

/-- Host code between operations keeps what requests keep. -/
theorem Act.between_has (limit : Nat) (act : Act σ α) (has : s.Has P) :
    Ensures (act.between limit s) fun r => r.2.Has P := by
  induction act generalizing s with
  | done a => exact .ok has
  | read k ih => exact ih s.host has
  | write x k ih => exact ih has
  | isStale k f ih => exact ih _ has
  | resume k f ih =>
    rw [between_resume]
    have followed := follow_tells kept limit has (useContinuation_leads has k)
    exact followed.bind fun r tells => ih r.1 tells.has
  | resumeAfter k d f ih =>
    rw [between_resumeAfter]
    have delayed := delay_tells (E := E) (k := k) (d := d) has fun u leads =>
      follow_tells kept limit has leads
    exact delayed.bind fun r tells => ih r.1 tells.has
  | select h id f ih =>
    rw [between_select]
    have followed := follow_tells kept limit has (useSelector_leads kept has h id)
    exact followed.bind fun r tells => ih r.1 tells.has

theorem Act.Uses.between_tells (limit : Nat) {act : Act σ (Except EngineError Unit)}
    (uses : act.Uses) (has : s.Has P) : Ensures (act.between limit s) (Tells P E) := by
  cases uses with
  | resume k =>
    rw [between_resuming]
    exact follow_tells kept limit has (useContinuation_leads has k)
  | resumeAfter k d =>
    rw [between_resumingAfter]
    exact delay_tells has fun u leads => follow_tells kept limit has leads
  | select h id =>
    rw [between_selecting]
    exact follow_tells kept limit has (useSelector_leads kept has h id)

/-! ## Operations -/

namespace Session

theorem readVariable_tells (has : s.Has P) (name : String) :
    Ensures (s.readVariable name) (Tells P E) := by
  refine .bind (Act.within_has kept .store _ has) fun r has => .pure ?_
  exact tells_capability kept has r.1

theorem changeStore_tells (has : s.Has P)
    (act : Act σ (Except CapabilityError Unit × Store σ)) :
    Ensures (s.changeStore act) (Tells P E) := by
  refine .bind (Act.within_has kept .store act has) fun r has => .pure ?_
  exact ⟨has, (tells_capability kept has r.1.1).error⟩

theorem load_tells (has : s.Has P) (programs : List Program) :
    Ensures (s.load programs) (Tells P E) := by
  unfold load
  split
  · exact .ok (tells_error has (kept.refusal trivial))
  · cases Program.combine programs with
    | error e => exact .ok (tells_error has (kept.program e))
    | ok p => exact .ok (tells_ok (kept.load p has))

theorem add_tells (has : s.Has P) (p : Program) : Ensures (s.add p) (Tells P E) := by
  unfold add
  cases added : s.coordinator.machine.add p with
  | error e => exact .ok (tells_error has (kept.program e))
  | ok m => exact .ok (tells_ok (kept.add has added))

theorem clear_tells (has : s.Has P) : Ensures s.clear (Tells P E) := by
  unfold clear
  split
  · exact .ok (tells_error has (kept.refusal trivial))
  · exact .ok (tells_ok (kept.unload has))

/-- A start keeps what the machine has at the beginning of the node. -/
theorem startAt_tells (limit : Nat) {m : Machine} {node : String}
    (notRunning : s.coordinator.isRunning = false)
    (entered : s.coordinator.machine.enter node = .ok m) (has : P m) :
    Ensures (s.startAt limit node) (Tells P E) := by
  unfold startAt
  rw [notRunning, entered]
  refine .bind (Act.within_has kept .handover _ has) fun r has => ?_
  obtain ⟨e | ⟨⟩, s'⟩ := r
  · exact .pure (tells_error (kept.stop has) (kept.capability e))
  · exact run_tells kept limit has

theorem proceed_tells (limit : Nat) (has : s.Has P) : Ensures (s.proceed limit) (Tells P E) := by
  unfold proceed
  split
  · split
    · exact .ok (tells_error has (kept.refusal trivial))
    · exact run_tells kept limit has
  · exact .ok (tells_error has (kept.refusal trivial))

theorem choose_tells (limit : Nat) (has : s.Has P) (id : Nat) :
    Ensures (s.choose limit id) (Tells P E) := by
  unfold choose
  split
  · exact follow_tells kept limit has (pick_leads kept has id)
  · exact .ok (tells_error has (kept.refusal trivial))

theorem resumeAll_tells (limit : Nat) (due : List Continuation) (has : s.Has P) :
    Ensures (resumeAll limit s due) (Tells P E) := by
  induction due generalizing s with
  | nil => exact .ok (tells_ok has)
  | cons k due ih =>
    refine (follow_tells kept limit has (useContinuation_leads has k)).bind fun r tells => ?_
    obtain ⟨e | ⟨⟩, s'⟩ := r
    · exact .pure tells
    · exact ih tells.has

theorem update_tells (limit : Nat) (has : s.Has P) (delta : Duration) :
    Ensures (s.update limit delta) (Tells P E) := by
  unfold update
  split
  · exact .fault
  · exact resumeAll_tells kept limit _ has

end Session

/-- Operations that start nothing keep what requests keep, and tell no other errors. -/
theorem Operation.perform_tells (limit : Nat) {op : Operation σ} (same : ¬ op.Starts)
    (has : s.Has P) : Ensures (op.perform limit s) (Tells P E) := by
  cases op with
  | prepare programs => exact absurd trivial same
  | start => exact absurd trivial same
  | startAt node => exact absurd trivial same
  | reset => exact absurd trivial same
  | load programs => exact load_tells kept has programs
  | add p => exact add_tells kept has p
  | proceed => exact proceed_tells kept limit has
  | choose id => exact choose_tells kept limit has id
  | stop => exact .ok (tells_ok (kept.stop has))
  | clear => exact clear_tells kept has
  | update delta => exact update_tells kept limit has delta
  | host act => exact (Act.between_has kept limit act has).map fun r has => tells_ok has
  | readVariable name =>
    refine (readVariable_tells kept has name).map fun r tells => ⟨tells.has, fun e he => ?_⟩
    obtain ⟨e' | value, s'⟩ := r
    · cases he
      exact tells.error e rfl
    · cases he
  | writeVariable name value => exact changeStore_tells kept has _
  | clearVariables => exact changeStore_tells kept has _
  | resetVariables => exact changeStore_tells kept has _
  | setText text => exact .ok (tells_ok has)
  | register name h => exact .ok (tells_ok has)
  | unregister name => exact .ok (tells_ok has)
  | equip act =>
    have lent : s.lend.Has P := has
    have came := Act.between_has kept limit (act s.coordinator.commands) lent
    have equipped : Ensures (s.equip limit act) fun r => r.2.Has P :=
      came.bind fun r has => .pure has
    exact equipped.map fun r has => tells_capability kept has r.1
  | drainEvents => exact .ok (tells_ok has)

/-- In a run of a dialogue the machine has what requests keep. -/
theorem Session.performAll_has (limit : Nat) {ops : List (Operation σ)}
    (same : ∀ op ∈ ops, ¬ op.Starts) (has : s.Has P) :
    Ensures (s.performAll limit ops) fun s' => s'.Has P := by
  induction ops generalizing s with
  | nil => exact .ok has
  | cons op ops ih =>
    unfold performAll
    cases done : op.perform limit s with
    | error f => exact .fault
    | ok r =>
      have tells := Operation.perform_tells kept limit (same op List.mem_cons_self) has r done
      exact ih (fun op' h => same op' (List.mem_cons_of_mem op h)) tells.has

end

end DialogueEngine
