import DialogueEngine.Proofs.Machine.InPlace

/-! # Fetches of a step

The loop of a step does not count. Here it is broken off after a given number of fetches, so that
what a step takes can be said: it never comes to the bound where that is one more than the
instructions that are left of the node, and then it comes to what it comes to without one.

* `Machine.left` — how many instructions are left of the present node.
* `Procedure.roundsWithin`, `Procedure.nextWithin` — a loop and a step with a bound.
* `Procedure.nextWithin_eq` — how many fetches are enough.
-/

namespace DialogueEngine.Machine

/-- How many instructions of the present node have not been fetched. -/
def left (m : Machine) : Nat := m.remaining.toOption.elim 0 List.length

namespace Procedure

/-- The loop of a step, broken off where it would fetch more often than it may; then it has no
    result. -/
def roundsWithin : Nat → Procedure (Option Yield)
  | 0 => return none
  | n + 1 => do
    match ← fetch with
    | none => return some (← finish)
    | some i =>
      match ← perform i with
      | some y => return some y
      | none => roundsWithin n

/-- One step, with a bound on its fetches. -/
def nextWithin (n : Nat) : Procedure (Option Yield) := do
  match (← get).queue with
  | y :: rest =>
    modify fun m => { m with queue := rest }
    return some y
  | [] =>
    match (← get).state with
    | .awaitingChoice => throw (.runtime .awaitingSelection)
    | .stopped => throw (.runtime (.invalidState "VM 未在执行"))
    | .running => roundsWithin n

variable {m : Machine} {n : Nat}

theorem bind_some_eq {x : Procedure Yield} {r : Access Stepped} (same : x m = r) :
    (do return some (← x) : Procedure (Option Yield)) m = handOut r := by
  subst same
  refine (bind_apply x _ m).trans (congrArg (Access.bind (x m)) (funext fun r => ?_))
  obtain ⟨e | y, m'⟩ := r <;> rfl

theorem handOut_bind {α : Type} (x : Access α) (f : α → Access Stepped) :
    handOut (x.bind f) = x.bind fun a => handOut (f a) :=
  Access.bind_assoc x f _

/-- One fetch for each instruction that is left, and one for the end of the node, are enough. -/
theorem roundsWithin_eq {is : List Instruction} (remaining : m.remaining = .ok is)
    (enough : is.length < n) : roundsWithin n m = handOut (m.execute is) := by
  induction n generalizing m is with
  | zero => exact absurd enough (Nat.not_lt_zero _)
  | succ n ih =>
    unfold roundsWithin
    rw [bind_apply, fetch_eq, remaining]
    cases is with
    | nil => exact bind_some_eq (finish_eq m)
    | cons i rest =>
      change (perform i >>= _) m.advance = _
      rw [bind_apply, perform_eq, execute_cons, handOut_bind]
      -- an instruction that is passed is one fetch less of those that are left
      refine (m.perform_performs i).bind_congr fun r performs => ?_
      cases performs with
      | passes passes =>
        exact ih (remaining_passes remaining passes) (Nat.lt_of_succ_lt_succ enough)
      | @ends r ends => obtain ⟨e | y, m'⟩ := r <;> rfl

/-- Whatever the store answers, a step ends within one fetch more than there are instructions left
    of the node. -/
theorem nextWithin_eq (enough : m.left < n) : nextWithin n m = handOut m.next := by
  unfold nextWithin Machine.next
  rw [get_bind]
  cases queue : m.queue with
  | cons y rest =>
    obtain ⟨program, frame, state, pending, offered, _⟩ := m
    cases queue
    rfl
  | nil =>
    dsimp only [List.isEmpty_nil, if_true]
    rw [get_bind]
    cases m.state with
    | awaitingChoice => rfl
    | stopped => rfl
    | running =>
      cases remaining : m.remaining with
      | ok is =>
        rw [left, remaining] at enough
        exact roundsWithin_eq remaining enough
      | error e =>
        obtain ⟨n, rfl⟩ := Nat.exists_eq_add_of_lt enough
        change roundsWithin (_ + 1) m = _
        unfold roundsWithin
        rw [bind_apply, fetch_eq, remaining]
        rfl

end Procedure

end DialogueEngine.Machine
