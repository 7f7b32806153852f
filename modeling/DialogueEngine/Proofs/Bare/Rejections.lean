import DialogueEngine.Proofs.Bare.Options
import DialogueEngine.Proofs.Machine.InPlace

/-! # Rejected requests

A request that the machine cannot serve as things stand is rejected by a check that comes before
every update, so that nothing comes of it but the error: a run with rejected requests is the run
without them.

* `Machine.Rejects` — what is rejected, and with which error.
* `Request.rejection` — the errors that mean so; a step can also fail later, after updates.
* `Machine.serve_rejects`, `Machine.serve_rejected` — such errors come from these checks only.
* `Bare.accepted` — a run without what has been rejected in it.
* `Bare.rejections_atomic` — nothing comes of rejected requests.
-/

namespace DialogueEngine

variable {σ : Type}

namespace Machine

/-! ## Checks -/

/-- A request that the machine cannot serve as things stand, with the error. -/
inductive Rejects (m : Machine) : Request → EngineError → Prop
  | unloaded {name : String} (program : m.program = none) :
    Rejects m (.enter name) (.runtime .noProgramLoaded)
  | unknown {name : String} {p : Program} (program : m.program = some p)
    (missing : p.defines name = false) : Rejects m (.enter name) (.runtime (.unknownNode name))
  | unasked {id : Nat} (going : m.state ≠ .awaitingChoice) :
    Rejects m (.choose id) (.runtime (.invalidState "没有等待中的选项"))
  | unoffered {id : Nat} {cs : Choices} (awaiting : m.state = .awaitingChoice)
    (offered : m.offered = some cs) (absent : cs.find? id = none) :
    Rejects m (.choose id) (.runtime (.invalidOption id))
  | lost {id : Nat} {cs : Choices} {c : Choice} (awaiting : m.state = .awaitingChoice)
    (offered : m.offered = some cs) (found : cs.find? id = some c)
    (missing : m.defines c.destination = false) :
    Rejects m (.choose id) (.runtime (.unknownNode c.destination))
  /-- Of the names in both programs the first is told. -/
  | shared {p old : Program} {name : String} (program : m.program = some old)
    (first : p.names.find? old.defines = some name) :
    Rejects m (.add p) (.program (.nodeConflict name))
  | awaiting (queue : m.queue = []) (state : m.state = .awaitingChoice) :
    Rejects m .next (.runtime .awaitingSelection)
  | stopped (queue : m.queue = []) (state : m.state = .stopped) :
    Rejects m .next (.runtime (.invalidState "VM 未在执行"))

/-- Whether an error of a request means that it has been rejected. A step is rejected only for the
    state of the machine; its other errors come from instructions. -/
def Request.rejection : Request → EngineError → Bool
  | .next, .runtime .awaitingSelection => true
  | .next, .runtime (.invalidState _) => true
  | .next, _ => false
  | _, _ => true

variable {m : Machine} {q : Request} {e : EngineError}

theorem Rejects.rejection (rejects : m.Rejects q e) : q.rejection e = true := by
  cases rejects <;> rfl

/-- Neither the machine nor the store is touched. -/
theorem Rejects.serve (rejects : m.Rejects q e) : m.serve q = .done (.error e, m) := by
  cases rejects with
  | unloaded program => simp [Machine.serve, enter, program, attempt]
  | unknown program missing => simp [Machine.serve, enter, program, missing, attempt]
  | unasked going => simp [Machine.serve, choose, going, attempt]
  | unoffered awaiting offered absent =>
    simp [Machine.serve, choose, awaiting, offered, absent, attempt]
  | lost awaiting offered found missing =>
    simp [Machine.serve, choose, awaiting, offered, found, moveTo, missing, Except.map, attempt]
  | shared program first =>
    simp [Machine.serve, add, program, Program.merge, first, Except.map, attempt]
  | awaiting queue state =>
    simp only [Machine.serve, next, queue, state]
    rfl
  | stopped queue state =>
    simp only [Machine.serve, next, queue, state]
    rfl

/-! ## Errors -/

theorem enter_rejected {name : String} {e : RuntimeError} (failed : m.enter name = .error e) :
    m.Rejects (.enter name) (.runtime e) := by
  unfold enter at failed
  split at failed
  · rename_i program
    cases failed
    exact .unloaded program
  · rename_i p program
    split at failed
    · cases failed
    · rename_i missing
      cases failed
      exact .unknown program (Bool.eq_false_iff.mpr missing)

theorem Valid.choose_rejected {id : Nat} {e : RuntimeError} (valid : m.Valid)
    (failed : m.choose id = .error e) : m.Rejects (.choose id) (.runtime e) := by
  by_cases awaiting : m.state = .awaitingChoice
  · obtain ⟨cs, offered⟩ := Option.isSome_iff_exists.mp (valid.awaiting.mp awaiting)
    cases found : cs.find? id with
    | none =>
      simp only [Machine.choose, if_pos awaiting, offered, Option.bind_some, found] at failed
      cases failed
      exact .unoffered awaiting offered found
    | some c =>
      simp only [Machine.choose, if_pos awaiting, offered, Option.bind_some, found] at failed
      cases moved : m.moveTo c.destination with
      | ok m' =>
        rw [moved] at failed
        cases failed
      | error e =>
        rw [moved] at failed
        cases failed
        obtain ⟨rfl, missing⟩ := moveTo_eq_error moved
        exact .lost awaiting offered found missing
  · simp only [Machine.choose, if_neg awaiting] at failed
    cases failed
    exact .unasked awaiting

theorem add_rejected {p : Program} {e : ProgramError} (failed : m.add p = .error e) :
    m.Rejects (.add p) (.program e) := by
  unfold add at failed
  split at failed
  · cases failed
  · rename_i old program
    unfold Program.merge at failed
    cases first : p.names.find? old.defines with
    | none =>
      rw [first] at failed
      cases failed
    | some name =>
      rw [first] at failed
      cases failed
      exact .shared program first

/-- Instructions fail for the store, or for a node that does not exist. -/
theorem Executes.error {is : List Instruction} {r : Stepped} (executes : m.Executes is r)
    (failed : r.1 = .error e) : e.OfStore ∨ ∃ target, e = .runtime (.unknownNode target) := by
  induction executes with
  | finish m => cases failed
  | pass passes _ ih => exact ih failed
  | ends ends =>
    cases ends with
    | line | showOptions | command | jump | stop => cases failed
    | lost jumps missing =>
      cases failed
      exact .inr ⟨_, rfl⟩
    | failed cause =>
      cases failed
      exact .inl cause

theorem Executes.unrejected {is : List Instruction} {r : Stepped} (executes : m.Executes is r)
    (failed : r.1 = .error e) : Request.next.rejection e = false := by
  obtain cause | ⟨target, rfl⟩ := executes.error failed
  · cases cause <;> rfl
  · rfl

theorem Valid.next_rejected {r : Stepped} (valid : m.Valid) (steps : m.Steps r)
    (failed : r.1 = .error e) (rejection : Request.next.rejection e = true) :
    m.Rejects .next e := by
  cases steps with
  | queued waiting => cases failed
  | awaiting queue state =>
    cases failed
    exact .awaiting queue state
  | stopped queue state =>
    cases failed
    exact .stopped queue state
  | unplaced ready remaining =>
    -- a machine that runs has a place in its program
    obtain ⟨is, within⟩ := valid.remaining ready.state
    rw [within] at remaining
    cases remaining
  | executes ready remaining executes =>
    rw [executes.unrejected failed] at rejection
    cases rejection

/-- Whatever the store answers, an error that means a rejection comes from one of the checks. -/
theorem serve_rejected (valid : m.Valid) (q : Request) :
    (m.serve q).All fun r => ∀ e, r.1 = .error e → q.rejection e = true → m.Rejects q e := by
  cases q with
  | load p | unload | stop => exact nofun
  | add p =>
    refine attempt_all (fun _ _ => nofun) fun e failed e' same _ => ?_
    cases same
    exact add_rejected failed
  | enter name =>
    refine attempt_all (fun _ _ => nofun) fun e failed e' same _ => ?_
    cases same
    exact enter_rejected failed
  | choose id =>
    refine attempt_all (fun _ _ => nofun) fun e failed e' same _ => ?_
    cases same
    exact valid.choose_rejected failed
  | next =>
    refine m.next_steps.bind fun r steps => fun e failed rejection => ?_
    obtain ⟨e' | y, m'⟩ := r
    · cases failed
      exact valid.next_rejected steps rfl rejection
    · cases failed

end Machine

/-! ## Runs -/

/-- Whether the answer to a deed means that it has been rejected. -/
def Deed.rejected : Deed σ → Feedback → Bool
  | .request q, .machine (.error e) => q.rejection e
  | _, _ => false

namespace Bare

variable {b : Bare σ} {d : Deed σ} {q : Machine.Request} {e : EngineError}

/-- What has been done and not rejected, with the answers and the states after them. -/
def accepted (b : Bare σ) (deeds : List (Deed σ)) : List (Deed σ × Feedback × Bare σ) :=
  (deeds.zip (b.trace deeds)).filter fun r => !r.1.rejected r.2.1

theorem take_valid (valid : b.machine.Valid) (d : Deed σ) : (b.take d).2.machine.Valid := by
  cases d with
  | request q => exact (Machine.serve_valid b.machine q valid).run b.store b.host
  | change | read | host => exact valid

theorem after_valid (valid : b.machine.Valid) (deeds : List (Deed σ)) :
    (b.after deeds).machine.Valid := by
  induction deeds generalizing b with
  | nil => exact valid
  | cons d deeds ih => exact ih (take_valid valid d)

theorem take_rejects (rejects : b.machine.Rejects q e) :
    b.take (.request q) = (.machine (.error e), b) := by
  unfold take
  dsimp only
  rw [rejects.serve]
  rfl

theorem rejects_of_take (valid : b.machine.Valid)
    (failed : (b.take (.request q)).1 = .machine (.error e)) (rejection : q.rejection e = true) :
    b.machine.Rejects q e :=
  (Machine.serve_rejected valid q).run b.store b.host e (Feedback.machine.inj failed) rejection

/-- Nothing comes of a rejected request. -/
theorem take_rejected (valid : b.machine.Valid) (rejected : d.rejected (b.take d).1 = true) :
    (b.take d).2 = b := by
  cases d with
  | change | read | host => cases rejected
  | request q =>
    cases answer : (b.take (.request q)).1 with
    | changed | found | silent =>
      rw [answer] at rejected
      cases rejected
    | machine r =>
      rw [answer] at rejected
      cases r with
      | ok y => cases rejected
      | error e => rw [take_rejects (rejects_of_take valid answer rejected)]

theorem accepted_cons (b : Bare σ) (d : Deed σ) (deeds : List (Deed σ)) :
    b.accepted (d :: deeds) =
      if d.rejected (b.take d).1 then (b.take d).2.accepted deeds
      else (d, b.take d) :: (b.take d).2.accepted deeds := by
  unfold accepted
  rw [trace, List.zip_cons_cons, List.filter_cons]
  cases d.rejected (b.take d).1 <;> rfl

/-- Without what has been rejected in it a run goes the same way. -/
theorem run_accepted (valid : b.machine.Valid) (deeds : List (Deed σ)) :
    b.trace ((b.accepted deeds).map (·.1)) = (b.accepted deeds).map (·.2) ∧
      b.after ((b.accepted deeds).map (·.1)) = b.after deeds := by
  induction deeds generalizing b with
  | nil => exact ⟨rfl, rfl⟩
  | cons d deeds ih =>
    change _ ∧ _ = (b.take d).2.after deeds
    rw [accepted_cons]
    cases rejected : d.rejected (b.take d).1 with
    | true =>
      -- both runs go on from the same state
      rw [take_rejected valid rejected]
      exact ih valid
    | false =>
      obtain ⟨answers, last⟩ := ih (take_valid valid d)
      exact ⟨congrArg (b.take d :: ·) answers, last⟩

/-- Whatever has been done with a machine from the beginning on, and whatever its store does:
    Entering a node, choosing an option, adding a program and going on are rejected exactly where
    the machine cannot do so, and leave everything as it was. A run in which requests have been
    rejected is the run in which they were not made: the others have the same answers, with the
    same states after them. And it is the same when the machine is changed in place, one field
    after the other, where an error undoes nothing. -/
theorem rejections_atomic (store : Store σ) (host : σ) (deeds : List (Deed σ)) :
    let b := (⟨.empty, store, host⟩ : Bare σ).after deeds
    (∀ q e, b.machine.Rejects q e ↔
      (b.take (.request q)).1 = .machine (.error e) ∧ q.rejection e = true) ∧
    (∀ d, d.rejected (b.take d).1 = true → (b.take d).2 = b) ∧
    (∀ more, b.trace ((b.accepted more).map (·.1)) = (b.accepted more).map (·.2) ∧
      b.after ((b.accepted more).map (·.1)) = b.after more) ∧
    ∀ q, Machine.Procedure.serve q b.machine = b.machine.serve q := by
  intro b
  have valid : b.machine.Valid := after_valid Machine.valid_empty deeds
  refine ⟨fun q e => ⟨fun rejects => ?_, fun ⟨failed, rejection⟩ => ?_⟩,
    fun d rejected => take_rejected valid rejected, run_accepted valid,
    Machine.Procedure.serve_eq b.machine⟩
  · exact ⟨congrArg Prod.fst (take_rejects rejects), rejects.rejection⟩
  · exact rejects_of_take valid failed rejection

/-- A machine that has offered two options, one of which leads nowhere. -/
def offering : Bare Unit := .after ⟨.empty, .memory .empty, ()⟩ (forked ++ [.request .next])

/-- An option that is not offered, the one that leads nowhere, and a step without a choice; and then
    a choice. -/
def straying : List (Deed Unit) :=
  [.request (.choose 2), .request (.choose 1), .request .next, .request (.choose 0), .request .next]

/-- The choice that is made at last is the first thing that happens. -/
theorem rejections_atomic_forked :
    (offering.take (.request (.choose 1))).1 =
        .machine (.error (.runtime (.unknownNode "Nowhere"))) ∧
      (offering.take (.request (.choose 1))).2 = offering ∧
      (offering.accepted straying).map (·.1) = [.request (.choose 0), .request .next] ∧
      offering.trace [.request (.choose 0), .request .next] =
        (offering.accepted straying).map (·.2) := by
  obtain ⟨_, kept, runs, _⟩ :=
    rejections_atomic (.memory .empty) () (forked ++ [.request .next])
  have left : (offering.accepted straying).map (·.1) = [.request (.choose 0), .request .next] := rfl
  have answers : offering.trace ((offering.accepted straying).map (·.1)) =
    (offering.accepted straying).map (·.2) := (runs straying).1
  rw [left] at answers
  exact ⟨rfl, kept (.request (.choose 1)) rfl, left, answers⟩

end Bare

end DialogueEngine
