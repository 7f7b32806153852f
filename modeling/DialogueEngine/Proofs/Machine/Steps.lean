import DialogueEngine.Proofs.Machine.Yields

/-! # Steps as rules

What one step of the machine can do, whatever the store answers, with what has to hold for it. A
fact about all steps is then proved rule by rule.

* `Machine.choose_eq_ok`, `Machine.choose_eq_error` — a choice, by what comes of it.
* `Machine.Passes` — an instruction after which the step goes on.
* `Machine.Ends` — an instruction that ends the step.
* `Machine.Executes`, `Machine.Steps` — the instructions of a step, and a step.
* `Machine.next_steps` — every step follows the rules.
* `Machine.Delivers`, `Machine.next_delivers` — what a step hands out comes in the state that belongs
  to it.
-/

namespace DialogueEngine

variable {α : Type}

/-! ## Errors of the variables -/

/-- Reading or writing a variable has failed. -/
inductive EngineError.OfStore : EngineError → Prop
  | undefinedVariable (name : String) : OfStore (.runtime (.undefinedVariable name))
  | capability (e : CapabilityError) : OfStore (.capability e)

/-- A result, or an error of the variables. -/
def Answered (r : Except EngineError α) : Prop := ∀ e, r = .error e → e.OfStore

theorem answered_ok (a : α) : Answered (.ok a) := nofun

theorem answered_error {e : EngineError} (h : e.OfStore) :
    Answered (.error e : Except EngineError α) :=
  fun _ he => by cases he; exact h

theorem Operand.evaluate_answered (op : Operand) : op.evaluate.All Answered := by
  cases op with
  | literal value => exact answered_ok value
  | reference name =>
    intro r
    rcases r with e | _ | value
    · exact answered_error (.capability e)
    · exact answered_error (.undefinedVariable name)
    · exact answered_ok value

theorem Operand.texts_answered (ops : List Operand) : (Operand.texts ops).All Answered := by
  induction ops with
  | nil => exact answered_ok []
  | cons op ops ih =>
    refine op.evaluate_answered.bind fun r hr => ?_
    cases r with
    | error e => exact answered_error (hr e rfl)
    | ok value =>
      refine ih.bind fun r hr => ?_
      cases r with
      | error e => exact answered_error (hr e rfl)
      | ok ts => exact answered_ok _

/-! ## Rules -/

/-- The instruction goes to a node when it is executed. -/
inductive Instruction.Jumps (node : String) : Instruction → Prop
  | jumpIf (name : String) : Jumps node (.jumpIf name node)
  | runNode : Jumps node (.runNode node)

namespace Machine

/-- An instruction after which the step goes on, with the machine afterwards. -/
inductive Passes (m : Machine) : Instruction → Machine → Prop
  | addOption {id destination : String} {substitutions : List Operand} (texts : List String) :
    Passes m (.addOption id substitutions destination)
      (m.advance.addChoice ⟨id, texts⟩ destination)
  | showOptions (none : m.pending = []) : Passes m .showOptions m.advance
  | set {name : String} {operand : Operand} : Passes m (.set name operand) m.advance
  | jumpIf {name node : String} : Passes m (.jumpIf name node) m.advance

/-- An instruction that ends the step, with the result. -/
inductive Ends (m : Machine) : Instruction → Stepped → Prop
  | line {id : String} {substitutions : List Operand} (texts : List String) :
    Ends m (.line id substitutions) (.ok (.line ⟨id, texts⟩), m.advance)
  | showOptions (some : m.pending ≠ []) :
    Ends m .showOptions (.ok (.choices ⟨m.pending⟩), m.advance.offer)
  | command {text : String} : Ends m (.command text) (.ok (.command ⟨text⟩), m.advance)
  | jump {i : Instruction} {target : String} {m' : Machine} (jumps : i.Jumps target)
    (moved : m.advance.moveTo target = .ok m') : Ends m i (.ok m'.pop.1, m'.pop.2)
  | lost {i : Instruction} {target : String} (jumps : i.Jumps target)
    (missing : m.defines target = false) :
    Ends m i (.error (.runtime (.unknownNode target)), m.advance)
  | stop : Ends m .stop (.ok m.advance.finish.pop.1, m.advance.finish.pop.2)
  | failed {i : Instruction} {e : EngineError} (cause : e.OfStore) : Ends m i (.error e, m.advance)

/-- Instructions up to the end of the step, with the result; a node may come to its end before. -/
inductive Executes : Machine → List Instruction → Stepped → Prop
  | finish (m : Machine) : Executes m [] (.ok m.finish.pop.1, m.finish.pop.2)
  | pass {m m' : Machine} {i : Instruction} {rest : List Instruction} {r : Stepped}
    (passes : m.Passes i m') (executes : Executes m' rest r) : Executes m (i :: rest) r
  | ends {m : Machine} {i : Instruction} {rest : List Instruction} {r : Stepped}
    (ends : m.Ends i r) : Executes m (i :: rest) r

/-- A step, with its result. -/
inductive Steps (m : Machine) : Stepped → Prop
  | queued (waiting : m.queue ≠ []) : Steps m (.ok m.pop.1, m.pop.2)
  | awaiting (queue : m.queue = []) (state : m.state = .awaitingChoice) :
    Steps m (.error (.runtime .awaitingSelection), m)
  | stopped (queue : m.queue = []) (state : m.state = .stopped) :
    Steps m (.error (.runtime (.invalidState "VM 未在执行")), m)
  | unplaced {e : RuntimeError} (ready : m.Ready) (remaining : m.remaining = .error e) :
    Steps m (.error (.runtime e), m)
  | executes {is : List Instruction} {r : Stepped} (ready : m.Ready)
    (remaining : m.remaining = .ok is) (executes : m.Executes is r) : Steps m r

variable {m m' : Machine} {target : String} {id : Nat} {e : RuntimeError}

/-! ## Programs and nodes -/

theorem defines_iff {name : String} :
    m.defines name = true ↔ ∃ p, m.program = some p ∧ p.defines name = true :=
  Option.any_eq_true _ _

theorem moveTo_defines (moved : m.moveTo target = .ok m') : m.defines target = true := by
  unfold moveTo at moved
  split at moved
  · assumption
  · cases moved

theorem moveTo_eq_error (h : m.moveTo target = .error e) :
    e = .unknownNode target ∧ m.defines target = false := by
  unfold moveTo at h
  split at h
  · cases h
  · rename_i missing
    cases h
    exact ⟨rfl, Bool.eq_false_iff.mpr missing⟩

/-- Programs that are added are put together with the one that is there. -/
theorem add_eq_ok {p : Program} (h : m.add p = .ok m') :
    ∃ q, m' = { m with program := some q } ∧ ∀ old, m.program = some old → old.merge p = .ok q := by
  unfold add at h
  cases program : m.program with
  | none =>
    rw [program] at h
    cases h
    exact ⟨p, rfl, nofun⟩
  | some old =>
    rw [program] at h
    cases merged : old.merge p with
    | error e =>
      simp [merged, Except.map] at h
    | ok q =>
      simp only [merged, Except.map, Except.ok.injEq] at h
      refine ⟨q, h.symm, fun before some => ?_⟩
      cases some
      exact merged

/-- A choice is one of the options offered, and goes to its node. -/
theorem choose_eq_ok (h : m.choose id = .ok m') :
    m.state = .awaitingChoice ∧ ∃ cs c m₁, m.offered = some cs ∧ cs.find? id = some c ∧
      m.moveTo c.destination = .ok m₁ ∧ m' = { m₁ with offered := none, state := .running } := by
  unfold choose at h
  split at h
  · rename_i awaiting
    split at h
    · cases h
    · rename_i c found
      obtain ⟨cs, offered, found⟩ := Option.bind_eq_some_iff.mp found
      cases moved : m.moveTo c.destination with
      | error e =>
        rw [moved] at h
        cases h
      | ok m₁ =>
        rw [moved] at h
        cases h
        exact ⟨awaiting, cs, c, m₁, offered, found, moved, rfl⟩
  · cases h

/-- A choice fails where none is awaited, for an id that is not offered, and for an option whose
    node does not exist. -/
theorem choose_eq_error (h : m.choose id = .error e) :
    (m.state ≠ .awaitingChoice ∧ e = .invalidState "没有等待中的选项") ∨ e = .invalidOption id ∨
      m.state = .awaitingChoice ∧ ∃ cs c, m.offered = some cs ∧ cs.find? id = some c ∧
        m.moveTo c.destination = .error e := by
  unfold choose at h
  split at h
  · rename_i awaiting
    split at h
    · cases h
      exact .inr (.inl rfl)
    · rename_i c found
      obtain ⟨cs, offered, found⟩ := Option.bind_eq_some_iff.mp found
      cases moved : m.moveTo c.destination with
      | error e =>
        rw [moved] at h
        cases h
        exact .inr (.inr ⟨awaiting, cs, c, offered, found, moved⟩)
      | ok m₁ =>
        rw [moved] at h
        cases h
  · rename_i awaiting
    cases h
    exact .inl ⟨awaiting, rfl⟩

/-! ## Every step follows the rules -/

theorem jump_ends {i : Instruction} (jumps : i.Jumps target) :
    (m.advance.jump target).All (m.Ends i) := by
  unfold jump
  cases moved : m.advance.moveTo target with
  | error e =>
    obtain ⟨rfl, missing⟩ := moveTo_eq_error moved
    exact .lost jumps missing
  | ok m' => exact .jump jumps moved

theorem execute_executes (m : Machine) (is : List Instruction) :
    (m.execute is).All (m.Executes is) := by
  induction is generalizing m with
  | nil => exact .finish m
  | cons i rest ih =>
    cases i with
    | line id substitutions =>
      refine (Operand.texts_answered substitutions).bind fun r hr => ?_
      cases r with
      | error e => exact .ends (.failed (hr e rfl))
      | ok ts => exact .ends (.line ts)
    | addOption id substitutions destination =>
      refine (Operand.texts_answered substitutions).bind fun r hr => ?_
      cases r with
      | error e => exact .ends (.failed (hr e rfl))
      | ok ts => exact (ih _).imp fun _ => .pass (.addOption ts)
    | showOptions =>
      unfold execute
      dsimp only
      split
      · rename_i none
        exact (ih _).imp fun _ => .pass (.showOptions (List.isEmpty_iff.mp none))
      · rename_i some
        exact .ends (.showOptions fun none => some (List.isEmpty_iff.mpr none))
    | command text => exact .ends .command
    | set name operand =>
      refine operand.evaluate_answered.bind fun r hr => ?_
      cases r with
      | error e => exact .ends (.failed (hr e rfl))
      | ok value =>
        intro r
        cases r with
        | error e => exact .ends (.failed (.capability e))
        | ok u => exact (ih _).imp fun _ => .pass .set
    | jumpIf name node =>
      intro r
      cases r with
      | error e => exact .ends (.failed (.capability e))
      | ok flag =>
        dsimp only
        split
        · exact (jump_ends (.jumpIf name)).imp fun _ => .ends
        · exact (ih _).imp fun _ => .pass .jumpIf
    | runNode node => exact (jump_ends .runNode).imp fun _ => .ends
    | stop => exact .ends .stop

/-- Whatever the store answers, a step follows the rules. -/
theorem next_steps (m : Machine) : m.next.All m.Steps := by
  unfold next
  split
  · rename_i empty
    have queue := List.isEmpty_iff.mp empty
    cases state : m.state with
    | awaitingChoice => exact .awaiting queue state
    | stopped => exact .stopped queue state
    | running =>
      dsimp only
      cases remaining : m.remaining with
      | error e => exact .unplaced ⟨state, queue⟩ remaining
      | ok is => exact (m.execute_executes is).imp fun _ => .executes ⟨state, queue⟩ remaining
  · rename_i waiting
    exact .queued fun queue => waiting (List.isEmpty_iff.mpr queue)

end Machine

/-! ## What a step hands out -/

theorem EngineError.OfStore.unrefused {e : EngineError} (cause : e.OfStore) : ¬ e.IsRefusal := by
  cases cause with
  | undefinedVariable name => exact id
  | capability e => exact id

namespace Machine

/-- The result of a step is a yield in the state that belongs to it, or an error that refuses
    nothing. -/
structure Delivers (r : Stepped) : Prop where
  carries : ∀ y, r.1 = .ok y → r.2.Carries y
  unrefused : Unrefused r.1

variable {m m' : Machine} {i : Instruction} {is : List Instruction} {r : Stepped}

theorem delivers_error {e : EngineError} (h : ¬ e.IsRefusal) : Delivers (.error e, m) :=
  ⟨nofun, unrefused_error h⟩

theorem delivers_ok {y : Yield} (carries : m.Carries y) : Delivers (.ok y, m) :=
  ⟨fun z hz => by cases hz; exact carries, unrefused_ok y⟩

theorem delivers_pop (moving : m.Moving) (waiting : m.queue ≠ []) :
    Delivers (.ok m.pop.1, m.pop.2) :=
  delivers_ok (pop_carries moving waiting)

theorem Passes.ready (passes : m.Passes i m') (ready : m.Ready) : m'.Ready := by
  cases passes <;> exact ⟨ready.state, ready.queue⟩

theorem Ends.delivers (ends : m.Ends i r) (ready : m.Ready) : Delivers r := by
  -- fetching an instruction leaves the machine ready
  have fetched : m.advance.Ready := ⟨ready.state, ready.queue⟩
  cases ends with
  | line texts => exact delivers_ok fetched
  | showOptions some => exact delivers_ok ⟨rfl, fetched.queue, rfl⟩
  | command => exact delivers_ok fetched
  | jump _ moved =>
    obtain ⟨waiting, marks⟩ := moveTo_marks moved fetched.queue
    refine delivers_pop (.running ?_ marks) waiting
    rw [moveTo_eq moved]
    exact fetched.state
  | lost _ _ => exact delivers_error id
  | stop => exact delivers_pop (finish_moving fetched.queue).1 (finish_moving fetched.queue).2
  | failed cause => exact delivers_error cause.unrefused

theorem Executes.delivers (executes : m.Executes is r) (ready : m.Ready) : Delivers r := by
  induction executes with
  | finish m => exact delivers_pop (finish_moving ready.queue).1 (finish_moving ready.queue).2
  | pass passes _ ih => exact ih (passes.ready ready)
  | ends ends => exact ends.delivers ready

theorem Steps.delivers (steps : m.Steps r) (moving : m.Moving) : Delivers r := by
  cases steps with
  | queued waiting => exact delivers_pop moving waiting
  | awaiting _ state => exact absurd state moving.not_awaiting
  | stopped _ _ => exact delivers_error id
  | unplaced _ remaining => exact delivers_error (remaining_error remaining)
  | executes ready _ executes => exact executes.delivers ready

/-- No step refuses an option. -/
theorem Steps.valid (steps : m.Steps r) (id : Nat) :
    r.1 ≠ .error (.runtime (.invalidOption id)) := by
  intro refused
  cases steps with
  | queued waiting => cases refused
  | awaiting _ _ => cases refused
  | stopped _ _ => cases refused
  | unplaced _ remaining =>
    cases refused
    exact remaining_error remaining trivial
  | executes ready _ executes => exact (executes.delivers ready).unrefused _ refused trivial

/-- Whatever the store answers, a step of a machine that goes on hands something out in the state
    that belongs to it, or fails. -/
theorem next_delivers (moving : m.Moving) : m.next.All Delivers :=
  m.next_steps.imp fun _ steps => steps.delivers moving

/-- A machine that waits for a choice answers only with the error that says so. -/
theorem next_awaiting {cs : Choices} (offers : m.Offers cs) :
    m.next = m.fail (.runtime .awaitingSelection) := by
  unfold next
  rw [offers.queue, offers.state]
  rfl

end Machine

end DialogueEngine
