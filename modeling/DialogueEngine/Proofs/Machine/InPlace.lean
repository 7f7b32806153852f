import DialogueEngine.Proofs.Bare.Instructions

/-! # A machine that is changed in place

The operations of the machine as sequences of updates of one field at a time, with their checks
where they are made. What has been changed before a check fails stays changed, so that a failed
operation leaves the machine as it was only where every check comes before the first update.

* `Machine.Procedure` — a computation that changes a machine and may fail at any point.
* `Procedure.fetch`, `Procedure.perform`, `Procedure.rounds` — the loop of a step.
* `Procedure.serve` — requests, served in place.
* `Procedure.serve_eq` — they come to the same as for a machine that is replaced as a whole.
-/

namespace DialogueEngine

variable {α β : Type}

/-- Computations that go on alike from every result that their common part can have. -/
theorem Access.All.bind_congr {P : α → Prop} {x : Access α} {f g : α → Access β} (all : x.All P)
    (same : ∀ a, P a → f a = g a) : x.bind f = x.bind g := by
  induction x with
  | done a => exact same a all
  | read name k ih => exact congrArg (Access.read name) (funext fun r => ih r (all r))
  | write name value k ih => exact congrArg (Access.write name value) (funext fun r => ih r (all r))

namespace Machine

/-- A computation that changes a machine and uses its store. It may fail at any point, and then the
    machine is what it has been changed to until there. -/
abbrev Procedure : Type → Type := ExceptT EngineError (StateT Machine Access)

namespace Procedure

/-! ## Procedures -/

/-- Asks the store, and fails if it does. -/
def ask (x : Access (Except EngineError α)) : Procedure α := ExceptT.mk (StateT.lift x)

def push (y : Yield) : Procedure Unit := modify fun m => { m with queue := m.queue ++ [y] }

def pop : Procedure Yield := do
  match (← get).queue with
  | [] => return .dialogueComplete
  | y :: rest =>
    modify fun m => { m with queue := rest }
    return y

def stop : Procedure Unit := do
  modify fun m => { m with frame := none }
  modify fun m => { m with state := .stopped }
  modify fun m => { m with pending := [] }
  modify fun m => { m with offered := none }
  modify fun m => { m with queue := [] }

def load (p : Program) : Procedure Unit := do
  stop
  modify fun m => { m with program := some p }

def unload : Procedure Unit := do
  stop
  modify fun m => { m with program := none }

/-- Adds nodes to the program, one after the other. -/
def extend : List (String × Node) → Procedure Unit
  | [] => return ()
  | e :: rest => do
    modify fun m => { m with program := m.program.map fun p => p.withNode e.1 e.2 }
    extend rest

def add (p : Program) : Procedure Unit := do
  match (← get).program with
  | none => modify fun m => { m with program := some p }
  | some old =>
    match p.names.find? old.defines with
    | some node => throw (.program (.nodeConflict node))
    | none => extend p.nodes.entries

def enter (name : String) : Procedure Unit := do
  match (← get).program with
  | none => throw (.runtime .noProgramLoaded)
  | some p =>
    unless p.defines name do throw (.runtime (.unknownNode name))
    stop
    modify fun m => { m with frame := some ⟨name, 0⟩ }
    modify fun m => { m with state := .running }
    push (.nodeStart name)

/-- Gives up the present place and queues that its node is left. -/
def leave : Procedure Unit := do
  match (← get).frame with
  | none => return ()
  | some f =>
    modify fun m => { m with frame := none }
    push (.nodeComplete f.node)

def moveTo (target : String) : Procedure Unit := do
  unless (← get).defines target do throw (.runtime (.unknownNode target))
  leave
  push (.nodeStart target)
  modify fun m => { m with frame := some ⟨target, 0⟩ }
  modify fun m => { m with pending := [] }

def choose (id : Nat) : Procedure Unit := do
  unless (← get).state = .awaitingChoice do throw (.runtime (.invalidState "没有等待中的选项"))
  match (← get).offered.bind (·.find? id) with
  | none => throw (.runtime (.invalidOption id))
  | some c =>
    -- whether the node exists is checked in here, with nothing changed so far
    moveTo c.destination
    modify fun m => { m with offered := none }
    modify fun m => { m with state := .running }

def finish : Procedure Yield := do
  leave
  push .dialogueComplete
  modify fun m => { m with state := .stopped }
  modify fun m => { m with pending := [] }
  pop

/-- The instruction at the present place, which is then passed; none at the end of the node. -/
def fetch : Procedure (Option Instruction) := do
  match (← get).program, (← get).frame with
  | none, _ => throw (.runtime .noProgramLoaded)
  | some _, none => throw (.runtime (.invalidState "没有执行位置"))
  | some p, some f =>
    match p.find? f.node with
    | none => throw (.runtime (.unknownNode f.node))
    | some node =>
      match node.instructions[f.position]? with
      | none => return none
      | some i =>
        modify fun m => { m with frame := some { f with position := f.position + 1 } }
        return some i

/-- Carries out an instruction that has been fetched; none if the step goes on. -/
def perform : Instruction → Procedure (Option Yield)
  | .line id substitutions => do
    let texts ← ask (Operand.texts substitutions)
    return some (.line ⟨id, texts⟩)
  | .addOption id substitutions destination => do
    let texts ← ask (Operand.texts substitutions)
    modify fun m =>
      { m with pending := m.pending ++ [⟨m.pending.length, ⟨id, texts⟩, destination⟩] }
    return none
  | .showOptions => do
    let options := (← get).pending
    if options.isEmpty then return none
    else
      modify fun m => { m with pending := [] }
      modify fun m => { m with offered := some ⟨options⟩ }
      modify fun m => { m with state := .awaitingChoice }
      return some (.choices ⟨options⟩)
  | .command text => return some (.command ⟨text⟩)
  | .set name operand => do
    let value ← ask operand.evaluate
    ask (.write name value fun r => .done (r.mapError .capability))
    return none
  | .jumpIf name node => do
    let flag ← ask (.read name fun r => .done (r.mapError .capability))
    if flag.bind Value.bool? = some true then
      moveTo node
      return some (← pop)
    else return none
  | .runNode node => do
    moveTo node
    return some (← pop)
  | .stop => return some (← finish)

/-- The loop of a step, for as many rounds at most. -/
def rounds : Nat → Procedure Yield
  | 0 => finish
  | n + 1 => do
    match ← fetch with
    | none => finish
    | some i =>
      match ← perform i with
      | some y => return y
      | none => rounds n

/-- One step: hands out what is queued, and else runs instructions. -/
def next : Procedure Yield := do
  match (← get).queue with
  | y :: rest =>
    modify fun m => { m with queue := rest }
    return y
  | [] =>
    match (← get).state with
    | .awaitingChoice => throw (.runtime .awaitingSelection)
    | .stopped => throw (.runtime (.invalidState "VM 未在执行"))
    -- every round but the last one passes an instruction of the node
    | .running => rounds ((← get).remaining.toOption.elim 0 List.length + 1)

def serve : Request → Procedure (Option Yield)
  | .load p => do
    load p
    return none
  | .add p => do
    add p
    return none
  | .unload => do
    unload
    return none
  | .enter node => do
    enter node
    return none
  | .next => return some (← next)
  | .choose id => do
    choose id
    return none
  | .stop => do
    stop
    return none

/-! ## Procedures one after the other -/

/-- How a procedure goes on after a result. -/
def proceed (f : α → Procedure β) : Except EngineError α × Machine →
    Access (Except EngineError β × Machine)
  | (.ok a, m) => f a m
  | (.error e, m) => .done (.error e, m)

theorem bind_apply (x : Procedure α) (f : α → Procedure β) (m : Machine) :
    (x >>= f) m = (x m).bind (proceed f) := by
  refine congrArg (Access.bind (x m)) (funext fun r => ?_)
  obtain ⟨e | a, m⟩ := r <;> rfl

theorem bind_ok {m m' : Machine} {x : Procedure α} {f : α → Procedure β} {a : α}
    (h : x m = .done (.ok a, m')) : (x >>= f) m = f a m' := by
  rw [bind_apply, h]
  rfl

theorem get_bind (f : Machine → Procedure β) (m : Machine) : (get >>= f) m = f m m := rfl

/-- Asking the store leaves the machine alone. -/
theorem ask_bind (x : Access (Except EngineError α)) (f : α → Procedure β) (m : Machine) :
    (ask x >>= f) m = x.bind fun r => proceed f (r, m) := by
  rw [bind_apply]
  exact Access.bind_assoc x _ _

/-! ## Updates and checks -/

/-- The machine is replaced as a whole, or kept if there is an error. -/
def replace {ε : Type} (m : Machine) (cause : ε → EngineError) :
    Except ε Machine → Access (Except EngineError Unit × Machine)
  | .ok m' => .done (.ok (), m')
  | .error e => .done (.error (cause e), m)

theorem pop_eq (m : Machine) : pop m = m.yieldQueued := by
  obtain ⟨program, frame, state, pending, offered, queue⟩ := m
  cases queue <;> rfl

theorem leave_eq (m : Machine) :
    leave m = .done (.ok (), { m with frame := none, queue := m.queue ++ m.leaving }) := by
  obtain ⟨program, frame, state, pending, offered, queue⟩ := m
  cases frame with
  | none =>
    simp only [Machine.leaving, Option.elim_none, List.append_nil]
    rfl
  | some f => rfl

theorem finish_eq (m : Machine) : finish m = m.finish.yieldQueued := by
  unfold finish
  rw [bind_ok (leave_eq m)]
  exact pop_eq m.finish

theorem moveTo_eq (m : Machine) (target : String) :
    moveTo target m = replace m .runtime (m.moveTo target) := by
  unfold moveTo Machine.moveTo
  rw [get_bind]
  cases m.defines target with
  | false => rfl
  | true =>
    simp only [if_true]
    rw [bind_ok (leave_eq m)]
    rfl

theorem enter_eq (m : Machine) (name : String) :
    enter name m = replace m .runtime (m.enter name) := by
  unfold enter Machine.enter
  rw [get_bind]
  cases m.program with
  | none => rfl
  | some p =>
    dsimp only
    cases p.defines name <;> rfl

theorem choose_eq (m : Machine) (id : Nat) :
    choose id m = replace m .runtime (m.choose id) := by
  unfold choose Machine.choose
  rw [get_bind]
  by_cases awaiting : m.state = .awaitingChoice
  · simp only [if_pos awaiting]
    rw [get_bind]
    cases m.offered.bind (·.find? id) with
    | none => rfl
    | some c =>
      dsimp only
      rw [bind_apply, moveTo_eq]
      cases m.moveTo c.destination <;> rfl
  · simp only [if_neg awaiting]
    rfl

/-- Nodes that are added one after the other are in the end all there. -/
theorem extend_eq (m : Machine) (nodes : List (String × Node)) {p : Program}
    (program : m.program = some p) :
    extend nodes m =
      .done (.ok (), { m with program := some { p with nodes := p.nodes.insertAll nodes } }) := by
  -- the program grows with every node, so that it is another one for the rest
  induction nodes generalizing m p with
  | nil =>
    obtain ⟨_, frame, state, pending, offered, queue⟩ := m
    cases program
    rfl
  | cons e rest ih =>
    exact ih { m with program := m.program.map fun p => p.withNode e.1 e.2 } (by rw [program]; rfl)

theorem add_eq (m : Machine) (p : Program) : add p m = replace m .program (m.add p) := by
  unfold add Machine.add
  rw [get_bind]
  cases program : m.program with
  | none => rfl
  | some old =>
    dsimp only
    unfold Program.merge
    cases p.names.find? old.defines with
    | some node => rfl
    | none => exact extend_eq m p.nodes.entries program

/-! ## The loop of a step -/

/-- What fetching comes to, by what there is to be fetched. -/
def fetched (m : Machine) : Except RuntimeError (List Instruction) →
    Access (Except EngineError (Option Instruction) × Machine)
  | .error e => .done (.error (.runtime e), m)
  | .ok [] => .done (.ok none, m)
  | .ok (i :: _) => .done (.ok (some i), m.advance)

theorem fetch_eq (m : Machine) : fetch m = fetched m m.remaining := by
  obtain ⟨program, frame, state, pending, offered, queue⟩ := m
  cases program with
  | none => rfl
  | some p =>
    cases frame with
    | none => rfl
    | some f =>
      unfold fetch remaining
      rw [get_bind, get_bind]
      dsimp only
      cases p.find? f.node with
      | none => rfl
      | some node =>
        dsimp only
        rw [← List.head?_drop]
        cases node.instructions.drop f.position <;> rfl

theorem moveTo_pop (m : Machine) (target : String) :
    (do moveTo target; return some (← pop) : Procedure (Option Yield)) m =
      handOut (m.jump target) := by
  unfold jump
  rw [bind_apply, moveTo_eq]
  cases m.moveTo target with
  | error e => rfl
  | ok m' =>
    change (pop >>= _) m' = _
    rw [bind_apply, pop_eq]
    rfl

/-- An instruction that has been fetched is carried out alike. -/
theorem perform_eq (m : Machine) (i : Instruction) : perform i m.advance = m.perform i := by
  cases i with
  | line id substitutions =>
    refine (ask_bind _ _ m.advance).trans (congrArg (Access.bind _) (funext fun r => ?_))
    cases r <;> rfl
  | addOption id substitutions destination =>
    refine (ask_bind _ _ m.advance).trans (congrArg (Access.bind _) (funext fun r => ?_))
    cases r <;> rfl
  | showOptions =>
    unfold Machine.perform
    refine (get_bind _ m.advance).trans ?_
    dsimp only
    cases m.advance.pending.isEmpty <;> rfl
  | command text => rfl
  | set name operand =>
    refine (ask_bind _ _ m.advance).trans (congrArg (Access.bind _) (funext fun r => ?_))
    cases r with
    | error e => rfl
    | ok value =>
      refine congrArg (Access.write name value) (funext fun r => ?_)
      cases r <;> rfl
  | jumpIf name node =>
    refine (ask_bind _ _ m.advance).trans (congrArg (Access.read name) (funext fun r => ?_))
    cases r with
    | error e => rfl
    | ok flag =>
      by_cases set : flag.bind Value.bool? = some true
      · refine (congrFun (if_pos set) m.advance).trans ?_
        exact (moveTo_pop m.advance node).trans (if_pos set).symm
      · exact (congrFun (if_neg set) m.advance).trans (if_neg set).symm
  | runNode node => exact moveTo_pop m.advance node
  | stop =>
    refine (bind_apply _ _ m.advance).trans ?_
    rw [finish_eq]
    rfl

/-- After an instruction that has been passed the others are still to be fetched. -/
theorem remaining_advance {m : Machine} {i : Instruction} {rest : List Instruction}
    (remaining : m.remaining = .ok (i :: rest)) : m.advance.remaining = .ok rest := by
  obtain ⟨p, f, node, program, frame, found, drop⟩ := remaining_eq_ok remaining
  have left : rest = node.instructions.drop (f.position + 1) := by
    rw [← List.tail_drop, ← drop, List.tail_cons]
  simp [Machine.remaining, Machine.advance, program, frame, found, left]

theorem remaining_passes {m m' : Machine} {i : Instruction} {rest : List Instruction}
    (remaining : m.remaining = .ok (i :: rest)) (passes : m.Passes i m') :
    m'.remaining = .ok rest := by
  have left := remaining_advance remaining
  cases passes with
  | addOption texts => exact left
  | showOptions none => exact left
  | set => exact left
  | jumpIf => exact left

/-- Rounds that are enough for the instructions of the node execute these. -/
theorem rounds_eq {m : Machine} {is : List Instruction} {n : Nat}
    (remaining : m.remaining = .ok is) (enough : is.length < n) : rounds n m = m.execute is := by
  induction n generalizing m is with
  | zero => exact absurd enough (Nat.not_lt_zero _)
  | succ n ih =>
    unfold rounds
    rw [bind_apply, fetch_eq, remaining]
    cases is with
    | nil => exact finish_eq m
    | cons i rest =>
      change (perform i >>= _) m.advance = _
      rw [bind_apply, perform_eq, execute_cons]
      -- only what an instruction can do matters: if it is passed, the rest is still to be fetched
      refine (m.perform_performs i).bind_congr fun r performs => ?_
      cases performs with
      | passes passes => exact ih (remaining_passes remaining passes) (Nat.lt_of_succ_lt_succ enough)
      | @ends r ends => obtain ⟨e | y, m'⟩ := r <;> rfl

theorem next_eq (m : Machine) : next m = m.next := by
  unfold next Machine.next
  rw [get_bind]
  cases queue : m.queue with
  | cons y rest =>
    obtain ⟨program, frame, state, pending, offered, _⟩ := m
    cases queue
    rfl
  | nil =>
    dsimp only [List.isEmpty_nil, if_true]
    rw [get_bind]
    cases m.state with
    | awaitingChoice => rfl
    | stopped => rfl
    | running =>
      dsimp only
      rw [get_bind]
      cases remaining : m.remaining with
      | ok is => exact rounds_eq remaining (Nat.lt_succ_self _)
      | error e =>
        unfold rounds
        rw [bind_apply, fetch_eq, remaining]
        rfl

/-- An operation that has nothing to hand out is an attempt. -/
theorem attempt_eq {m : Machine} {ε : Type} {x : Procedure Unit} {cause : ε → EngineError}
    {r : Except ε Machine} (same : x m = replace m cause r) :
    (do x; return none : Procedure (Option Yield)) m = m.attempt cause r := by
  refine (bind_apply _ _ m).trans ?_
  rw [same]
  cases r <;> rfl

/-- Whatever a machine is asked for, changing it in place comes to the same as replacing it. -/
theorem serve_eq (m : Machine) (q : Request) : serve q m = m.serve q := by
  cases q with
  | load p => rfl
  | add p => exact attempt_eq (add_eq m p)
  | unload => rfl
  | enter node => exact attempt_eq (enter_eq m node)
  | next =>
    refine (bind_apply _ _ m).trans ?_
    rw [next_eq]
    refine congrArg (Access.bind m.next) (funext fun r => ?_)
    obtain ⟨e | y, m'⟩ := r <;> rfl
  | choose id => exact attempt_eq (choose_eq m id)
  | stop => rfl

end Procedure

end Machine

end DialogueEngine
