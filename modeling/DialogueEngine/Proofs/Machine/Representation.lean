import DialogueEngine.Proofs.Machine.Steps
import DialogueEngine.Proofs.Program.Merging

/-! # States that a machine can be in

A machine that has been asked for anything, in any order and with any answers of the store, is in
one of few states: its fields fit together, so that a step has no other errors than those of the
program and of the store.

* `Machine.Request`, `Machine.serveAll` — what a machine can be asked for, one after the other.
* `Machine.Valid` — how the fields of a machine fit together.
* `Machine.serve_valid` — every request keeps them so.
* `Machine.Faultless`, `Machine.serveAll_valid` — what a step from such a state can do.
-/

namespace DialogueEngine.Machine

/-! ## Requests -/

inductive Request where
  | load (p : Program)
  | add (p : Program)
  | unload
  | enter (node : String)
  | next
  | choose (id : Nat)
  | stop

/-- What a request is answered with: for a step what it hands out, for the others nothing. -/
abbrev Reply := Except EngineError (Option Yield)

/-- The answer to an attempt that leaves the machine as it is if it fails. -/
def attempt {ε : Type} (m : Machine) (cause : ε → EngineError) :
    Except ε Machine → Access (Reply × Machine)
  | .ok m' => .done (.ok none, m')
  | .error e => .done (.error (cause e), m)

def serve (m : Machine) : Request → Access (Reply × Machine)
  | .load p => .done (.ok none, m.load p)
  | .add p => m.attempt .program (m.add p)
  | .unload => .done (.ok none, m.unload)
  | .enter node => m.attempt .runtime (m.enter node)
  | .next => m.next.bind fun r => .done (r.1.map some, r.2)
  | .choose id => m.attempt .runtime (m.choose id)
  | .stop => .done (.ok none, m.stop)

/-- Serves requests one after the other, whatever comes of each. -/
def serveAll (m : Machine) : List Request → Access (List Reply × Machine)
  | [] => .done ([], m)
  | q :: rest => (m.serve q).bind fun r =>
    (r.2.serveAll rest).bind fun rs => .done (r.1 :: rs.1, rs.2)

/-- An attempt is answered with its error, or with nothing. -/
theorem attempt_all {ε : Type} {m : Machine} {cause : ε → EngineError} {result : Except ε Machine}
    {P : Reply × Machine → Prop} (changed : ∀ m', result = .ok m' → P (.ok none, m'))
    (kept : ∀ e, result = .error e → P (.error (cause e), m)) :
    (m.attempt cause result).All P := by
  cases result with
  | ok m' => exact changed m' rfl
  | error e => exact kept e rfl

/-- What every request of some kind keeps holds of every machine that such requests lead to, and
    what holds of all answers to them of every answer. -/
theorem serveAll_all {P : Machine → Prop} {A : Reply → Prop} {K : Request → Prop}
    (kept : ∀ m q, K q → P m → (m.serve q).All fun r => A r.1 ∧ P r.2) {m : Machine}
    (start : P m) (qs : List Request) (all : ∀ q ∈ qs, K q) :
    (m.serveAll qs).All fun r => (∀ a ∈ r.1, A a) ∧ P r.2 := by
  induction qs generalizing m with
  | nil => exact ⟨nofun, start⟩
  | cons q rest ih =>
    refine (kept m q (all q List.mem_cons_self) start).bind fun r hr => ?_
    refine (ih hr.2 fun q hq => all q (List.mem_cons_of_mem _ hq)).bind fun rs hrs => ?_
    refine ⟨fun a ha => ?_, hrs.2⟩
    rcases List.mem_cons.mp ha with rfl | ha
    · exact hr.1
    · exact hrs.1 a ha

/-! ## Fields that fit together -/

/-- What is queued, in the states in which it can be. -/
inductive Queued (m : Machine) : Prop
  | empty (queue : m.queue = [])
  | entered {node : String} (queue : m.queue = [.nodeStart node]) (frame : m.frame = some ⟨node, 0⟩)
  | moved {left node : String} (queue : m.queue = [.nodeComplete left, .nodeStart node])
    (frame : m.frame = some ⟨node, 0⟩)
  | ending (queue : m.queue = [.dialogueComplete]) (state : m.state = .stopped)

/-- The fields of a machine fit together. -/
structure Valid (m : Machine) : Prop where
  stopped : m.state = .stopped ↔ m.frame = none
  placed : ∀ f, m.frame = some f → ∃ p node, m.program = some p ∧ p.find? f.node = some node ∧
    f.position ≤ node.instructions.length
  awaiting : m.state = .awaitingChoice ↔ m.offered.isSome = true
  quiet : m.state = .awaitingChoice → m.queue = [] ∧ m.pending = []
  numbered : m.pending.map (·.id) = List.range m.pending.length
  queued : m.Queued

variable {m m' : Machine}

/-- A machine at rest is valid. -/
theorem Valid.of_rest (frame : m.frame = none) (state : m.state = .stopped)
    (pending : m.pending = []) (offered : m.offered = none) (queued : m.Queued) : m.Valid where
  stopped := iff_of_true state frame
  placed f present := by rw [frame] at present; cases present
  awaiting := by simp [state, offered]
  quiet awaiting := by rw [state] at awaiting; cases awaiting
  numbered := by rw [pending]; rfl
  queued := queued

theorem valid_empty : Machine.empty.Valid := .of_rest rfl rfl rfl rfl (.empty rfl)

theorem valid_stop (m : Machine) : m.stop.Valid := .of_rest rfl rfl rfl rfl (.empty rfl)

/-- A machine at the beginning of a node is valid. -/
theorem Valid.of_begin {node : String} (frame : m.frame = some ⟨node, 0⟩)
    (defined : m.defines node = true) (state : m.state = .running) (pending : m.pending = [])
    (offered : m.offered = none) (queued : m.Queued) : m.Valid where
  stopped := by simp [state, frame]
  placed f present := by
    rw [frame] at present
    cases present
    obtain ⟨p, program, defined⟩ := defines_iff.mp defined
    obtain ⟨n, found⟩ := Program.defines_iff.mp defined
    exact ⟨p, n, program, found, Nat.zero_le _⟩
  awaiting := by simp [state, offered]
  quiet awaiting := by rw [state] at awaiting; cases awaiting
  numbered := by rw [pending]; rfl
  queued := queued

namespace Valid

/-- Other nodes do not matter to a machine. -/
theorem withProgram {p : Program} (valid : m.Valid)
    (more : ∀ old, m.program = some old → p.Extends old) : { m with program := some p }.Valid where
  stopped := valid.stopped
  placed f present := by
    obtain ⟨old, node, program, found, within⟩ := valid.placed f present
    exact ⟨p, node, rfl, more old program _ _ found, within⟩
  awaiting := valid.awaiting
  quiet := valid.quiet
  numbered := valid.numbered
  queued := by
    cases valid.queued with
    | empty queue => exact .empty queue
    | entered queue frame => exact .entered queue frame
    | moved queue frame => exact .moved queue frame
    | ending queue state => exact .ending queue state

theorem add {p : Program} (valid : m.Valid) (added : m.add p = .ok m') : m'.Valid := by
  obtain ⟨q, rfl, merged⟩ := add_eq_ok added
  exact valid.withProgram fun old program => Program.merge_extends (merged old program)

end Valid

theorem enter_valid {node : String} (entered : m.enter node = .ok m') : m'.Valid := by
  obtain ⟨defined, rfl⟩ := enter_eq entered
  exact .of_begin rfl defined rfl rfl rfl (.entered rfl rfl)

/-- A machine that leaves a node with nothing queued hands out that it does. -/
theorem moveTo_queue {target : String} {f : Frame} (frame : m.frame = some f)
    (queue : m.queue = []) (moved : m.moveTo target = .ok m') :
    m'.queue = [.nodeComplete f.node, .nodeStart target] := by
  rw [moveTo_eq moved]
  simp [queue, leaving, frame]

theorem Valid.frame (valid : m.Valid) (going : m.state ≠ .stopped) : ∃ f, m.frame = some f :=
  Option.ne_none_iff_exists'.mp fun gone => going (valid.stopped.mpr gone)

theorem Valid.choose {id : Nat} (valid : m.Valid) (chosen : m.choose id = .ok m') : m'.Valid := by
  obtain ⟨awaiting, cs, c, m₁, _, _, moved, rfl⟩ := choose_eq_ok chosen
  obtain ⟨f, frame⟩ := valid.frame (by rw [awaiting]; decide)
  have queue := moveTo_queue frame (valid.quiet awaiting).1 moved
  have defined := moveTo_defines moved
  cases moveTo_eq moved
  exact .of_begin rfl defined rfl rfl rfl (.moved queue rfl)

/-! ## The instructions of a step -/

/-- The machine is about to execute the instructions, which are the rest of its node. -/
structure Executing (m : Machine) (is : List Instruction) : Prop where
  valid : m.Valid
  ready : m.Ready
  rest : m.remaining = .ok is

theorem remaining_eq_ok {is : List Instruction} (h : m.remaining = .ok is) :
    ∃ p f node, m.program = some p ∧ m.frame = some f ∧ p.find? f.node = some node ∧
      is = node.instructions.drop f.position := by
  unfold remaining at h
  split at h
  · cases h
  · cases h
  · rename_i p f program frame
    split at h
    · cases h
    · rename_i node found
      cases h
      exact ⟨p, f, node, program, frame, found, rfl⟩

/-- A valid machine that runs is within a node. -/
theorem Valid.remaining (valid : m.Valid) (state : m.state = .running) :
    ∃ is, m.remaining = .ok is := by
  obtain ⟨f, frame⟩ := valid.frame (by rw [state]; decide)
  obtain ⟨p, node, program, found, _⟩ := valid.placed f frame
  exact ⟨node.instructions.drop f.position, by simp [Machine.remaining, program, frame, found]⟩

/-- The instruction that has been fetched last. -/
def fetched? (m : Machine) : Option Instruction :=
  match m.program, m.frame with
  | some p, some ⟨node, position + 1⟩ => (p.find? node).bind fun n => n.instructions[position]?
  | _, _ => none

namespace Executing

variable {i : Instruction} {rest : List Instruction}

/-- Fetching an instruction leaves the machine valid, with the others still to be executed. -/
theorem advance (executing : m.Executing (i :: rest)) :
    m.advance.Executing rest ∧ m.advance.fetched? = some i := by
  obtain ⟨valid, ready, remaining⟩ := executing
  obtain ⟨p, f, node, program, frame, found, drop⟩ := remaining_eq_ok remaining
  have fetched : node.instructions[f.position]? = some i := by
    rw [← List.head?_drop, ← drop, List.head?_cons]
  have within : f.position < node.instructions.length :=
    (List.getElem?_eq_some_iff.mp fetched).1
  have arrived : m.advance.frame = some { f with position := f.position + 1 } := by
    simp [Machine.advance, frame]
  have left : rest = node.instructions.drop (f.position + 1) := by
    rw [← List.tail_drop, ← drop, List.tail_cons]
  refine ⟨⟨⟨?_, ?_, valid.awaiting, valid.quiet, valid.numbered, .empty ready.queue⟩,
    ⟨ready.state, ready.queue⟩, ?_⟩, ?_⟩
  · rw [arrived, show m.advance.state = m.state from rfl, ready.state]
    simp
  · intro g present
    rw [arrived] at present
    cases present
    exact ⟨p, node, program, found, within⟩
  · simp [Machine.remaining, show m.advance.program = m.program from rfl, program, arrived, found,
      left]
  · simp [fetched?, show m.advance.program = m.program from rfl, program, arrived, found, fetched]

theorem offered (executing : m.Executing rest) : m.offered = none := by
  have state : m.state ≠ .awaitingChoice := by rw [executing.ready.state]; decide
  have absent := mt executing.valid.awaiting.mpr state
  simpa using absent

theorem frame (executing : m.Executing rest) : ∃ f, m.frame = some f :=
  executing.valid.frame (by rw [executing.ready.state]; decide)

/-- An option that is added has the next number. -/
theorem addChoice (executing : m.Executing rest) (line : Line) (destination : String) :
    (m.addChoice line destination).Executing rest := by
  obtain ⟨valid, ready, remaining⟩ := executing
  refine ⟨⟨valid.stopped, valid.placed, valid.awaiting, ?_, ?_, .empty ready.queue⟩,
    ⟨ready.state, ready.queue⟩, remaining⟩
  · intro awaiting
    rw [show (m.addChoice line destination).state = m.state from rfl, ready.state] at awaiting
    cases awaiting
  · simp [Machine.addChoice, valid.numbered, List.range_succ]

/-- The step goes on in a machine that is about to execute the other instructions. -/
theorem passes (executing : m.Executing (i :: rest)) (passes : m.Passes i m') :
    m'.Executing rest := by
  obtain ⟨fetched, _⟩ := executing.advance
  cases passes with
  | addOption texts => exact fetched.addChoice _ _
  | showOptions none => exact fetched
  | set => exact fetched
  | jumpIf => exact fetched

end Executing

/-! ## Results of a step -/

/-- A step ends in a valid machine. It has no errors but those of the store, of the state in which
    it was asked for, and of an instruction that goes to a node that does not exist; and it hands
    out the end of the dialogue only where that has been queued. -/
structure Faultless (m : Machine) (r : Stepped) : Prop where
  valid : r.2.Valid
  loaded : r.1 ≠ .error (.runtime .noProgramLoaded)
  placed : r.1 ≠ .error (.runtime (.invalidState "没有执行位置"))
  unknown : ∀ target, r.1 = .error (.runtime (.unknownNode target)) →
    r.2.defines target = false ∧ ∃ i, r.2.fetched? = some i ∧ i.Jumps target
  complete : r.1 = .ok .dialogueComplete → m.queue = [.dialogueComplete]

namespace Faultless

variable {y : Yield}

theorem of_ok (valid : m'.Valid) (going : y = .dialogueComplete → m.queue = [.dialogueComplete]) :
    m.Faultless (.ok y, m') where
  valid := valid
  loaded := nofun
  placed := nofun
  unknown := nofun
  complete handed := going (Except.ok.inj handed)

theorem of_store {e : EngineError} (valid : m'.Valid) (cause : e.OfStore) :
    m.Faultless (.error e, m') where
  valid := valid
  loaded failed := by cases failed; cases cause
  placed failed := by cases failed; cases cause
  unknown target failed := by cases failed; cases cause
  complete := nofun

end Faultless

/-- Leaving a node for another one is handed out first. -/
theorem Executing.jump {is : List Instruction} {target : String} (executing : m.Executing is)
    (moved : m.moveTo target = .ok m') : m'.pop.2.Valid ∧ m'.pop.1 ≠ .dialogueComplete := by
  obtain ⟨f, frame⟩ := executing.frame
  have queue := moveTo_queue frame executing.ready.queue moved
  have defined := moveTo_defines moved
  have pop : m'.pop = (.nodeComplete f.node, { m' with queue := [.nodeStart target] }) := by
    simp [pop, queue]
  rw [pop]
  cases moveTo_eq moved
  refine ⟨?_, by simp⟩
  exact .of_begin rfl defined executing.ready.state rfl executing.offered (.entered rfl rfl)

/-- Leaving a node at the end of the dialogue is handed out first. -/
theorem Executing.finish {is : List Instruction} (executing : m.Executing is) :
    m.finish.pop.2.Valid ∧ m.finish.pop.1 ≠ .dialogueComplete := by
  obtain ⟨f, frame⟩ := executing.frame
  have queue : m.finish.queue = [.nodeComplete f.node, .dialogueComplete] := by
    simp [Machine.finish, executing.ready.queue, leaving, frame]
  have pop : m.finish.pop =
      (.nodeComplete f.node, { m.finish with queue := [.dialogueComplete] }) := by
    simp [pop, queue]
  rw [pop]
  exact ⟨.of_rest rfl rfl rfl executing.offered (.ending rfl rfl), by simp⟩

theorem Executing.ends {i : Instruction} {rest : List Instruction} {r : Stepped}
    (executing : m.Executing (i :: rest)) (ends : m.Ends i r) (start : Machine) :
    start.Faultless r := by
  obtain ⟨fetched, last⟩ := executing.advance
  cases ends with
  | line texts => exact .of_ok fetched.valid nofun
  | command => exact .of_ok fetched.valid nofun
  | showOptions some =>
    refine .of_ok ⟨?_, fetched.valid.placed, ?_, ?_, rfl, .empty fetched.ready.queue⟩ nofun
    · obtain ⟨f, frame⟩ := fetched.frame
      simp [offer, frame]
    · simp [offer]
    · exact fun _ => ⟨fetched.ready.queue, rfl⟩
  | jump jumps moved =>
    obtain ⟨valid, going⟩ := fetched.jump moved
    exact .of_ok valid fun complete => absurd complete going
  | stop =>
    obtain ⟨valid, going⟩ := fetched.finish
    exact .of_ok valid fun complete => absurd complete going
  | failed cause => exact .of_store fetched.valid cause
  | lost jumps missing =>
    refine ⟨fetched.valid, nofun, nofun, fun target failed => ?_, nofun⟩
    cases failed
    exact ⟨missing, i, last, jumps⟩

theorem Executing.executes {is : List Instruction} {r : Stepped} (executing : m.Executing is)
    (executes : m.Executes is r) (start : Machine) : start.Faultless r := by
  induction executes with
  | finish m =>
    obtain ⟨valid, going⟩ := executing.finish
    exact .of_ok valid fun complete => absurd complete going
  | pass passes _ ih => exact ih (executing.passes passes)
  | ends ends => exact executing.ends ends start

/-- What is queued is handed out with the rest still to come. -/
theorem Valid.pop (valid : m.Valid) (waiting : m.queue ≠ []) :
    m.Faultless (.ok m.pop.1, m.pop.2) := by
  -- while a choice is awaited nothing is queued
  have other : m.state ≠ .awaitingChoice := fun awaiting => waiting (valid.quiet awaiting).1
  have shortened : ∀ queue, { m with queue := queue }.Queued → { m with queue := queue }.Valid :=
    fun queue queued => ⟨valid.stopped, valid.placed, valid.awaiting,
      fun awaiting => absurd awaiting other, valid.numbered, queued⟩
  cases valid.queued with
  | empty queue => exact absurd queue waiting
  | entered queue frame =>
    simp only [Machine.pop, queue]
    exact .of_ok (shortened [] (.empty rfl)) nofun
  | @moved left node queue frame =>
    simp only [Machine.pop, queue]
    exact .of_ok (shortened [.nodeStart node] (.entered rfl frame)) nofun
  | ending queue state =>
    simp only [Machine.pop, queue]
    exact .of_ok (shortened [] (.empty rfl)) fun _ => queue

theorem Valid.steps {r : Stepped} (valid : m.Valid) (steps : m.Steps r) : m.Faultless r := by
  cases steps with
  | queued waiting => exact valid.pop waiting
  | awaiting queue state => exact ⟨valid, nofun, nofun, nofun, nofun⟩
  | stopped queue state =>
    refine ⟨valid, nofun, fun failed => ?_, nofun, nofun⟩
    simp at failed
  | unplaced ready remaining =>
    obtain ⟨is, within⟩ := valid.remaining ready.state
    rw [within] at remaining
    cases remaining
  | executes ready remaining executes =>
    exact Executing.executes ⟨valid, ready, remaining⟩ executes m

/-! ## Every request -/

theorem serve_valid (m : Machine) (q : Request) (valid : m.Valid) :
    (m.serve q).All fun r => r.2.Valid := by
  cases q with
  | load p => exact .of_rest rfl rfl rfl rfl (.empty rfl)
  | add p => exact attempt_all (fun _ added => valid.add added) fun _ _ => valid
  | unload => exact .of_rest rfl rfl rfl rfl (.empty rfl)
  | enter node => exact attempt_all (fun _ entered => enter_valid entered) fun _ _ => valid
  | next => exact m.next_steps.bind fun r steps => (valid.steps steps).valid
  | choose id => exact attempt_all (fun _ chosen => valid.choose chosen) fun _ _ => valid
  | stop => exact m.valid_stop

/-- Whatever a machine has been asked for and whatever the store has answered, its fields fit
    together, and the next step fails only for the program or the store. -/
theorem serveAll_valid (qs : List Request) :
    (Machine.empty.serveAll qs).All fun r => r.2.Valid ∧ r.2.next.All r.2.Faultless := by
  have reached := serveAll_all (A := fun _ => True) (K := fun _ => True)
    (fun m q _ valid => (m.serve_valid q valid).imp fun _ => .intro trivial) valid_empty qs
  refine (reached fun _ _ => trivial).imp fun r served => ?_
  exact ⟨served.2, r.2.next_steps.imp fun _ steps => served.2.steps steps⟩

end DialogueEngine.Machine
