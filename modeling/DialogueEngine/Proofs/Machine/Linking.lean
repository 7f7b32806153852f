import DialogueEngine.Proofs.Machine.Representation
import DialogueEngine.Proofs.Program.Targets

/-! # Machines in a linked program

A machine that has been started in a program all of whose targets exist never tells that a node is
unknown, until it is started anew.

* `EngineError.IsLost`, `Found` — the error that tells of an unknown node, and answers without it.
* `Machine.Inside` — a machine whose next node is one of the program, whatever comes.
* `Machine.next_inside`, `Machine.choose_inside` — a step, and a choice.
* `Machine.serveAll_inside` — requests one after the other.
-/

namespace DialogueEngine

def EngineError.IsLost : EngineError → Prop
  | .runtime (.unknownNode _) => True
  | _ => False

/-- A result, or an error that does not tell of an unknown node. -/
def Found {α : Type} (r : Except EngineError α) : Prop := ∀ e, r = .error e → ¬ e.IsLost

theorem EngineError.OfStore.found {e : EngineError} (cause : e.OfStore) : ¬ e.IsLost := by
  cases cause with
  | undefinedVariable name => exact id
  | capability e => exact id

theorem Instruction.Jumps.target? {i : Instruction} {node : String} (jumps : i.Jumps node) :
    i.target? = some node := by
  cases jumps <;> rfl

namespace Machine

/-- The machine runs in a program that may have been extended. The node it is in, and those of all
    options that it has, are nodes of the program. -/
structure Inside (q : Program) (m : Machine) : Prop where
  loaded : m.state ≠ .stopped → ∃ p, m.program = some p ∧ p.Extends q
  placed : ∀ f, m.frame = some f → q.defines f.node = true
  pending : ∀ c ∈ m.pending, q.defines c.destination = true
  offered : ∀ cs, m.offered = some cs → ∀ c ∈ cs.options, q.defines c.destination = true

/-- All instructions lead to nodes of the program. -/
def Stays (q : Program) (is : List Instruction) : Prop :=
  ∀ i ∈ is, ∀ target, i.target? = some target → q.defines target = true

/-- The answer of a step does not tell of an unknown node, and the machine is still inside. -/
def Lands (q : Program) (r : Stepped) : Prop := Found r.1 ∧ r.2.Inside q

variable {q : Program} {m m' : Machine}

/-- A machine at rest is inside. -/
theorem Inside.of_rest (state : m.state = .stopped) (frame : m.frame = none)
    (pending : m.pending = []) (offered : m.offered = none) : m.Inside q where
  loaded going := absurd state going
  placed f present := by rw [frame] at present; cases present
  pending c hc := by rw [pending] at hc; cases hc
  offered cs present := by rw [offered] at present; cases present

theorem inside_enter {node : String} (loaded : m.program = some q)
    (entered : m.enter node = .ok m') : m'.Inside q := by
  obtain ⟨defined, rfl⟩ := enter_eq entered
  obtain ⟨p, program, defined⟩ := defines_iff.mp defined
  cases loaded.symm.trans program
  refine ⟨fun _ => ⟨q, loaded, .refl q⟩, fun f present => ?_, nofun, nofun⟩
  cases present
  exact defined

namespace Inside

theorem defines {target : String} (inside : m.Inside q) (going : m.state ≠ .stopped)
    (known : q.defines target = true) : m.defines target = true := by
  obtain ⟨p, program, more⟩ := inside.loaded going
  exact defines_iff.mpr ⟨p, program, more.defines known⟩

theorem advance (inside : m.Inside q) : m.advance.Inside q := by
  refine ⟨inside.loaded, fun f present => ?_, inside.pending, inside.offered⟩
  obtain ⟨g, there, rfl⟩ := Option.map_eq_some_iff.mp present
  exact inside.placed g there

theorem pop (inside : m.Inside q) : m.pop.2.Inside q := by
  unfold Machine.pop
  split
  · exact inside
  · exact ⟨inside.loaded, inside.placed, inside.pending, inside.offered⟩

theorem finish (inside : m.Inside q) : m.finish.Inside q :=
  ⟨fun going => absurd rfl going, nofun, nofun, inside.offered⟩

theorem moveTo {target : String} (inside : m.Inside q) (known : q.defines target = true)
    (moved : m.moveTo target = .ok m') : m'.Inside q := by
  rw [moveTo_eq moved]
  refine ⟨inside.loaded, fun f present => ?_, nofun, inside.offered⟩
  cases present
  exact known

theorem add {p : Program} (inside : m.Inside q) (added : m.add p = .ok m') : m'.Inside q := by
  obtain ⟨both, rfl, merged⟩ := add_eq_ok added
  refine ⟨fun going => ?_, inside.placed, inside.pending, inside.offered⟩
  obtain ⟨old, program, more⟩ := inside.loaded going
  exact ⟨both, rfl, (Program.merge_extends (merged old program)).trans more⟩

end Inside

/-! ## A step -/

/-- The rest of the present node stays inside. -/
theorem Inside.remaining {is : List Instruction} (inside : m.Inside q) (linked : q.Linked)
    (going : m.state ≠ .stopped) (remaining : m.remaining = .ok is) : Stays q is := by
  obtain ⟨p, f, node, program, frame, found, rfl⟩ := remaining_eq_ok remaining
  obtain ⟨p', program', more⟩ := inside.loaded going
  obtain rfl : p = p' := Option.some.inj (program.symm.trans program')
  obtain ⟨old, there⟩ := Program.defines_iff.mp (inside.placed f frame)
  obtain rfl : node = old := Option.some.inj (found.symm.trans (more _ _ there))
  exact fun i hi target leads => linked.defines there (List.mem_of_mem_drop hi) leads

theorem Inside.remaining_error {e : RuntimeError} (inside : m.Inside q)
    (going : m.state ≠ .stopped) (remaining : m.remaining = .error e) :
    ¬ (EngineError.runtime e).IsLost := by
  obtain ⟨p, program, more⟩ := inside.loaded going
  unfold Machine.remaining at remaining
  rw [program] at remaining
  split at remaining
  · cases remaining
    exact id
  · cases remaining
    exact id
  · rename_i p' f same frame
    obtain rfl : p = p' := Option.some.inj same
    obtain ⟨node, there⟩ := Program.defines_iff.mp (inside.placed f frame)
    rw [more _ _ there] at remaining
    cases remaining

theorem lands_ok {y : Yield} (inside : m.Inside q) : Lands q (.ok y, m) := ⟨nofun, inside⟩

theorem lands_error {e : EngineError} (inside : m.Inside q) (found : ¬ e.IsLost) :
    Lands q (.error e, m) :=
  ⟨fun _ he => by cases he; exact found, inside⟩

theorem Inside.ends {i : Instruction} {r : Stepped} (inside : m.Inside q)
    (going : m.state ≠ .stopped)
    (stays : ∀ target, i.target? = some target → q.defines target = true) (ends : m.Ends i r) :
    Lands q r := by
  cases ends with
  | line texts => exact lands_ok inside.advance
  | showOptions some =>
    refine lands_ok ⟨fun _ => inside.loaded going, inside.advance.placed, nofun, fun cs shown => ?_⟩
    cases shown
    exact inside.pending
  | command => exact lands_ok inside.advance
  | jump jumps moved => exact lands_ok (inside.advance.moveTo (stays _ jumps.target?) moved).pop
  | lost jumps missing =>
    rw [inside.defines going (stays _ jumps.target?)] at missing
    cases missing
  | stop => exact lands_ok inside.advance.finish.pop
  | failed cause => exact lands_error inside.advance cause.found

theorem Inside.passes {i : Instruction} (inside : m.Inside q)
    (stays : ∀ target, i.target? = some target → q.defines target = true)
    (passes : m.Passes i m') : m'.Inside q := by
  cases passes with
  | addOption texts =>
    refine ⟨inside.loaded, inside.advance.placed, fun c hc => ?_, inside.offered⟩
    rcases List.mem_append.mp hc with hc | hc
    · exact inside.pending c hc
    · obtain rfl := List.mem_singleton.mp hc
      exact stays _ rfl
  | showOptions none => exact inside.advance
  | set => exact inside.advance
  | jumpIf => exact inside.advance

theorem Passes.state {i : Instruction} (passes : m.Passes i m') : m'.state = m.state := by
  cases passes <;> rfl

theorem Inside.executes {is : List Instruction} {r : Stepped} (inside : m.Inside q)
    (going : m.state ≠ .stopped) (stays : Stays q is) (executes : m.Executes is r) :
    Lands q r := by
  induction executes with
  | finish m => exact lands_ok inside.finish.pop
  | pass passes _ ih =>
    have here := stays _ List.mem_cons_self
    exact ih (inside.passes here passes) (by rwa [passes.state])
      fun i hi => stays i (List.mem_cons_of_mem _ hi)
  | ends ends => exact inside.ends going (stays _ List.mem_cons_self) ends

theorem Inside.steps {r : Stepped} (inside : m.Inside q) (linked : q.Linked)
    (steps : m.Steps r) : Lands q r := by
  cases steps with
  | queued waiting => exact lands_ok inside.pop
  | awaiting queue state => exact lands_error inside id
  | stopped queue state => exact lands_error inside id
  | unplaced ready remaining =>
    have going : m.state ≠ .stopped := by rw [ready.state]; decide
    exact lands_error inside (inside.remaining_error going remaining)
  | executes ready remaining executes =>
    have going : m.state ≠ .stopped := by rw [ready.state]; decide
    exact inside.executes going (inside.remaining linked going remaining) executes

/-- Whatever the store answers, a step inside a linked program stays there. -/
theorem next_inside (inside : m.Inside q) (linked : q.Linked) : m.next.All (Lands q) :=
  m.next_steps.imp fun _ steps => inside.steps linked steps

theorem Inside.option {cs : Choices} {c : Choice} {id : Nat} (inside : m.Inside q)
    (offered : m.offered = some cs) (found : cs.find? id = some c) :
    q.defines c.destination = true :=
  inside.offered cs offered c (List.mem_of_find?_eq_some found)

theorem choose_inside {id : Nat} (inside : m.Inside q) (chosen : m.choose id = .ok m') :
    m'.Inside q := by
  obtain ⟨awaiting, cs, c, m₁, offered, found, moved, rfl⟩ := choose_eq_ok chosen
  have going : m.state ≠ .stopped := by rw [awaiting]; decide
  have arrived := inside.moveTo (inside.option offered found) moved
  refine ⟨fun _ => arrived.loaded ?_, arrived.placed, arrived.pending, nofun⟩
  rw [moveTo_eq moved]
  exact going

theorem choose_found {n : Nat} {e : RuntimeError} (inside : m.Inside q)
    (failed : m.choose n = .error e) : ¬ (EngineError.runtime e).IsLost := by
  rcases choose_eq_error failed with ⟨_, rfl⟩ | rfl | ⟨awaiting, cs, c, offered, found, moved⟩
  · exact id
  · exact id
  · have known := inside.defines (by rw [awaiting]; decide) (inside.option offered found)
    rw [(moveTo_eq_error moved).2] at known
    cases known

/-! ## Requests -/

/-- The request starts the machine anew. -/
def Request.IsEnter : Request → Prop
  | .enter _ => True
  | _ => False

theorem serve_inside (linked : q.Linked) (m : Machine) (request : Request)
    (same : ¬ request.IsEnter) (inside : m.Inside q) :
    (m.serve request).All fun r => Found r.1 ∧ r.2.Inside q := by
  cases request with
  | load p => exact ⟨nofun, .of_rest rfl rfl rfl rfl⟩
  | add p =>
    exact attempt_all (fun _ added => ⟨nofun, inside.add added⟩)
      fun e _ => ⟨fun _ he => by cases he; exact id, inside⟩
  | unload => exact ⟨nofun, .of_rest rfl rfl rfl rfl⟩
  | enter node => exact absurd trivial same
  | next =>
    refine (next_inside inside linked).bind fun r lands => ⟨fun e he => ?_, lands.2⟩
    obtain ⟨e | y, m'⟩ := r
    · cases he
      exact lands.1 e rfl
    · cases he
  | choose id =>
    exact attempt_all (fun _ chosen => ⟨nofun, choose_inside inside chosen⟩)
      fun e failed => ⟨fun _ he => by cases he; exact choose_found inside failed, inside⟩
  | stop => exact ⟨nofun, .of_rest rfl rfl rfl rfl⟩

/-- Until it is started anew, no answer of a machine inside a linked program tells that a node is
    unknown. -/
theorem serveAll_inside (linked : q.Linked) (inside : m.Inside q) (requests : List Request)
    (same : ∀ request ∈ requests, ¬ request.IsEnter) :
    (m.serveAll requests).All fun r => (∀ a ∈ r.1, Found a) ∧ r.2.Inside q :=
  serveAll_all (K := fun request => ¬ request.IsEnter) (serve_inside linked) inside requests same

end Machine

end DialogueEngine
