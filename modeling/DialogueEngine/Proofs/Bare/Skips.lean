import DialogueEngine.Proofs.Bare.Options
import DialogueEngine.Proofs.Bare.Extension
import DialogueEngine.Proofs.Program.Warnings

/-! # Options that are not shown

The check of a program counts the options of a node from its first instruction on. As long as
nothing fails a machine holds just as many, so that it shows nothing exactly where the check warns
of it.

* `Machine.Counted` — a machine that runs holds as many options as the check has counted.
* `Machine.Counted.passes`, `Machine.Counted.ends` — one instruction.
* `Bare.carry_counted` — each instruction of a step, in the state that it is carried out in.
* `Bare.after_counted` — deeds one after the other.
* `Bare.skips_exact` — what is skipped, and what is warned of.
-/

namespace DialogueEngine

variable {σ : Type}

namespace Machine

/-- The machine has a program. While it runs it holds as many options as the check counts in the
    part of the node that lies behind it. -/
structure Counted (p : Program) (m : Machine) : Prop where
  program : m.program = some p
  count : m.state = .running → ∀ f node, m.frame = some f → p.find? f.node = some node →
    m.pending.length = Program.addedIn (node.instructions.take f.position)

variable {p : Program} {m m' : Machine} {i : Instruction} {is rest : List Instruction} {r : Stepped}

namespace Counted

/-- A machine that does not run has nothing to count. -/
theorem of_rest (program : m.program = some p) (rests : m.state ≠ .running) : m.Counted p :=
  ⟨program, fun running => absurd running rests⟩

/-- A machine at the beginning of a node has counted nothing. -/
theorem of_begin {node : String} (program : m.program = some p) (frame : m.frame = some ⟨node, 0⟩)
    (pending : m.pending = []) : m.Counted p := by
  refine ⟨program, fun _ f node present _ => ?_⟩
  cases frame.symm.trans present
  rw [pending]
  rfl

theorem pop (counted : m.Counted p) : m.pop.2.Counted p := by
  unfold Machine.pop
  cases m.queue with
  | nil => exact counted
  | cons y rest => exact ⟨counted.program, counted.count⟩

theorem finish (program : m.program = some p) : m.finish.Counted p := .of_rest program nofun

theorem moveTo {target : String} (program : m.program = some p)
    (moved : m.moveTo target = .ok m') : m'.Counted p := by
  cases moveTo_eq moved
  exact .of_begin program rfl rfl

theorem enter {node : String} (program : m.program = some p) (entered : m.enter node = .ok m') :
    m'.Counted p := by
  obtain ⟨_, rfl⟩ := enter_eq entered
  exact .of_begin program rfl rfl

theorem choose {id : Nat} (program : m.program = some p) (chosen : m.choose id = .ok m') :
    m'.Counted p := by
  obtain ⟨_, m₁, moved, rfl⟩ := choose_eq chosen
  cases moveTo_eq moved
  exact .of_begin program rfl rfl

/-! ## Instructions -/

/-- Behind an instruction the check has counted it too. -/
theorem fetch {f : Frame} {node : Node} (counted : m.Counted p)
    (executing : m.Executing (i :: rest)) (present : m.advance.frame = some f)
    (found : p.find? f.node = some node) :
    Program.addedIn (node.instructions.take f.position) =
      Program.addedAfter m.pending.length i := by
  obtain ⟨g, frame, rfl⟩ := Option.map_eq_some_iff.mp present
  obtain ⟨p', g', node', program', frame', found', drop⟩ := remaining_eq_ok executing.rest
  cases program'.symm.trans counted.program
  cases frame'.symm.trans frame
  cases found'.symm.trans found
  have here : node.instructions[g.position]? = some i := by
    rw [← List.head?_drop, ← drop, List.head?_cons]
  rw [List.take_add_one, here, Option.toList_some, Program.addedIn_concat,
    ← counted.count executing.ready.state g node frame found]

/-- An instruction that leaves the options as the check counts them. -/
theorem advance (counted : m.Counted p) (executing : m.Executing (i :: rest))
    (same : Program.addedAfter m.pending.length i = m.pending.length) : m.advance.Counted p := by
  refine ⟨counted.program, fun _ f node present found => ?_⟩
  rw [counted.fetch executing present found, same]
  rfl

/-- An instruction after which the step goes on. Options are shown only where there are none, and
    the check counts none from there on. -/
theorem passes (counted : m.Counted p) (executing : m.Executing (i :: rest))
    (passes : m.Passes i m') : m'.Counted p := by
  cases passes with
  | addOption texts =>
    refine ⟨counted.program, fun _ f node present found => ?_⟩
    rw [counted.fetch executing present found]
    exact List.length_append
  | showOptions none => exact counted.advance executing (by rw [none]; rfl)
  | set | jumpIf => exact counted.advance executing rfl

/-- An instruction that ends the step. If options are shown, or the node is left, then nothing
    behind the instruction is carried out before another node is begun. -/
theorem ends (counted : m.Counted p) (executing : m.Executing (i :: rest)) (ends : m.Ends i r)
    (fine : ∀ e, r.1 ≠ .error e) : r.2.Counted p := by
  cases ends with
  | line | command => exact counted.advance executing rfl
  | showOptions => exact .of_rest counted.program nofun
  | jump jumps moved => exact (moveTo (m := m.advance) counted.program moved).pop
  | stop => exact (finish (m := m.advance) counted.program).pop
  | lost | failed => exact absurd rfl (fine _)

theorem executes (counted : m.Counted p) (executing : m.Executing is) (executes : m.Executes is r)
    (fine : ∀ e, r.1 ≠ .error e) : r.2.Counted p := by
  induction executes with
  | finish m => exact (finish counted.program).pop
  | pass passes _ ih =>
    exact ih (counted.passes executing passes) (executing.passes passes) fine
  | ends ends => exact counted.ends executing ends fine

/-- A step that does not fail. -/
theorem steps (counted : m.Counted p) (valid : m.Valid) (steps : m.Steps r)
    (fine : ∀ e, r.1 ≠ .error e) : r.2.Counted p := by
  cases steps with
  | queued waiting => exact counted.pop
  | awaiting | stopped | unplaced => exact counted
  | executes ready remaining executes =>
    exact counted.executes ⟨valid, ready, remaining⟩ executes fine

end Counted

/-- Whatever a machine is asked for that keeps its program, it has counted as the check does, unless
    the answer is an error. -/
theorem serve_counted (m : Machine) (request : Request) (keeps : request.keepsProgram = true)
    (valid : m.Valid) (counted : m.Counted p) :
    (m.serve request).All fun r => (∀ e, r.1 ≠ .error e) → r.2.Counted p := by
  cases request with
  | load | add | unload => cases keeps
  | enter node =>
    exact attempt_all (fun _ entered _ => .enter counted.program entered) fun _ _ _ => counted
  | next =>
    apply m.next_steps.bind
    intro r steps fine
    apply counted.steps valid steps
    obtain ⟨e | y, m'⟩ := r
    · exact absurd rfl (fine e)
    · exact nofun
  | choose id =>
    exact attempt_all (fun _ chosen _ => .choose counted.program chosen) fun _ _ _ => counted
  | stop => exact fun _ => .of_rest counted.program nofun

end Machine

def Feedback.isError : Feedback → Bool
  | .machine (.error _) => true
  | _ => false

namespace Bare

variable {p : Program} {b : Bare σ} {is : List Instruction} {deeds : List (Deed σ)}

/-- The machine is about to carry out the instruction, and has counted as the check does. -/
structure Counting (p : Program) (step : Bare σ × Instruction) : Prop where
  counted : step.1.machine.Counted p
  executing : ∃ rest, step.1.machine.Executing (step.2 :: rest)

theorem carry_counted (counted : b.machine.Counted p) (executing : b.machine.Executing is) :
    ∀ step ∈ b.carry is, Counting p step := by
  induction is generalizing b with
  | nil => exact fun _ none => absurd none List.not_mem_nil
  | cons i rest ih =>
    have here : Counting p (b, i) := ⟨counted, rest, executing⟩
    have performs : b.machine.Performs i ((b.perform i).1, (b.perform i).2.machine) :=
      (b.machine.perform_performs i).run b.store b.host
    rw [carry]
    -- only an instruction that hands nothing out is followed by another one
    split
    · rename_i b' performed
      rw [performed] at performs
      have passes : b.machine.Passes i b'.machine := by
        generalize hr : ((.ok none, b'.machine) : Machine.Reply × Machine) = r at performs
        cases performs with
        | passes passes =>
          cases hr
          exact passes
        | @ends r ends =>
          obtain ⟨e | y, m'⟩ := r <;> cases hr
      rw [List.forall_mem_cons]
      exact ⟨here, ih (counted.passes executing passes) (executing.passes passes)⟩
    · rw [List.forall_mem_singleton]
      exact here

/-- Each instruction of a deed is carried out by a machine that has counted as the check does. -/
theorem carried_counted (counted : b.machine.Counted p) (valid : b.machine.Valid) (d : Deed σ) :
    ∀ step ∈ b.carried d, Counting p step := by
  unfold carried
  split
  · split
    · rename_i queue state remaining
      exact carry_counted counted ⟨valid, ⟨state, queue⟩, remaining⟩
    · exact fun _ none => absurd none List.not_mem_nil
  · exact fun _ none => absurd none List.not_mem_nil

theorem take_counted (counted : b.machine.Counted p) (valid : b.machine.Valid) {d : Deed σ}
    (keeps : d.keepsProgram = true) (fine : (b.take d).1.isError = false) :
    (b.take d).2.machine.Counted p ∧ (b.take d).2.machine.Valid := by
  cases d with
  | change | read | host => exact ⟨counted, valid⟩
  | request request =>
    have served := (b.machine.serve_counted request keeps valid counted).run b.store b.host
    have kept := (b.machine.serve_valid request valid).run b.store b.host
    refine ⟨served fun e failed => ?_, kept⟩
    simp only [take, run, failed] at fine
    cases fine

theorem after_counted (counted : b.machine.Counted p) (valid : b.machine.Valid)
    (keep : ∀ d ∈ deeds, d.keepsProgram = true)
    (fine : ∀ r ∈ b.trace deeds, r.1.isError = false) :
    (b.after deeds).machine.Counted p ∧ (b.after deeds).machine.Valid := by
  induction deeds generalizing b with
  | nil => exact ⟨counted, valid⟩
  | cons d deeds ih =>
    obtain ⟨counted, valid⟩ :=
      take_counted counted valid (keep d List.mem_cons_self) (fine _ List.mem_cons_self)
    exact ih counted valid (fun d' h => keep d' (List.mem_cons_of_mem d h))
      fun r h => fine r (List.mem_cons_of_mem _ h)

/-! ## Warnings -/

theorem perform_showOptions (b : Bare σ) :
    (b.perform .showOptions).1 =
      if b.machine.pending = [] then .ok none else .ok (some (.choices ⟨b.machine.pending⟩)) := by
  by_cases none : b.machine.pending = []
  · have empty : b.machine.advance.pending.isEmpty = true := List.isEmpty_iff.mpr none
    simp only [perform, Machine.perform, empty, none, if_true]
    rfl
  · have filled : ¬ b.machine.advance.pending.isEmpty = true := fun h => none (List.isEmpty_iff.mp h)
    simp only [perform, Machine.perform, if_neg filled, if_neg none]
    rfl

/-- A dialogue is begun at any node of a program, and anything is done with it that keeps the
    program: steps, choices, changes of the variables, new beginnings. As long as no answer is an
    error, a step that comes to an instruction to show options passes it over if the check of the
    program warns that there are none, and shows options, at least one, if it does not.

    The instructions of a step are those that the machine executes. `Machine.perform` is what
    `Machine.execute` does with the first of its instructions, whatever comes next, and a step of a
    running machine carries out its instructions in turn, with the answer that the machine gives. -/
theorem skips_exact (p : Program) (start : String) {m m' : Machine} {node : String}
    (program : m.program = some p) (entered : m.enter node = .ok m') (store : Store σ) (host : σ)
    (deeds : List (Deed σ)) (keep : ∀ d ∈ deeds, d.keepsProgram = true)
    (fine : ∀ r ∈ trace ⟨m', store, host⟩ deeds, r.1.isError = false) :
    let b := after ⟨m', store, host⟩ deeds
    (∀ (m : Machine) (i : Instruction) (rest : List Instruction),
      m.execute (i :: rest) = (m.perform i).bind (Machine.resume rest)) ∧
    (∀ is, b.machine.queue = [] → b.machine.state = .running → b.machine.remaining = .ok is →
      ∃ r, b.Carries is (b.carried (.request .next)) r ∧ b.run b.machine.next = r ∧
        b.take (.request .next) = (.machine (r.1.map some), r.2)) ∧
    ∀ step ∈ b.carried (.request .next), step.2 = .showOptions →
      ∃ f n, step.1.machine.frame = some f ∧ p.find? f.node = some n ∧
        n.instructions[f.position]? = some .showOptions ∧
        ((step.1.perform .showOptions).1 = .ok none ↔
          p.emptyOptions f.node f.position ∈ p.check start) ∧
        ((∃ cs, cs.options ≠ [] ∧ (step.1.perform .showOptions).1 = .ok (some (.choices cs))) ↔
          p.emptyOptions f.node f.position ∉ p.check start) := by
  intro b
  refine ⟨Machine.execute_cons, fun is queue state remaining => ?_, ?_⟩
  · obtain ⟨next, carried⟩ := run_next queue state remaining
    rw [carried]
    exact ⟨_, carries_carry b is, next, by rw [take_next, next]⟩
  rintro ⟨b, i⟩ carried rfl
  obtain ⟨counted, valid⟩ := after_counted (b := ⟨m', store, host⟩)
    (.enter program entered) (Machine.enter_valid entered) keep fine
  obtain ⟨counted, rest, executing⟩ := carried_counted counted valid _ _ carried
  obtain ⟨p', f, n, program', frame, found, drop⟩ := Machine.remaining_eq_ok executing.rest
  cases program'.symm.trans counted.program
  have here : n.instructions[f.position]? = some .showOptions := by
    rw [← List.head?_drop, ← drop, List.head?_cons]
  have count := counted.count executing.ready.state f n frame found
  have warned : p.emptyOptions f.node f.position ∈ p.check start ↔ b.machine.pending = [] := by
    rw [Program.mem_check_emptyOptions, ← List.length_eq_zero_iff, count]
    constructor
    · rintro ⟨n', found', _, none⟩
      cases found'.symm.trans found
      exact none
    · exact fun none => ⟨n, found, here, none⟩
  refine ⟨f, n, frame, found, here, ?_, ?_⟩
  · rw [warned, perform_showOptions]
    exact ⟨fun same => by_contra fun some => by simp [if_neg some] at same, fun none => if_pos none⟩
  · rw [warned, perform_showOptions]
    constructor
    · rintro ⟨cs, _, shown⟩ none
      rw [if_pos none] at shown
      cases shown
    · intro some
      exact ⟨⟨b.machine.pending⟩, some, if_neg some⟩

/-- A node that shows options twice, and adds one in between. -/
def belated : List Instruction :=
  [.showOptions, .jumpIf "gone" "Start", .addOption "a" [] "Start", .showOptions]

/-- The first time nothing is shown, and the second time the option is. -/
theorem skips_exact_belated :
    let p : Program := .ofNode "Start" belated
    let deeds : List (Deed Unit) := [.request .next, .change (.set "x" (.bool true))]
    ∃ m', (Machine.empty.load p).enter "Start" = .ok m' ∧
      (∀ d ∈ deeds, d.keepsProgram = true) ∧
      (∀ r ∈ trace ⟨m', .memory .empty, ()⟩ deeds, r.1.isError = false) ∧
      ((after ⟨m', .memory .empty, ()⟩ deeds).carried (.request .next)).map (·.2) = belated ∧
      (∃ r, (after ⟨m', .memory .empty, ()⟩ deeds).Carries belated
        ((after ⟨m', .memory .empty, ()⟩ deeds).carried (.request .next)) r) ∧
      ∀ step ∈ (after ⟨m', .memory .empty, ()⟩ deeds).carried (.request .next),
        step.2 = .showOptions →
        ∃ f n, step.1.machine.frame = some f ∧ p.find? f.node = some n ∧
          n.instructions[f.position]? = some .showOptions ∧
          ((step.1.perform .showOptions).1 = .ok none ↔
            p.emptyOptions f.node f.position ∈ p.check "Start") ∧
          ((∃ cs, cs.options ≠ [] ∧ (step.1.perform .showOptions).1 = .ok (some (.choices cs))) ↔
            p.emptyOptions f.node f.position ∉ p.check "Start") := by
  intro p deeds
  have entered : (Machine.empty.load p).enter "Start" = .ok _ := rfl
  have keep : ∀ d ∈ deeds, d.keepsProgram = true := by decide
  obtain ⟨-, executes, skips⟩ := skips_exact p "Start" rfl entered (.memory .empty) () deeds keep
    (by decide)
  obtain ⟨r, carries, -⟩ := executes belated rfl rfl rfl
  exact ⟨_, entered, keep, by decide, rfl, ⟨r, carries⟩, skips⟩

end Bare

end DialogueEngine
