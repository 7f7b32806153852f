import DialogueEngine.Proofs.Machine.Linking
import DialogueEngine.Proofs.Program.Paths

/-! # The nodes that a machine begins

A machine goes only where instructions of its program lead to, so that every node it begins lies on
a path from the node it was started at. A node that the check warns of is never begun.

* `Machine.Places` — the names that a machine holds: of its node, its options and its queue.
* `Machine.Places.steps`, `Machine.serve_places` — a step, and any request that starts nothing new.
* `Program.unreachable_exact` — what is warned of, and what runs begin.
-/

namespace DialogueEngine

namespace Machine

/-- The machine has a program, and every name by which it finds a node has a property. -/
structure Places (p : Program) (Q : String → Prop) (m : Machine) : Prop where
  program : m.program = some p
  placed : ∀ f, m.frame = some f → Q f.node
  pending : ∀ c ∈ m.pending, Q c.destination
  offered : ∀ cs, m.offered = some cs → ∀ c ∈ cs.options, Q c.destination
  queued : ∀ node, .nodeStart node ∈ m.queue → Q node

/-- The step begins no node without the property, and ends in a machine that has places. -/
def Begins (p : Program) (Q : String → Prop) (r : Stepped) : Prop :=
  (∀ node, r.1 = .ok (.nodeStart node) → Q node) ∧ r.2.Places p Q

variable {p : Program} {Q : String → Prop} {m m' : Machine} {i : Instruction}
  {is : List Instruction} {r : Stepped} {target : String}

theorem places_stop (program : m.program = some p) : m.stop.Places p Q :=
  ⟨program, nofun, nofun, nofun, nofun⟩

namespace Places

theorem enter {node : String} (program : m.program = some p) (here : Q node)
    (entered : m.enter node = .ok m') : m'.Places p Q := by
  obtain ⟨_, rfl⟩ := enter_eq entered
  refine ⟨program, ?_, nofun, nofun, ?_⟩
  · intro f present
    cases present
    exact here
  · simp [here]

theorem advance (places : m.Places p Q) : m.advance.Places p Q := by
  refine ⟨places.program, ?_, places.pending, places.offered, places.queued⟩
  intro f present
  obtain ⟨g, there, rfl⟩ := Option.map_eq_some_iff.mp present
  exact places.placed g there

theorem addChoice (places : m.Places p Q) (line : Line) (here : Q target) :
    (m.addChoice line target).Places p Q := by
  refine ⟨places.program, places.placed, ?_, places.offered, places.queued⟩
  intro c hc
  rcases List.mem_append.mp hc with hc | hc
  · exact places.pending c hc
  · cases List.mem_singleton.mp hc
    exact here

theorem offer (places : m.Places p Q) : m.offer.Places p Q := by
  refine ⟨places.program, places.placed, nofun, ?_, places.queued⟩
  intro cs shown
  cases shown
  exact places.pending

/-- The end of a node begins none. -/
theorem not_begun (node : String) : Yield.nodeStart node ∉ m.leaving := by
  unfold leaving
  cases m.frame <;> simp

theorem finish (places : m.Places p Q) : m.finish.Places p Q := by
  refine ⟨places.program, nofun, nofun, places.offered, ?_⟩
  intro node waiting
  simp only [Machine.finish, List.mem_append, List.mem_singleton, not_begun, or_false,
    reduceCtorEq] at waiting
  exact places.queued node waiting

theorem moveTo (places : m.Places p Q) (here : Q target) (moved : m.moveTo target = .ok m') :
    m'.Places p Q := by
  rw [moveTo_eq moved]
  refine ⟨places.program, ?_, nofun, places.offered, ?_⟩
  · intro f present
    cases present
    exact here
  · intro node waiting
    simp only [List.mem_append, List.mem_singleton, not_begun, or_false,
      Yield.nodeStart.injEq] at waiting
    rcases waiting with waiting | rfl
    · exact places.queued node waiting
    · exact here

theorem pop (places : m.Places p Q) : Begins p Q (.ok m.pop.1, m.pop.2) := by
  unfold Machine.pop
  cases queue : m.queue with
  | nil => exact ⟨nofun, places⟩
  | cons y rest =>
    have first (node : String) (hy : y = .nodeStart node) : Q node :=
      places.queued node (by simp [queue, hy])
    refine ⟨fun node begun => first node (Except.ok.inj begun), places.program, places.placed,
      places.pending, places.offered, ?_⟩
    intro node waiting
    apply places.queued
    rw [queue]
    exact List.mem_cons_of_mem _ waiting

theorem choose {id : Nat} (places : m.Places p Q) (chosen : m.choose id = .ok m') :
    m'.Places p Q := by
  obtain ⟨_, cs, c, m₁, offered, found, moved, rfl⟩ := choose_eq_ok chosen
  have here := places.offered cs offered c (List.mem_of_find?_eq_some found)
  have arrived := places.moveTo here moved
  exact ⟨arrived.program, arrived.placed, arrived.pending, nofun, arrived.queued⟩

/-! ## A step -/

theorem passes (places : m.Places p Q) (leads : ∀ target, i.target? = some target → Q target)
    (passes : m.Passes i m') : m'.Places p Q := by
  cases passes with
  | addOption texts => exact places.advance.addChoice _ (leads _ rfl)
  | showOptions | set | jumpIf => exact places.advance

theorem ends (places : m.Places p Q) (leads : ∀ target, i.target? = some target → Q target)
    (ends : m.Ends i r) : Begins p Q r := by
  cases ends with
  | line | command | lost | failed => exact ⟨nofun, places.advance⟩
  | showOptions => exact ⟨nofun, places.advance.offer⟩
  | jump jumps moved =>
    exact (places.advance.moveTo (leads _ jumps.target?) moved).pop
  | stop => exact places.advance.finish.pop

theorem executes (places : m.Places p Q)
    (leads : ∀ i ∈ is, ∀ target, i.target? = some target → Q target)
    (executes : m.Executes is r) : Begins p Q r := by
  induction executes with
  | finish m => exact places.finish.pop
  | pass passes _ ih =>
    apply ih (places.passes (leads _ List.mem_cons_self) passes)
    exact fun i hi => leads i (List.mem_cons_of_mem _ hi)
  | ends ends => exact places.ends (leads _ List.mem_cons_self) ends

/-- Where instructions lead from names with a property to such names, so does a step. -/
theorem steps (places : m.Places p Q) (leads : ∀ a b, Q a → p.LeadsTo a b → Q b)
    (steps : m.Steps r) : Begins p Q r := by
  cases steps with
  | queued waiting => exact places.pop
  | awaiting | stopped | unplaced => exact ⟨nofun, places⟩
  | executes ready remaining executes =>
    obtain ⟨p', f, node, program, frame, found, rfl⟩ := remaining_eq_ok remaining
    cases program.symm.trans places.program
    apply places.executes _ executes
    intro i hi target there
    exact leads f.node target (places.placed f frame)
      ⟨node, found, i, List.mem_of_mem_drop hi, there⟩

end Places

/-! ## Runs -/

/-- The request goes on with a run, or begins it anew at the same node. -/
def Request.GoesOn (start : String) : Request → Prop
  | .next | .choose _ | .stop => True
  | .enter node => node = start
  | _ => False

theorem serve_places {start : String} (leads : ∀ a b, Q a → p.LeadsTo a b → Q b) (here : Q start)
    (m : Machine) (request : Request) (goesOn : request.GoesOn start) (places : m.Places p Q) :
    (m.serve request).All fun r =>
      (∀ node, r.1 = .ok (some (.nodeStart node)) → Q node) ∧ r.2.Places p Q := by
  cases request with
  | load | add | unload => cases goesOn
  | enter node =>
    cases goesOn
    apply attempt_all
    · exact fun m' entered => ⟨nofun, .enter places.program here entered⟩
    · exact fun _ _ => ⟨nofun, places⟩
  | next =>
    apply m.next_steps.bind
    intro r steps
    have begins := places.steps leads steps
    refine ⟨fun node begun => begins.1 node ?_, begins.2⟩
    obtain ⟨e | y, m'⟩ := r
    · cases begun
    · cases begun
      rfl
  | choose id =>
    apply attempt_all
    · exact fun m' chosen => ⟨nofun, places.choose chosen⟩
    · exact fun _ _ => ⟨nofun, places⟩
  | stop => exact ⟨nofun, places_stop places.program⟩

end Machine

/-- The search for reachable nodes comes to its end. The check of a program warns of a node exactly
    if no path leads to it from the start node; and whatever the store answers, whatever is chosen
    and whatever fails, a run from the start node never begins a node that is warned of. -/
theorem Program.unreachable_exact (p : Program) {start : String}
    (defined : p.defines start = true) :
    (∃ rounds, p.look^[rounds] ([], [start]) = (p.reachable start, [])) ∧
    (∀ name ∈ p.names, p.unreachable name ∈ p.check start ↔ ¬ p.Path start name) ∧
    ∀ name, p.unreachable name ∈ p.check start →
      ∀ m m' : Machine, m.program = some p → m.enter start = .ok m' →
      ∀ requests : List Machine.Request, (∀ request ∈ requests, request.GoesOn start) →
        (m'.serveAll requests).All fun r => .ok (some (.nodeStart name)) ∉ r.1 := by
  refine ⟨p.look_rounds [] [start], fun name here => ?_, ?_⟩
  · rw [mem_check_unreachable defined]
    exact and_iff_right here
  · intro name warned m m' program entered requests goOn
    have lost := ((mem_check_unreachable defined).mp warned).2
    have leads (a b : String) (path : p.Path start a) (on : p.LeadsTo a b) : p.Path start b :=
      path.tail on
    have places := Machine.Places.enter (Q := p.Path start) program .refl entered
    have served := Machine.serveAll_all
      (A := fun reply => ∀ node, reply = .ok (some (.nodeStart node)) → p.Path start node)
      (Machine.serve_places leads .refl) places requests goOn
    apply served.imp
    intro r told begun
    exact lost (told.1 _ begun name rfl)

/-- A node that leads round to itself and to a missing node, and one that leads there but is led to
    from nowhere. -/
def Program.orphaned : Program :=
  ⟨"p", Dict.ofList [("Orphan", ⟨[], [.runNode "Start"]⟩),
    ("Start", ⟨[], [.jumpIf "gone" "Missing", .addOption "again" [] "Start", .showOptions]⟩)]⟩

theorem Program.unreachable_exact_orphaned :
    let requests : List Machine.Request := [.next, .next, .choose 0, .next, .enter "Start", .next]
    orphaned.defines "Start" = true ∧ orphaned.unreachable "Orphan" ∈ orphaned.check "Start" ∧
      ∃ m, (Machine.empty.load orphaned).enter "Start" = .ok m ∧
        (m.serveAll requests).All fun r => .ok (some (.nodeStart "Orphan")) ∉ r.1 := by
  intro requests
  have defined : orphaned.defines "Start" = true := rfl
  have here : "Orphan" ∈ orphaned.names := by decide
  have leads : orphaned.successors "Start" = ["Missing", "Start"] := rfl
  have ends : orphaned.successors "Missing" = [] := rfl
  have found : orphaned.reachable "Start" = ["Missing", "Start"] := by
    simp [reachable, visit_new, visit_old, visit_nil, leads, ends]
  have lost : ¬ orphaned.Path "Start" "Orphan" := by
    rw [← mem_reachable, found]
    decide
  obtain ⟨_, warns, never⟩ := unreachable_exact orphaned defined
  have warned := (warns "Orphan" here).mpr lost
  have entered : (Machine.empty.load orphaned).enter "Start" = .ok _ := rfl
  refine ⟨defined, warned, _, entered, never "Orphan" warned _ _ rfl entered requests ?_⟩
  simp [requests, Machine.Request.GoesOn]

end DialogueEngine
