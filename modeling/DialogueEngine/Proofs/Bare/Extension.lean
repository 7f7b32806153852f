import DialogueEngine.Proofs.Bare.Deeds

/-! # Programs that grow while they are played

A dialogue goes on as before when nodes are added to its program, at whatever point this is done,
unless it has told of an unknown node. It is the same dialogue that a program with these nodes
plays from the beginning. A program that shares a node with the one that is there is refused, and
nothing comes of it.

* `Access.Mirrors` — two computations that do the same on every store.
* `Machine.serve_mirrors` — what a machine is asked for in a larger program.
* `Bare.trace_withProgram` — deeds in a larger program.
* `Bare.trace_add` — deeds around an addition.
-/

namespace DialogueEngine

variable {σ α β : Type}

/-! ## Computations that do the same -/

namespace Access

/-- The second computation asks the store for the same as the first one, and has the same result up
    to a change of it. Where the first one loses its way the second one may do anything. -/
inductive Mirrors (lost : α → Prop) (change : α → α) : Access α → Access α → Prop
  | done (a : α) : Mirrors lost change (.done a) (.done (change a))
  | lost {a : α} (gone : lost a) (y : Access α) : Mirrors lost change (.done a) y
  | read {name : String} {k k' : Except CapabilityError (Option Value) → Access α}
    (mirrors : ∀ r, Mirrors lost change (k r) (k' r)) :
    Mirrors lost change (.read name k) (.read name k')
  | write {name : String} {value : Value} {k k' : Except CapabilityError Unit → Access α}
    (mirrors : ∀ r, Mirrors lost change (k r) (k' r)) :
    Mirrors lost change (.write name value k) (.write name value k')

namespace Mirrors

variable {lost : α → Prop} {change : α → α} {x y : Access α}

/-- Computations that begin alike do the same if they go on so. -/
theorem after (z : Access β) {f g : β → Access α} (mirrors : ∀ b, Mirrors lost change (f b) (g b)) :
    Mirrors lost change (z.bind f) (z.bind g) := by
  induction z with
  | done b => exact mirrors b
  | read name k ih => exact .read ih
  | write name value k ih => exact .write ih

theorem bind {lost' : β → Prop} {change' : β → β} (mirrors : Mirrors lost change x y)
    {f : α → Access β} (goes : ∀ a, Mirrors lost' change' (f a) (f (change a)))
    (ends : ∀ a, lost a → ∃ b, f a = .done b ∧ lost' b) :
    Mirrors lost' change' (x.bind f) (y.bind f) := by
  induction mirrors with
  | done a => exact goes a
  | lost gone y =>
    obtain ⟨b, finished, gone⟩ := ends _ gone
    change Mirrors lost' change' (f _) _
    rw [finished]
    exact .lost gone _
  | read _ ih => exact .read ih
  | write _ ih => exact .write ih

/-- On the same store they leave the same store behind. -/
theorem run (mirrors : Mirrors lost change x y) (store : Store σ) (host : σ) :
    lost (x.run store host).1 ∨
      y.run store host = (change (x.run store host).1, (x.run store host).2) := by
  induction mirrors generalizing store host with
  | done a => exact .inr rfl
  | lost gone y => exact .inl gone
  | read _ ih =>
    rw [run_read, run_read]
    exact ih _ _ _
  | write _ ih =>
    rw [run_write, run_write]
    exact ih _ _ _

end Mirrors

end Access

/-! ## Machines in a larger program -/

/-- The answer tells that a node is unknown. -/
def Feedback.isLost : Feedback → Bool
  | .machine (.error (.runtime (.unknownNode _))) => true
  | _ => false

namespace Machine

/-- The machine in another program, at the same place. -/
def withProgram (m : Machine) (p : Program) : Machine := { m with program := some p }

/-- At the beginning this is the machine that has loaded the other program. -/
example (m : Machine) (p q : Program) : (m.load p).withProgram q = m.load q := rfl

def inProgram (p : Program) (r : α × Machine) : α × Machine := (r.1, r.2.withProgram p)

/-- The answer tells that a node is unknown. -/
def Lost (r : Except EngineError α × Machine) : Prop :=
  ∃ node, r.1 = .error (.runtime (.unknownNode node))

variable {m m' : Machine} {p q : Program} {target : String}

@[simp] theorem withProgram_state (m : Machine) (q : Program) :
    (m.withProgram q).state = m.state := rfl

@[simp] theorem withProgram_offered (m : Machine) (q : Program) :
    (m.withProgram q).offered = m.offered := rfl

@[simp] theorem withProgram_queue (m : Machine) (q : Program) :
    (m.withProgram q).queue = m.queue := rfl

theorem lost_unknownNode (m : Machine) (node : String) :
    Lost ((.error (.runtime (.unknownNode node)), m) : Except EngineError α × Machine) :=
  ⟨node, rfl⟩

theorem pop_withProgram (m : Machine) (q : Program) :
    (m.withProgram q).pop = inProgram q m.pop := by
  obtain ⟨program, frame, state, pending, offered, queue⟩ := m
  cases queue <;> rfl

/-- The second attempt comes to the same in another program, unless the first one finds a node
    unknown. -/
def Follows (q : Program) (r r' : Except RuntimeError Machine) : Prop :=
  (∃ node, r = .error (.unknownNode node)) ∨ r' = r.map fun m => m.withProgram q

theorem moveTo_follows (loaded : m.program = some p) (more : q.Extends p) (target : String) :
    Follows q (m.moveTo target) ((m.withProgram q).moveTo target) := by
  by_cases defined : p.defines target = true
  · refine .inr ?_
    simp [moveTo, defines, withProgram, loaded, defined, more.defines defined, Except.map, leaving]
  · exact .inl ⟨target, by simp [moveTo, defines, loaded, defined]⟩

theorem enter_follows (loaded : m.program = some p) (more : q.Extends p) (node : String) :
    Follows q (m.enter node) ((m.withProgram q).enter node) := by
  by_cases defined : p.defines node = true
  · refine .inr ?_
    simp [enter, withProgram, loaded, defined, more.defines defined, Except.map, stop]
  · exact .inl ⟨node, by simp [enter, loaded, defined]⟩

theorem choose_follows (loaded : m.program = some p) (more : q.Extends p) (id : Nat) :
    Follows q (m.choose id) ((m.withProgram q).choose id) := by
  by_cases awaiting : m.state = .awaitingChoice
  · cases found : m.offered.bind (·.find? id) with
    | none => exact .inr (by simp [choose, awaiting, found, Except.map])
    | some c =>
      rcases moveTo_follows loaded more c.destination with ⟨node, unknown⟩ | same
      · exact .inl ⟨node, by simp [choose, awaiting, found, unknown, Except.map]⟩
      · refine .inr ?_
        simp only [choose, withProgram_state, withProgram_offered, awaiting, if_true, found, same]
        cases m.moveTo c.destination <;> rfl
  · exact .inr (by simp [choose, awaiting, Except.map])

/-- Two computations of a machine, the second one in a larger program. -/
abbrev Mirrors (q : Program) (x y : Access (Except EngineError α × Machine)) : Prop :=
  Access.Mirrors Lost (inProgram q) x y

theorem jump_mirrors (loaded : m.program = some p) (more : q.Extends p) (target : String) :
    Mirrors q (m.jump target) ((m.withProgram q).jump target) := by
  unfold jump
  rcases moveTo_follows loaded more target with ⟨node, unknown⟩ | same
  · rw [unknown]
    exact .lost (lost_unknownNode m node) _
  · rw [same]
    cases m.moveTo target with
    | error e => exact .done _
    | ok m' =>
      dsimp only [Except.map, yieldQueued]
      rw [pop_withProgram]
      exact .done _

theorem finish_mirrors (m : Machine) (q : Program) :
    Mirrors q m.finish.yieldQueued (m.withProgram q).finish.yieldQueued := by
  unfold yieldQueued
  rw [show (m.withProgram q).finish = m.finish.withProgram q from rfl, pop_withProgram]
  exact .done _

theorem execute_mirrors (loaded : m.program = some p) (more : q.Extends p)
    (is : List Instruction) : Mirrors q (m.execute is) ((m.withProgram q).execute is) := by
  induction is generalizing m with
  | nil => exact finish_mirrors m q
  | cons i rest ih =>
    -- fetching an instruction leaves the program alone
    have fetched : m.advance.program = some p := loaded
    cases i with
    | line id substitutions =>
      refine .after _ fun r => ?_
      cases r <;> exact .done _
    | addOption id substitutions destination =>
      refine .after _ fun r => ?_
      cases r with
      | error e => exact .done _
      | ok ts => exact ih (m := m.advance.addChoice ⟨id, ts⟩ destination) loaded
    | showOptions =>
      by_cases none : m.advance.pending.isEmpty = true
      · have none' : (m.withProgram q).advance.pending.isEmpty = true := none
        simp only [execute, if_pos none, if_pos none']
        exact ih fetched
      · have some : ¬ (m.withProgram q).advance.pending.isEmpty = true := none
        simp only [execute, if_neg none, if_neg some]
        exact .done _
    | command text => exact .done _
    | set name operand =>
      refine .after _ fun r => ?_
      cases r with
      | error e => exact .done _
      | ok value =>
        refine .write fun r => ?_
        cases r with
        | error e => exact .done _
        | ok u => exact ih fetched
    | jumpIf name node =>
      refine .read fun r => ?_
      cases r with
      | error e => exact .done _
      | ok flag =>
        dsimp only
        split
        · exact jump_mirrors fetched more node
        · exact ih fetched
    | runNode node => exact jump_mirrors fetched more node
    | stop => exact finish_mirrors m.advance q

/-- The rest of the present node is the same in a larger program. -/
theorem remaining_withProgram (loaded : m.program = some p) (more : q.Extends p) :
    (∃ node, m.remaining = .error (.unknownNode node)) ∨
      (m.withProgram q).remaining = m.remaining := by
  cases frame : m.frame with
  | none => exact .inr (by simp [remaining, withProgram, loaded, frame])
  | some f =>
    cases found : p.find? f.node with
    | none => exact .inl ⟨f.node, by simp [remaining, loaded, frame, found]⟩
    | some node =>
      exact .inr (by simp [remaining, withProgram, loaded, frame, found, more _ _ found])

theorem next_mirrors (loaded : m.program = some p) (more : q.Extends p) :
    Mirrors q m.next (m.withProgram q).next := by
  by_cases empty : m.queue.isEmpty = true
  · simp only [next, withProgram_queue, withProgram_state, empty, if_true]
    cases m.state with
    | awaitingChoice => exact .done _
    | stopped => exact .done _
    | running =>
      dsimp only
      rcases remaining_withProgram loaded more with ⟨node, unknown⟩ | same
      · rw [unknown]
        exact .lost (lost_unknownNode m node) _
      · rw [same]
        cases m.remaining with
        | error e => exact .done _
        | ok is => exact execute_mirrors loaded more is
  · rw [next, next, withProgram_queue, if_neg empty, if_neg empty]
    unfold yieldQueued
    rw [pop_withProgram]
    exact .done _

/-! ## Requests -/

/-- The request leaves the program alone. -/
def Request.keepsProgram : Request → Bool
  | .load _ | .add _ | .unload => false
  | .enter _ | .next | .choose _ | .stop => true

theorem attempt_mirrors {r r' : Except RuntimeError Machine} (m : Machine) (follows : Follows q r r') :
    Mirrors q (m.attempt .runtime r) ((m.withProgram q).attempt .runtime r') := by
  rcases follows with ⟨node, rfl⟩ | rfl
  · exact .lost (lost_unknownNode m node) _
  · cases r <;> exact .done _

theorem serve_mirrors (loaded : m.program = some p) (more : q.Extends p) {request : Request}
    (keeps : request.keepsProgram = true) :
    Mirrors q (m.serve request) ((m.withProgram q).serve request) := by
  cases request with
  | load | add | unload => cases keeps
  | enter node => exact attempt_mirrors m (enter_follows loaded more node)
  | next =>
    refine (next_mirrors loaded more).bind (fun _ => .done _) fun r lost => ⟨_, rfl, ?_⟩
    obtain ⟨node, failed⟩ := lost
    exact ⟨node, by rw [failed]; rfl⟩
  | choose id => exact attempt_mirrors m (choose_follows loaded more id)
  | stop => exact .done _

/-! ### The program that is left behind -/

theorem pop_program (m : Machine) : m.pop.2.program = m.program := by
  unfold pop
  split <;> rfl

theorem Executes.program {is : List Instruction} {r : Stepped} (executes : m.Executes is r) :
    r.2.program = m.program := by
  induction executes with
  | finish m => exact pop_program m.finish
  | pass passes _ ih =>
    cases passes with
    | _ => exact ih
  | ends ends =>
    cases ends with
    | jump _ moved =>
      cases moveTo_eq moved
      exact pop_program _
    | stop => exact pop_program _
    | _ => rfl

theorem Steps.program {r : Stepped} (steps : m.Steps r) : r.2.program = m.program := by
  cases steps with
  | queued waiting => exact pop_program m
  | executes ready remaining executes => exact executes.program
  | _ => rfl

theorem serve_program {request : Request} (m : Machine) (keeps : request.keepsProgram = true) :
    (m.serve request).All fun r => r.2.program = m.program := by
  cases request with
  | load | add | unload => cases keeps
  | enter node =>
    refine attempt_all (fun m' entered => ?_) fun _ _ => rfl
    obtain ⟨_, rfl⟩ := enter_eq entered
    rfl
  | next => exact m.next_steps.bind fun r steps => steps.program
  | choose id =>
    refine attempt_all (fun m' chosen => ?_) fun _ _ => rfl
    obtain ⟨_, _, _, _, _, _, moved, rfl⟩ := choose_eq_ok chosen
    rw [moveTo_eq moved]
  | stop => exact rfl

end Machine

/-! ## Deeds -/

def Deed.keepsProgram : Deed σ → Bool
  | .request asked => asked.keepsProgram
  | .change _ | .read _ | .host _ => true

namespace Bare

def withProgram (b : Bare σ) (p : Program) : Bare σ := ⟨b.machine.withProgram p, b.store, b.host⟩

def inProgram (p : Program) (r : α × Bare σ) : α × Bare σ := (r.1, r.2.withProgram p)

variable {b : Bare σ} {p q : Program} {d : Deed σ} {deeds : List (Deed σ)}

theorem take_program (b : Bare σ) (keeps : d.keepsProgram = true) :
    (b.take d).2.machine.program = b.machine.program := by
  cases d with
  | request request => exact (b.machine.serve_program keeps).run b.store b.host
  | change change => rfl
  | read name => rfl
  | host f => rfl

theorem after_program (b : Bare σ) (keep : ∀ d ∈ deeds, d.keepsProgram = true) :
    (b.after deeds).machine.program = b.machine.program := by
  induction deeds generalizing b with
  | nil => rfl
  | cons d deeds ih =>
    have rest := ih (b.take d).2 fun d' h => keep d' (List.mem_cons_of_mem d h)
    exact rest.trans (b.take_program (keep d List.mem_cons_self))

theorem take_withProgram (loaded : b.machine.program = some p) (more : q.Extends p)
    (keeps : d.keepsProgram = true) (found : (b.take d).1.isLost = false) :
    (b.withProgram q).take d = inProgram q (b.take d) := by
  cases d with
  | request request =>
    rcases (Machine.serve_mirrors loaded more keeps).run b.store b.host with ⟨node, lost⟩ | same
    · simp only [take, run, lost] at found
      cases found
    · simp only [take, run, withProgram, same]
      rfl
  | change change => rfl
  | read name => rfl
  | host f => rfl

/-- Unless an answer tells that a node is unknown, the answers are the same in a larger program,
    and so are the states after them. -/
theorem trace_withProgram (loaded : b.machine.program = some p) (more : q.Extends p)
    (keep : ∀ d ∈ deeds, d.keepsProgram = true) (found : ∀ r ∈ b.trace deeds, r.1.isLost = false) :
    (b.withProgram q).trace deeds = (b.trace deeds).map (inProgram q) := by
  induction deeds generalizing b with
  | nil => rfl
  | cons d deeds ih =>
    have keeps := keep d List.mem_cons_self
    have one := take_withProgram loaded more keeps (found _ List.mem_cons_self)
    have rest := ih ((b.take_program keeps).trans loaded)
      (fun d' h => keep d' (List.mem_cons_of_mem d h))
      fun r h => found r (List.mem_cons_of_mem _ h)
    rw [trace, one]
    exact congrArg _ rest

end Bare

/-! ## Additions -/

namespace Program

variable {p q both : Program}

/-- Two programs put together from the beginning are the one with the other added, but for the
    name. -/
theorem combine_pair (merged : p.merge q = .ok both) :
    ∃ name, combine [p, q] = .ok { both with name := name } := by
  have first : empty.merge p = .ok { p with name := "" } := by
    have none : p.names.find? empty.defines = none :=
      List.find?_eq_none.mpr fun node _ => Bool.false_ne_true
    rw [merge, none]
    exact congrArg Except.ok (congrArg (Program.mk "") (Dict.ofList_entries p.nodes))
  have second : { p with name := "" }.merge q = .ok { both with name := "" } := by
    have same : { p with name := "" }.defines = p.defines := rfl
    rw [merge] at merged ⊢
    rw [same]
    cases shared : q.names.find? p.defines with
    | some node =>
      rw [shared] at merged
      cases merged
    | none =>
      rw [shared] at merged
      cases merged
      rfl
  refine ⟨"+".intercalate (([p, q].map (·.name)).filter (· ≠ "")), ?_⟩
  unfold combine
  rw [List.foldlM_cons, first]
  change ((({ p with name := "" }.merge q).bind fun r => .ok r).map _) = _
  rw [second]
  rfl

end Program

namespace Bare

/-- Anything is done with a machine in a program, and no answer tells that a node is unknown. If
    another program, without a common node, is added at any point then this succeeds, all answers
    before and after it are the same as without it, and so are all states but for the program. The
    same holds if the two are put together before anything is done. A program with a common node is
    refused, and then everything goes on as if it had not been added. -/
theorem trace_add {b : Bare σ} {p : Program} (loaded : b.machine.program = some p) (q : Program)
    (before after : List (Deed σ)) (keep : ∀ d ∈ before ++ after, d.keepsProgram = true) :
    ((∀ node, p.defines node = true → q.defines node = false) →
      (∀ r ∈ b.trace (before ++ after), r.1.isLost = false) →
      ∃ both joint, p.merge q = .ok both ∧ Program.combine [p, q] = .ok joint ∧
        b.trace (before ++ .request (.add q) :: after) =
          b.trace before ++ (.machine (.ok none), (b.after before).withProgram both) ::
            ((b.after before).trace after).map (inProgram both) ∧
        (b.withProgram joint).trace (before ++ after) =
          (b.trace (before ++ after)).map (inProgram joint)) ∧
    (∀ node, p.defines node = true → q.defines node = true →
      ∃ shared, p.defines shared = true ∧ q.defines shared = true ∧
        b.trace (before ++ .request (.add q) :: after) =
          b.trace before ++ (.machine (.error (.program (.nodeConflict shared))), b.after before) ::
            (b.after before).trace after) := by
  have there : (b.after before).machine.program = some p :=
    (b.after_program fun d h => keep d (List.mem_append_left _ h)).trans loaded
  -- what comes of the addition, by what comes of putting the programs together
  have added {both} (merged : p.merge q = .ok both) :
      (b.after before).take (.request (.add q)) =
        (.machine (.ok none), (b.after before).withProgram both) := by
    simp only [take, Machine.serve, Machine.add, there, merged]
    rfl
  have refused {e} (conflict : p.merge q = .error e) :
      (b.after before).take (.request (.add q)) =
        (.machine (.error (.program e)), b.after before) := by
    simp only [take, Machine.serve, Machine.add, there, conflict]
    rfl
  refine ⟨fun disjoint found => ?_, fun node defined defined' => ?_⟩
  · rcases Program.merge_cases p q with ⟨_, both, merged⟩ | ⟨node, defined, defined', _⟩
    · obtain ⟨name, joined⟩ := Program.combine_pair merged
      have more := Program.merge_extends merged
      refine ⟨both, { both with name := name }, merged, joined, ?_, ?_⟩
      · rw [trace_append, trace, added merged]
        refine congrArg _ (congrArg _ (trace_withProgram there more ?_ ?_))
        · exact fun d h => keep d (List.mem_append_right _ h)
        · rw [trace_append] at found
          exact fun r h => found r (List.mem_append_right _ h)
      · exact trace_withProgram loaded more keep found
    · rw [disjoint node defined] at defined'
      cases defined'
  · rcases Program.merge_cases p q with ⟨disjoint, _⟩ | ⟨shared, known, known', conflict⟩
    · rw [disjoint node defined] at defined'
      cases defined'
    · exact ⟨shared, known, known', by rw [trace_append, trace, refused conflict]⟩

/-- A node that offers itself, with another node added while the option is pending. -/
theorem trace_add_offering :
    let p : Program := .ofNode "Start" [.addOption "a" [] "Start", .showOptions]
    let q : Program := .ofNode "More" [.stop]
    let b : Bare Unit := ⟨Machine.empty.load p, .memory .empty, ()⟩
    let before := [.request (.enter "Start"), .request .next, .request .next]
    let after := [.change (.set "x" (.bool true)), .request (.choose 0), .request .next]
    ∃ both joint, p.merge q = .ok both ∧ Program.combine [p, q] = .ok joint ∧
      b.trace (before ++ .request (.add q) :: after) =
        b.trace before ++ (.machine (.ok none), (b.after before).withProgram both) ::
          ((b.after before).trace after).map (inProgram both) ∧
      (b.withProgram joint).trace (before ++ after) =
        (b.trace (before ++ after)).map (inProgram joint) := by
  intro p q b before after
  have disjoint : ∀ node, p.defines node = true → q.defines node = false := by
    intro node defined
    have named : node ∈ ["Start"] := Program.mem_names.mpr defined
    obtain rfl := List.mem_singleton.mp named
    rfl
  exact (trace_add rfl q before after (by decide)).1 disjoint (by decide)

end Bare

end DialogueEngine
