import DialogueEngine.Presenter.Queue
import DialogueEngine.Proofs.Bare.Instructions

/-! # Options

The options that a machine offers are those that have been added since the present node was begun,
in order and numbered from zero, and a choice leads to the node that its option was added with.

* `Choices.find?_numbered` — an option is found at its number.
* `Chapter.Covers` — a machine is where its chapter says, and holds the options of the chapter.
* `Bare.take_covers`, `Bare.after_covers` — one deed, and any number of them.
* `Bare.options_exact` — what is offered, and what a choice comes to.
-/

namespace DialogueEngine

variable {σ : Type}

/-! ## Numbered options -/

/-- The options are numbered from zero. -/
def Numbered (l : List Choice) : Prop := l.map (·.id) = List.range l.length

namespace Numbered

theorem nil : Numbered [] := rfl

theorem concat {l : List Choice} (numbered : Numbered l) (line : Line) (destination : String) :
    Numbered (l ++ [⟨l.length, line, destination⟩]) := by
  unfold Numbered at *
  simp [numbered, List.range_succ]

theorem id_eq {l : List Choice} (numbered : Numbered l) {k : Nat} (h : k < l.length) :
    l[k].id = k := by
  have same : (l.map (·.id))[k]? = (List.range l.length)[k]? := by rw [numbered]
  simpa [h] using same

/-- An option is found at its number. -/
theorem find? {l : List Choice} (numbered : Numbered l) (k : Nat) :
    l.find? (·.id == k) = l[k]? := by
  by_cases h : k < l.length
  · rw [List.getElem?_eq_getElem h, List.find?_eq_some_iff_getElem]
    refine ⟨by simp [numbered.id_eq h], k, h, rfl, fun j hj => ?_⟩
    simp [numbered.id_eq (Nat.lt_trans hj h), Nat.ne_of_lt hj]
  · rw [List.getElem?_eq_none (Nat.not_lt.mp h), List.find?_eq_none]
    intro c hc same
    obtain ⟨j, hj, rfl⟩ := List.getElem_of_mem hc
    rw [numbered.id_eq hj, beq_iff_eq] at same
    exact h (same ▸ hj)

end Numbered

/-! ## Machines and their chapters -/

/-- The options that have been added in the present node, offered or not. -/
def Machine.held (m : Machine) : List Choice := m.offered.elim m.pending (·.options)

namespace Chapter

/-- The chapter belongs to the node that the machine is in. It has carried out the instructions of
    the node up to the present place, and the machine holds the options that these have added. -/
structure Tells (c : Chapter σ) (m : Machine) (f : Frame) : Prop where
  node : c.node = some f.node
  carried : ∃ p node, m.program = some p ∧ p.find? f.node = some node ∧
    c.carried.map (·.2) = node.instructions.take f.position
  numbered : Numbered m.held
  added : m.held.map (fun o => (o.line, o.destination)) = c.added

/-- The chapter belongs to the machine. While something is queued it may be the one before. -/
structure Covers (c : Chapter σ) (m : Machine) : Prop where
  valid : m.Valid
  fresh : m.queue ≠ [] → m.pending = []
  tells : m.queue = [] → ∀ f, m.frame = some f → c.Tells m f
  offers : m.state = .awaitingChoice →
    ∃ cs, m.offered = some cs ∧ c.handed = some (.choices cs) ∧ cs.options ≠ []

variable {c : Chapter σ} {m m' : Machine} {b : Bare σ} {i : Instruction} {is rest : List Instruction}

@[simp] theorem carry_nil (c : Chapter σ) : c.carry [] = c := by
  unfold carry
  rw [List.append_nil]

theorem carry_carry (c : Chapter σ) (steps more : List (Bare σ × Instruction)) :
    (c.carry steps).carry more = c.carry (steps ++ more) := by
  unfold carry
  rw [List.append_assoc]

namespace Covers

/-- Before a node is begun, or after the last one, any chapter covers a machine. -/
theorem of_between (valid : m.Valid) (pending : m.pending = []) (going : m.state ≠ .awaitingChoice)
    (between : m.queue = [] → m.frame = none) : c.Covers m where
  valid := valid
  fresh _ := pending
  tells queue f present := by rw [between queue] at present; cases present
  offers awaiting := absurd awaiting going

/-- What has been handed out does not matter while no choice is awaited. -/
theorem hand {y : Yield} (covers : c.Covers m) (going : m.state ≠ .awaitingChoice)
    (within : ∀ node, y ≠ .nodeStart node) : (c.hand y).Covers m := by
  have same : c.hand y = { c with handed := some y } := by
    cases y with
    | nodeStart node => exact absurd rfl (within node)
    | _ => rfl
  rw [same]
  refine ⟨covers.valid, covers.fresh, fun queue f present => ?_, fun awaiting => absurd awaiting going⟩
  obtain ⟨node, carried, numbered, added⟩ := covers.tells queue f present
  exact ⟨node, carried, numbered, added⟩

/-- Other nodes do not matter. -/
theorem add {p : Program} (covers : c.Covers m) (added : m.add p = .ok m') : c.Covers m' := by
  have valid := covers.valid.add added
  obtain ⟨q, rfl, merged⟩ := Machine.add_eq_ok added
  refine ⟨valid, covers.fresh, fun queue f present => ?_, covers.offers⟩
  obtain ⟨node, ⟨p, n, program, found, carried⟩, numbered, added⟩ := covers.tells queue f present
  have still := Program.merge_extends (merged p program)
  exact ⟨node, ⟨q, n, rfl, still _ _ found, carried⟩, numbered, added⟩

/-- Fetching an instruction carries out one more of the node. -/
theorem fetch {g : Frame} (covers : c.Covers b.machine)
    (executing : b.machine.Executing (i :: rest)) (present : b.machine.advance.frame = some g) :
    c.node = some g.node ∧ ∃ p node, b.machine.program = some p ∧ p.find? g.node = some node ∧
      (c.carry [(b, i)]).carried.map (·.2) = node.instructions.take g.position := by
  obtain ⟨f, frame, rfl⟩ := Option.map_eq_some_iff.mp present
  obtain ⟨node, ⟨p, n, program, found, carried⟩, _, _⟩ :=
    covers.tells executing.ready.queue f frame
  obtain ⟨p', f', n', program', frame', found', drop⟩ := Machine.remaining_eq_ok executing.rest
  cases program.symm.trans program'
  cases frame.symm.trans frame'
  cases found.symm.trans found'
  have here : n.instructions[f.position]? = some i := by
    rw [← List.head?_drop, ← drop, List.head?_cons]
  exact ⟨node, p, n, program, found, by simp [carry, carried, List.take_add_one, here]⟩

/-- An instruction that adds no option. -/
theorem advance (covers : c.Covers b.machine) (executing : b.machine.Executing (i :: rest))
    (none : Bare.option? (b, i) = none) : (c.carry [(b, i)]).Covers b.machine.advance := by
  have fetched := executing.advance.1
  refine ⟨fetched.valid, fun waiting => absurd fetched.ready.queue waiting, fun _ g present => ?_,
    fun awaiting => ?_⟩
  · obtain ⟨node, place⟩ := covers.fetch executing present
    obtain ⟨f, frame⟩ := executing.frame
    obtain ⟨_, _, numbered, added⟩ := covers.tells executing.ready.queue f frame
    refine ⟨node, place, numbered, ?_⟩
    rw [added_carry, List.filterMap_cons, none, List.filterMap_nil, List.append_nil]
    exact added
  · rw [fetched.ready.state] at awaiting
    cases awaiting

/-- An instruction that adds an option. -/
theorem addChoice {line : Line} {destination : String} (covers : c.Covers b.machine)
    (executing : b.machine.Executing (i :: rest))
    (some : Bare.option? (b, i) = some (line, destination)) :
    (c.carry [(b, i)]).Covers (b.machine.advance.addChoice line destination) := by
  have fetched := executing.advance.1
  have grown := fetched.addChoice line destination
  refine ⟨grown.valid, fun waiting => absurd grown.ready.queue waiting, fun _ g present => ?_,
    fun awaiting => ?_⟩
  · obtain ⟨node, place⟩ := covers.fetch executing present
    obtain ⟨f, frame⟩ := executing.frame
    obtain ⟨_, _, numbered, added⟩ := covers.tells executing.ready.queue f frame
    -- while the machine runs it holds what has been added but not yet offered
    have held : b.machine.held = b.machine.pending := by simp [Machine.held, executing.offered]
    have more : (b.machine.advance.addChoice line destination).held =
        b.machine.pending ++ [⟨b.machine.pending.length, line, destination⟩] := by
      simp [Machine.held, grown.offered]
      rfl
    rw [held] at numbered added
    refine ⟨node, place, more ▸ numbered.concat line destination, ?_⟩
    rw [more, added_carry, List.filterMap_cons, some, List.map_append, added]
    rfl
  · rw [grown.ready.state] at awaiting
    cases awaiting

/-- The options are offered. -/
theorem offer (covers : c.Covers m) (ready : m.Ready) (offered : m.offered = none)
    (valid : m.offer.Valid) (some : m.pending ≠ []) :
    (c.hand (.choices ⟨m.pending⟩)).Covers m.offer := by
  have held : m.offer.held = m.held := by simp [Machine.held, Machine.offer, offered]
  refine ⟨valid, fun _ => rfl, fun _ f present => ?_, fun _ => ⟨_, rfl, rfl, some⟩⟩
  obtain ⟨node, carried, numbered, added⟩ := covers.tells ready.queue f present
  exact ⟨node, carried, held ▸ numbered, held ▸ added⟩

/-- A machine that leaves a node for another one is between the two. -/
theorem moveTo {target : String} (executing : m.Executing is) (moved : m.moveTo target = .ok m')
    (valid : m'.pop.2.Valid) : c.Covers m'.pop.2 := by
  obtain ⟨f, frame⟩ := executing.frame
  have queue := Machine.moveTo_queue frame executing.ready.queue moved
  have pop : m'.pop.2 = { m' with queue := [.nodeStart target] } := by simp [Machine.pop, queue]
  rw [pop] at valid ⊢
  cases Machine.moveTo_eq moved
  exact .of_between valid rfl (by simp [executing.ready.state]) fun queue => by cases queue

/-- A machine at the end of the dialogue is in no node. -/
theorem finish (executing : m.Executing is) (valid : m.finish.pop.2.Valid) :
    c.Covers m.finish.pop.2 := by
  obtain ⟨f, frame⟩ := executing.frame
  have queue : m.finish.queue = [.nodeComplete f.node, .dialogueComplete] := by
    simp [Machine.finish, executing.ready.queue, Machine.leaving, frame]
  have pop : m.finish.pop.2 = { m.finish with queue := [.dialogueComplete] } := by
    simp [Machine.pop, queue]
  rw [pop] at valid ⊢
  exact .of_between valid rfl (by simp [Machine.finish]) fun _ => rfl

end Covers

/-! ## Instructions -/

/-- After an instruction the step goes on, or the chapter belongs to what it has come to. -/
def Continues (c : Chapter σ) (rest : List Instruction) (r : Machine.Reply × Machine) : Prop :=
  match r.1 with
  | .ok none => c.Covers r.2 ∧ r.2.Executing rest
  | .ok (some y) => (c.hand y).Covers r.2
  | .error _ => c.Covers r.2

end Chapter

namespace Bare

variable {c : Chapter σ} {b : Bare σ} {i : Instruction} {is rest : List Instruction}

theorem option?_of_ne (b : Bare σ)
    (other : ∀ id substitutions destination, i ≠ .addOption id substitutions destination) :
    option? (b, i) = none := by
  cases i with
  | addOption id substitutions destination => exact absurd rfl (other id substitutions destination)
  | _ => rfl

theorem perform_addOption (b : Bare σ) (id : String) (substitutions : List Operand)
    (destination : String) :
    b.perform (.addOption id substitutions destination) =
      let r := (Operand.texts substitutions).run b.store b.host
      match r.1 with
      | .error e => (.error e, ⟨b.machine.advance, r.2.1, r.2.2⟩)
      | .ok ts =>
        (.ok none, ⟨b.machine.advance.addChoice ⟨id, ts⟩ destination, r.2.1, r.2.2⟩) := by
  simp only [perform, Machine.perform, run, Access.run_bind]
  cases ((Operand.texts substitutions).run b.store b.host).1 <;> rfl

theorem perform_continues (covers : c.Covers b.machine)
    (executing : b.machine.Executing (i :: rest)) :
    (c.carry [(b, i)]).Continues rest ((b.perform i).1, (b.perform i).2.machine) := by
  by_cases adds : ∃ id substitutions destination, i = .addOption id substitutions destination
  · obtain ⟨id, substitutions, destination, rfl⟩ := adds
    rw [perform_addOption]
    cases texts : ((Operand.texts substitutions).run b.store b.host).1 with
    | error e =>
      have none : option? (b, .addOption id substitutions destination) = none := by
        simp only [option?, texts]
      simp only [texts]
      exact covers.advance executing none
    | ok ts =>
      have some : option? (b, .addOption id substitutions destination) =
          some (⟨id, ts⟩, destination) := by
        simp only [option?, texts]
      simp only [texts]
      exact ⟨covers.addChoice executing some, executing.advance.1.addChoice _ _⟩
  · have none : option? (b, i) = none :=
      option?_of_ne b fun id substitutions destination same =>
        adds ⟨id, substitutions, destination, same⟩
    have fetched := executing.advance.1
    have advanced := covers.advance executing none
    have running : b.machine.advance.state ≠ .awaitingChoice := by
      rw [fetched.ready.state]
      decide
    have performs : b.machine.Performs i ((b.perform i).1, (b.perform i).2.machine) :=
      (b.machine.perform_performs i).run b.store b.host
    generalize ((b.perform i).1, (b.perform i).2.machine) = r at performs
    cases performs with
    | passes passes =>
      refine ⟨?_, executing.passes passes⟩
      cases passes with
      | addOption texts => exact absurd ⟨_, _, _, rfl⟩ adds
      | showOptions none => exact advanced
      | set => exact advanced
      | jumpIf => exact advanced
    | ends ends =>
      have valid := (executing.ends ends b.machine).valid
      cases ends with
      | line texts => exact advanced.hand running nofun
      | showOptions some => exact advanced.offer fetched.ready fetched.offered valid some
      | command => exact advanced.hand running nofun
      | jump jumps moved => exact .moveTo fetched moved valid
      | lost jumps missing => exact advanced
      | stop => exact .finish fetched valid
      | failed cause => exact advanced

/-- A step follows the chapter. -/
theorem execute_covers (covers : c.Covers b.machine) (executing : b.machine.Executing is) :
    ((c.carry (b.carry is)).hear
        (.machine ((b.run (b.machine.execute is)).1.map some))).Covers
      (b.run (b.machine.execute is)).2.machine := by
  induction is generalizing b c with
  | nil => exact .finish executing executing.finish.1
  | cons i rest ih =>
    have continues := perform_continues covers executing
    rw [run_execute_cons, carry]
    cases performed : b.perform i with
    | mk reply b' =>
      rw [performed] at continues
      rcases reply with e | _ | y
      · exact continues
      · have more := ih continues.1 continues.2
        rw [Chapter.carry_carry] at more
        exact more
      · exact continues

/-! ## Deeds -/

theorem take_next (b : Bare σ) :
    b.take (.request .next) =
      (.machine ((b.run b.machine.next).1.map some), (b.run b.machine.next).2) := by
  change (Feedback.machine (b.run _).1, (b.run _).2) = _
  rw [Machine.serve, run_bind]
  rfl

theorem carried_of_ne {d : Deed σ} (b : Bare σ) (other : d ≠ .request .next) :
    b.carried d = [] := by
  cases d with
  | change change | read name | host f => rfl
  | request q =>
    cases q with
    | next => exact absurd rfl other
    | _ => rfl

/-- What is queued is handed out: the end of a node, the beginning of one, or the end of the
    dialogue. -/
theorem pop_covers (covers : c.Covers b.machine) (waiting : b.machine.queue ≠ []) :
    (c.hand b.machine.pop.1).Covers b.machine.pop.2 := by
  have valid := (covers.valid.pop waiting).valid
  have pending := covers.fresh waiting
  have going : b.machine.state ≠ .awaitingChoice := fun awaiting =>
    waiting (covers.valid.quiet awaiting).1
  cases covers.valid.queued with
  | empty queue => exact absurd queue waiting
  | @entered node queue frame =>
    have pop : b.machine.pop = (.nodeStart node, { b.machine with queue := [] }) := by
      simp [Machine.pop, queue]
    rw [pop] at valid ⊢
    refine ⟨valid, fun waiting => absurd rfl waiting, fun _ f present => ?_,
      fun awaiting => absurd awaiting going⟩
    cases frame.symm.trans present
    obtain ⟨p, n, program, found, _⟩ := valid.placed ⟨node, 0⟩ frame
    have offered : b.machine.offered = none := by
      simpa using mt covers.valid.awaiting.mpr going
    have held : Machine.held { b.machine with queue := [] } = [] := by
      simp [Machine.held, offered, pending]
    exact ⟨rfl, ⟨p, n, program, found, rfl⟩, held ▸ .nil, by rw [held]; rfl⟩
  | @moved left node queue frame =>
    have pop : b.machine.pop.2 = { b.machine with queue := [.nodeStart node] } := by
      simp [Machine.pop, queue]
    rw [pop] at valid ⊢
    exact .of_between valid pending going fun queue => by cases queue
  | ending queue state =>
    have pop : b.machine.pop.2 = { b.machine with queue := [] } := by simp [Machine.pop, queue]
    rw [pop] at valid ⊢
    exact .of_between valid pending going fun _ => covers.valid.stopped.mp state

theorem next_covers (covers : c.Covers b.machine) :
    ((c.carry (b.carried (.request .next))).hear (b.take (.request .next)).1).Covers
      (b.take (.request .next)).2.machine := by
  rw [take_next]
  have valid := covers.valid
  by_cases queue : b.machine.queue = []
  · -- without anything queued the state of the machine decides
    cases state : b.machine.state with
    | awaitingChoice =>
      have next : b.machine.next = b.machine.fail (.runtime .awaitingSelection) := by
        simp [Machine.next, queue, state]
      have carried : b.carried (.request .next) = [] := by simp only [Bare.carried, queue, state]
      rw [next, carried, Chapter.carry_nil]
      exact covers
    | stopped =>
      have next : b.machine.next = b.machine.fail (.runtime (.invalidState "VM 未在执行")) := by
        simp [Machine.next, queue, state]
      have carried : b.carried (.request .next) = [] := by simp only [Bare.carried, queue, state]
      rw [next, carried, Chapter.carry_nil]
      exact covers
    | running =>
      obtain ⟨is, remaining⟩ := valid.remaining state
      have executing : b.machine.Executing is := ⟨valid, ⟨state, queue⟩, remaining⟩
      obtain ⟨next, carried⟩ := run_next queue state remaining
      rw [next, carried]
      exact execute_covers covers executing
  · have next : b.machine.next = b.machine.yieldQueued := by simp [Machine.next, queue]
    have carried : b.carried (.request .next) = [] := by
      obtain ⟨y, more, queued⟩ := List.exists_cons_of_ne_nil queue
      simp only [Bare.carried, queued]
    rw [next, carried, Chapter.carry_nil]
    exact pop_covers covers queue

/-- An attempt comes to nothing, or to a machine that the chapter still belongs to. -/
theorem attempt_covers {ε : Type} {r : Except ε Machine} {cause : ε → EngineError}
    (covers : c.Covers b.machine) (succeeds : ∀ m', r = .ok m' → c.Covers m') :
    (c.hear (.machine (b.run (b.machine.attempt cause r)).1)).Covers
      (b.run (b.machine.attempt cause r)).2.machine := by
  cases r with
  | ok m' => exact succeeds m' rfl
  | error e => exact covers

/-- The chapter of a run belongs to its machine after every deed. -/
theorem take_covers (covers : c.Covers b.machine) (d : Deed σ) :
    ((c.carry (b.carried d)).hear (b.take d).1).Covers (b.take d).2.machine := by
  have rest (other : d ≠ .request .next) : c.carry (b.carried d) = c := by
    rw [b.carried_of_ne other, Chapter.carry_nil]
  cases d with
  | change change | read name | host f =>
    rw [rest nofun]
    exact covers
  | request q =>
    cases q with
    | next => exact next_covers covers
    | load p =>
      rw [rest nofun]
      exact .of_between (.of_rest rfl rfl rfl rfl (.empty rfl)) rfl nofun fun _ => rfl
    | unload =>
      rw [rest nofun]
      exact .of_between (.of_rest rfl rfl rfl rfl (.empty rfl)) rfl nofun fun _ => rfl
    | stop =>
      rw [rest nofun]
      exact .of_between b.machine.valid_stop rfl nofun fun _ => rfl
    | add p =>
      rw [rest nofun]
      exact attempt_covers covers fun m' added => covers.add added
    | enter node =>
      rw [rest nofun]
      refine attempt_covers covers fun m' entered => ?_
      have valid := Machine.enter_valid entered
      obtain ⟨_, rfl⟩ := Machine.enter_eq entered
      exact .of_between valid rfl nofun nofun
    | choose id =>
      rw [rest nofun]
      refine attempt_covers covers fun m' chosen => ?_
      have valid := covers.valid.choose chosen
      obtain ⟨awaiting, _, _, _, _, _, moved, rfl⟩ := Machine.choose_eq_ok chosen
      cases Machine.moveTo_eq moved
      exact .of_between valid rfl nofun fun queue => absurd queue (by simp)

theorem chapter_covers (covers : c.Covers b.machine) (deeds : List (Deed σ)) :
    (b.chapter c deeds).Covers (b.after deeds).machine := by
  induction deeds generalizing b c with
  | nil => exact covers
  | cons d deeds ih => exact ih (take_covers covers d)

end Bare

/-! ## What is offered -/

namespace Chapter

/-- The options are all that have been added since the present node was begun, by the instructions
    that come first in it, and they are numbered from zero. -/
structure Offers (c : Chapter σ) (m : Machine) (cs : Choices) : Prop where
  nonempty : cs.options ≠ []
  ids : cs.ids = List.range cs.size
  added : cs.options.map (fun o => (o.line, o.destination)) = c.added
  node : c.node = m.currentNode
  carried : ∃ p f node, m.program = some p ∧ m.frame = some f ∧ p.find? f.node = some node ∧
    c.carried.map (·.2) = node.instructions.take f.position

/-- A machine that waits for a choice has offered the options of the chapter. -/
theorem Covers.awaiting {c : Chapter σ} {m : Machine} (covers : c.Covers m)
    (awaiting : m.state = .awaitingChoice) :
    ∃ cs, m.offered = some cs ∧ c.handed = some (.choices cs) ∧ c.Offers m cs := by
  obtain ⟨cs, offered, handed, nonempty⟩ := covers.offers awaiting
  obtain ⟨f, frame⟩ := covers.valid.frame (by rw [awaiting]; decide)
  obtain ⟨node, ⟨p, n, program, found, carried⟩, numbered, added⟩ :=
    covers.tells (covers.valid.quiet awaiting).1 f frame
  have held : m.held = cs.options := by simp [Machine.held, offered]
  rw [held] at numbered added
  refine ⟨cs, offered, handed, nonempty, numbered, added, ?_, p, f, n, program, frame, found,
    carried⟩
  simp [node, Machine.currentNode, frame]

end Chapter

namespace PresentationQueue

/-- Options numbered from zero are shown one for one under their numbers. -/
theorem entries_optionTexts {cs : Choices} (ids : cs.ids = List.range cs.size)
    (text : Line → String) :
    (optionTexts cs text).entries = cs.options.map fun o => (o.id, text o.line) := by
  apply Dict.entries_ofList
  have increasing : cs.ids.Pairwise (· < ·) := by
    rw [ids]
    exact List.pairwise_lt_range
  unfold Entries.Sorted
  rw [List.pairwise_map]
  exact (List.pairwise_map.mp increasing).imp fun less => decide_eq_true less

theorem showChoices_detached (cs : Choices) (text : Line → String) (s : Selector)
    (q : PresentationQueue) :
    (presenter.showChoices cs text s).detached q = (.ok (), { q with
      selector := some s
      events := q.events ++ [.displayOptions (optionTexts cs text)] }) := rfl

end PresentationQueue

/-! ## Choices -/

theorem Machine.Valid.moving {m : Machine} (valid : m.Valid)
    (going : m.queue ≠ [] ∨ m.state = .running) : m.Moving := by
  have running (waiting : m.queue ≠ []) (placed : m.frame ≠ none) : m.state = .running := by
    cases state : m.state with
    | running => rfl
    | stopped => exact absurd (valid.stopped.mp state) placed
    | awaitingChoice => exact absurd (valid.quiet state).1 waiting
  cases valid.queued with
  | empty queue =>
    refine .running (going.resolve_left fun waiting => waiting queue) ?_
    rw [queue]
    nofun
  | @entered node queue frame =>
    refine .running (running (by simp [queue]) (by simp [frame])) ?_
    rw [queue]
    simpa using .nodeStart node
  | @moved left node queue frame =>
    refine .running (running (by simp [queue]) (by simp [frame])) ?_
    rw [queue]
    simpa using ⟨.nodeComplete left, .nodeStart node⟩
  | ending queue state => exact .finishing (q := []) state (valid.stopped.mp state) queue (by simp)

namespace Bare

variable {c : Chapter σ} {b : Bare σ}

theorem awaiting_of_choices {cs : Choices} {d : Deed σ} (valid : b.machine.Valid)
    (handed : (b.take d).1 = .machine (.ok (some (.choices cs)))) :
    (b.take d).2.machine.state = .awaitingChoice := by
  -- an attempt hands nothing out
  have attempted {ε : Type} {r : Except ε Machine} {cause : ε → EngineError} :
      (b.run (b.machine.attempt cause r)).1 ≠ .ok (some (.choices cs)) := by
    cases r <;> exact nofun
  cases d with
  | change change | read name | host f => cases handed
  | request q =>
    cases q with
    | load p | unload | stop => cases handed
    | add p | enter node | choose id => exact absurd (Feedback.machine.inj handed) attempted
    | next =>
      rw [take_next] at handed ⊢
      by_cases going : b.machine.queue ≠ [] ∨ b.machine.state = .running
      · have delivers := (Machine.next_delivers (valid.moving going)).run b.store b.host
        cases answer : (b.run b.machine.next).1 with
        | error e =>
          rw [answer] at handed
          cases handed
        | ok y =>
          rw [answer] at handed
          cases handed
          exact (delivers.carries _ answer).state
      · rw [not_or, Classical.not_not] at going
        obtain ⟨queue, running⟩ := going
        cases state : b.machine.state with
        | running => exact absurd state running
        | awaitingChoice | stopped =>
          simp only [Machine.next, queue, state] at handed
          cases handed

/-- What comes of a choice by number. -/
def Chooses (b : Bare σ) (node : String) (cs : Choices) (k : Nat) : Prop :=
  match cs.options[k]? with
  | none => b.take (.request (.choose k)) = (.machine (.error (.runtime (.invalidOption k))), b)
  | some o =>
    if b.machine.defines o.destination then
      (b.trace [.request (.choose k), .request .next, .request .next]).map (·.1) =
        [.machine (.ok none), .machine (.ok (some (.nodeComplete node))),
          .machine (.ok (some (.nodeStart o.destination)))]
    else
      b.take (.request (.choose k)) =
        (.machine (.error (.runtime (.unknownNode o.destination))), b)

theorem take_choose {k : Nat} {r : Except RuntimeError Machine} (chosen : b.machine.choose k = r) :
    b.take (.request (.choose k)) =
      match r with
      | .ok m => (.machine (.ok none), ⟨m, b.store, b.host⟩)
      | .error e => (.machine (.error (.runtime e)), b) := by
  simp only [take, Machine.serve, chosen]
  cases r <;> rfl

/-- A choice among options that are awaited leads to where the option was added with. -/
theorem chooses {cs : Choices} {node : String} (covers : c.Covers b.machine)
    (awaiting : b.machine.state = .awaitingChoice) (offered : b.machine.offered = some cs)
    (present : b.machine.currentNode = some node) (k : Nat) : b.Chooses node cs k := by
  obtain ⟨f, frame, rfl⟩ := Option.map_eq_some_iff.mp present
  have queue := (covers.valid.quiet awaiting).1
  have found : cs.find? k = cs.options[k]? := by
    obtain ⟨cs', offered', _, offers⟩ := covers.awaiting awaiting
    cases offered.symm.trans offered'
    exact Numbered.find? offers.ids k
  unfold Chooses
  cases option : cs.options[k]? with
  | none =>
    have chosen : b.machine.choose k = .error (.invalidOption k) := by
      simp [Machine.choose, awaiting, offered, found, option]
    exact take_choose chosen
  | some o =>
    dsimp only
    split
    · rename_i defined
      have chosen : b.machine.choose k = .ok { b.machine with
          frame := some ⟨o.destination, 0⟩, state := .running, pending := [], offered := none
          queue := [.nodeComplete f.node, .nodeStart o.destination] } := by
        simp [Machine.choose, awaiting, offered, found, option, Machine.moveTo, defined, Except.map,
          queue, Machine.leaving, frame]
      rw [trace, take_choose chosen]
      rfl
    · rename_i missing
      have chosen : b.machine.choose k = .error (.unknownNode o.destination) := by
        simp [Machine.choose, awaiting, offered, found, option, Machine.moveTo, missing, Except.map]
      exact take_choose chosen

/-- Whatever is done with a machine from the beginning on, and whatever its store does: Options that
    it hands out are all that have been added since the present node was begun, each with its texts
    as they were then, numbered from zero; and the queue of a presenter shows exactly these. While
    it waits for a choice the options handed out last are pending. A choice of one of them whose
    node exists leads there, and any other one is refused. -/
theorem options_exact (store : Store σ) (host : σ) (deeds : List (Deed σ)) :
    let start : Bare σ := ⟨.empty, store, host⟩
    let now := start.after deeds
    (∀ d cs, (now.take d).1 = .machine (.ok (some (.choices cs))) →
      (start.chapter .empty (deeds ++ [d])).Offers (now.take d).2.machine cs ∧
      ∀ text s q, ∃ shown : Dict Nat String,
        (PresentationQueue.presenter.showChoices cs text s).detached q =
          (.ok (), { q with selector := some s, events := q.events ++ [.displayOptions shown] }) ∧
        shown.entries = cs.options.map fun o => (o.id, text o.line)) ∧
    (now.machine.state = .awaitingChoice →
      ∃ cs node, (start.chapter .empty deeds).handed = some (.choices cs) ∧
        (start.chapter .empty deeds).Offers now.machine cs ∧
        now.machine.currentNode = some node ∧ ∀ k, now.Chooses node cs k) := by
  intro start now
  have begun : (Chapter.empty : Chapter σ).Covers start.machine :=
    .of_between Machine.valid_empty rfl nofun fun _ => rfl
  have covers : (start.chapter .empty deeds).Covers now.machine := chapter_covers begun deeds
  refine ⟨fun d cs handed => ?_, fun awaiting => ?_⟩
  · have covers' := take_covers covers d
    obtain ⟨cs', _, last, offers⟩ := covers'.awaiting (awaiting_of_choices covers.valid handed)
    rw [← chapter_concat] at last offers
    -- what has been handed out last is this set
    have same : cs' = cs := by
      rw [chapter_concat, show (start.after deeds).take d = now.take d from rfl, handed] at last
      cases last
      rfl
    subst same
    refine ⟨offers, fun text s q => ⟨_, PresentationQueue.showChoices_detached cs' text s q, ?_⟩⟩
    exact PresentationQueue.entries_optionTexts offers.ids text
  · obtain ⟨cs, offered, last, offers⟩ := covers.awaiting awaiting
    obtain ⟨f, frame⟩ := covers.valid.frame (by rw [awaiting]; decide)
    have present : now.machine.currentNode = some f.node := by simp [Machine.currentNode, frame]
    exact ⟨cs, f.node, last, offers, present, chooses covers awaiting offered present⟩

/-- A node with an option that leads back to it, and one that leads nowhere. -/
def forked : List (Deed Unit) :=
  [.request (.load (.ofNode "Start" [.set "who" (.literal (.string "Mae")),
      .addOption "back" [.reference "who"] "Start", .addOption "gone" [] "Nowhere",
      .showOptions])),
    .request (.enter "Start"), .request .next]

/-- The options of the node are offered with the text that has been set before. -/
theorem options_exact_forked :
    let cs : Choices := ⟨[⟨0, ⟨"back", ["Mae"]⟩, "Start"⟩, ⟨1, ⟨"gone", []⟩, "Nowhere"⟩]⟩
    ((Bare.after ⟨.empty, .memory .empty, ()⟩ forked).take (.request .next)).1 =
        .machine (.ok (some (.choices cs))) ∧
      (Bare.chapter ⟨.empty, .memory .empty, ()⟩ .empty (forked ++ [.request .next])).Offers
        ((Bare.after ⟨.empty, .memory .empty, ()⟩ forked).take (.request .next)).2.machine cs := by
  intro cs
  have handed : ((Bare.after ⟨.empty, .memory .empty, ()⟩ forked).take (.request .next)).1 =
      .machine (.ok (some (.choices cs))) := rfl
  exact ⟨handed, ((options_exact (.memory .empty) () forked).1 (.request .next) cs handed).1⟩

end Bare

end DialogueEngine
