import DialogueEngine.Coordinator.Settings
import DialogueEngine.Proofs.Machine.Steps

/-! # The nodes that a machine goes through

What the host is told of the nodes follows one grammar: every node is begun and left before the
next one is begun, and after the last one the dialogue is complete. The machine queues what it
hands out, so the grammar is read off what has been told together with what is still queued.

* `Yield.told?` — what the host is told of a yield.
* `visits`, `Lifecycle` — the words of the grammar and their prefixes.
* `Open`, `Closed` — words that end within a node, and words that are complete.
* `Machine.Trails` — the queue goes on where the host has been told to.
* `Machine.next_trails` — one step.
-/

namespace DialogueEngine

/-- What the host is told of a yield. -/
def Yield.told? : Yield → Option LifecycleEvent
  | .nodeStart node => some (.nodeStart node)
  | .nodeComplete node => some (.nodeComplete node)
  | .dialogueComplete => some .dialogueComplete
  | _ => none

def tellings (ys : List Yield) : List LifecycleEvent := ys.filterMap Yield.told?

@[simp] theorem tellings_append (ys zs : List Yield) :
    tellings (ys ++ zs) = tellings ys ++ tellings zs :=
  List.filterMap_append

theorem tellings_cons (y : Yield) (ys : List Yield) :
    tellings (y :: ys) = tellings [y] ++ tellings ys :=
  tellings_append [y] ys

/-! ## The grammar -/

/-- Nodes, each begun and left. -/
def visits (nodes : List String) : List LifecycleEvent :=
  nodes.flatMap fun node => [.nodeStart node, .nodeComplete node]

theorem visits_append (nodes more : List String) : visits (nodes ++ more) = visits nodes ++ visits more :=
  List.flatMap_append

/-- Nodes are begun and left, one after the other from the first one on, and then the dialogue is
    complete; or this has not yet come to its end. -/
def Lifecycle (first : String) (events : List LifecycleEvent) : Prop :=
  ∃ nodes, events <+: visits (first :: nodes) ++ [.dialogueComplete]

/-- The last node that was begun has not been left. -/
def Open (first : String) (events : List LifecycleEvent) (node : String) : Prop :=
  ∃ nodes rest, nodes ++ [node] = first :: rest ∧ events = visits nodes ++ [.nodeStart node]

def Closed (first : String) (events : List LifecycleEvent) : Prop :=
  ∃ nodes, events = visits (first :: nodes) ++ [.dialogueComplete]

variable {first node : String} {events : List LifecycleEvent}

namespace Open

theorem begin (first : String) : Open first [.nodeStart first] first := ⟨[], [], rfl, rfl⟩

theorem move (opened : Open first events node) (target : String) :
    Open first (events ++ [.nodeComplete node, .nodeStart target]) target := by
  obtain ⟨nodes, rest, begun, rfl⟩ := opened
  refine ⟨nodes ++ [node], rest ++ [target], ?_, ?_⟩
  · rw [begun, List.cons_append]
  · rw [visits_append, List.append_assoc, List.append_assoc]
    rfl

theorem close (opened : Open first events node) :
    Closed first (events ++ [.nodeComplete node, .dialogueComplete]) := by
  obtain ⟨nodes, rest, begun, rfl⟩ := opened
  refine ⟨rest, ?_⟩
  rw [← begun, visits_append, List.append_assoc, List.append_assoc]
  rfl

theorem lifecycle (opened : Open first events node) : Lifecycle first events := by
  obtain ⟨nodes, rest, begun, rfl⟩ := opened
  refine ⟨rest, [.nodeComplete node, .dialogueComplete], ?_⟩
  rw [← begun, visits_append, List.append_assoc, List.append_assoc]
  rfl

theorem getLast? (opened : Open first events node) :
    events.getLast? = some (.nodeStart node) := by
  obtain ⟨nodes, rest, _, rfl⟩ := opened
  exact List.getLast?_concat

end Open

theorem Closed.lifecycle (closed : Closed first events) : Lifecycle first events := by
  obtain ⟨nodes, rfl⟩ := closed
  exact ⟨nodes, List.prefix_refl _⟩

namespace Lifecycle

theorem shorten {shorter : List LifecycleEvent} (lifecycle : Lifecycle first events)
    (before : shorter <+: events) : Lifecycle first shorter := by
  obtain ⟨nodes, word⟩ := lifecycle
  exact ⟨nodes, before.trans word⟩

theorem not_mem_visits (nodes : List String) : LifecycleEvent.dialogueComplete ∉ visits nodes := by
  simp [visits]

/-- After the end of the dialogue nothing is told. -/
theorem complete_last {before after : List LifecycleEvent}
    (lifecycle : Lifecycle first (before ++ .dialogueComplete :: after)) :
    .dialogueComplete ∉ before ∧ after = [] := by
  obtain ⟨nodes, rest, word⟩ := lifecycle
  -- the end stands only at the last place of a word
  rcases List.eq_nil_or_concat (after ++ rest) with none | ⟨more, last, some⟩
  · rw [List.append_assoc, List.cons_append, none] at word
    obtain ⟨rfl, _⟩ := List.append_inj' word rfl
    exact ⟨not_mem_visits _, (List.append_eq_nil_iff.mp none).1⟩
  · rw [List.append_assoc, List.cons_append, some, List.concat_eq_append, ← List.cons_append,
      ← List.append_assoc] at word
    obtain ⟨word, _⟩ := List.append_inj' word rfl
    have within : LifecycleEvent.dialogueComplete ∈ visits (first :: nodes) := by
      rw [← word]
      exact List.mem_append_right _ List.mem_cons_self
    exact absurd within (not_mem_visits _)

end Lifecycle

/-! ## Machines -/

namespace Machine

/-- What the host will be told before the next instruction is fetched. -/
def ahead (m : Machine) : List LifecycleEvent := tellings m.queue

/-- What the host has been told and will be told before the next instruction is a word that ends
    within the present node, or is complete if there is none. -/
structure Trails (first : String) (events : List LifecycleEvent) (m : Machine) : Prop where
  within : ∀ f, m.frame = some f → Open first (events ++ m.ahead) f.node
  after : m.frame = none → m.state = .stopped ∧ Closed first (events ++ m.ahead)

namespace Trails

variable {m m' : Machine}

theorem lifecycle (trails : m.Trails first events) : Lifecycle first events := by
  refine Lifecycle.shorten ?_ (List.prefix_append events m.ahead)
  cases frame : m.frame with
  | none => exact (trails.after frame).2.lifecycle
  | some f => exact (trails.within f frame).lifecycle

/-- The program and what is offered do not matter. -/
theorem congr (trails : m.Trails first events) (frame : m'.frame = m.frame)
    (queue : m'.queue = m.queue) (stopped : m.state = .stopped → m'.state = .stopped) :
    m'.Trails first events := by
  have ahead : m'.ahead = m.ahead := congrArg tellings queue
  refine ⟨fun f present => ?_, fun gone => ?_⟩
  · rw [ahead]
    exact trails.within f (frame ▸ present)
  · rw [ahead]
    obtain ⟨state, closed⟩ := trails.after (frame ▸ gone)
    exact ⟨stopped state, closed⟩

theorem add {p : Program} (trails : m.Trails first events) (added : m.add p = .ok m') :
    m'.Trails first events := by
  rw [add_eq added]
  exact trails.congr rfl rfl id

theorem enter (entered : m.enter node = .ok m') : m'.Trails node [] := by
  obtain ⟨_, rfl⟩ := enter_eq entered
  refine ⟨fun f present => ?_, nofun⟩
  cases present
  exact .begin node

theorem moveTo {f : Frame} {target : String} (trails : m.Trails first events)
    (present : m.frame = some f) (moved : m.moveTo target = .ok m') :
    m'.Trails first events := by
  cases moveTo_eq moved
  refine ⟨fun g arrived => ?_, nofun⟩
  cases arrived
  have left : m.leaving = [.nodeComplete f.node] := by simp only [leaving, present, Option.elim_some]
  have opened := (trails.within f present).move target
  simp only [ahead, left, tellings_append, List.append_assoc] at opened ⊢
  exact opened

theorem choose {id : Nat} (trails : m.Trails first events) (chosen : m.choose id = .ok m') :
    m'.Trails first events := by
  have awaiting : m.state = .awaitingChoice := by
    unfold Machine.choose at chosen
    split at chosen
    · assumption
    · cases chosen
  obtain ⟨target, m₁, moved, rfl⟩ := choose_eq chosen
  cases present : m.frame with
  | none =>
    rw [(trails.after present).1] at awaiting
    cases awaiting
  | some f =>
    have arrived := trails.moveTo present moved
    refine ⟨arrived.within, fun gone => ?_⟩
    cases moveTo_eq moved
    cases gone

theorem finish {f : Frame} (trails : m.Trails first events) (present : m.frame = some f) :
    m.finish.Trails first events := by
  have left : m.leaving = [.nodeComplete f.node] := by simp only [leaving, present, Option.elim_some]
  have closed := (trails.within f present).close
  refine ⟨nofun, fun _ => ⟨rfl, ?_⟩⟩
  simp only [ahead, Machine.finish, left, tellings_append, List.append_assoc] at closed ⊢
  exact closed

/-- What is queued first is told next. -/
theorem pop (trails : m.Trails first events) (waiting : m.queue ≠ []) :
    m.pop.2.Trails first (events ++ tellings [m.pop.1]) := by
  unfold Machine.pop
  cases queue : m.queue with
  | nil => exact absurd queue waiting
  | cons y rest =>
    have told : m.ahead = tellings [y] ++ tellings rest := by rw [ahead, queue, tellings_cons]
    refine ⟨fun f present => ?_, fun gone => ?_⟩
    · have opened := trails.within f present
      rw [told, ← List.append_assoc] at opened
      exact opened
    · obtain ⟨state, closed⟩ := trails.after gone
      rw [told, ← List.append_assoc] at closed
      exact ⟨state, closed⟩

/-- A machine that waits within a node has told that it is there. -/
theorem getLast? (trails : m.Trails first events) (queue : m.queue = [])
    (waits : m.state ≠ .stopped) :
    ∃ node, m.currentNode = some node ∧ events.getLast? = some (.nodeStart node) := by
  have quiet : m.ahead = [] := by rw [ahead, queue]; rfl
  cases present : m.frame with
  | none => exact absurd (trails.after present).1 waits
  | some f =>
    have opened := trails.within f present
    rw [quiet, List.append_nil] at opened
    exact ⟨f.node, by rw [currentNode, present]; rfl, opened.getLast?⟩

end Trails

/-! ## One step -/

/-- The result of a step carries on from what has been told, or is an error. -/
def Resumes (first : String) (events : List LifecycleEvent) (r : Stepped) : Prop :=
  ∀ y, r.1 = .ok y → r.2.Trails first (events ++ tellings [y])

variable {m m' : Machine} {i : Instruction} {is : List Instruction} {r : Stepped} {f : Frame}

theorem resumes_silent {y : Yield} (trails : m.Trails first events) (untold : y.told? = none) :
    Resumes first events (.ok y, m) := by
  intro z hz
  cases hz
  have silent : tellings [y] = [] := by simp only [tellings, List.filterMap, untold]
  rw [silent, List.append_nil]
  exact trails

theorem resumes_pop (trails : m.Trails first events) (waiting : m.queue ≠ []) :
    Resumes first events (.ok m.pop.1, m.pop.2) := by
  intro y hy
  cases hy
  exact trails.pop waiting

theorem resumes_finish (trails : m.Trails first events) (present : m.frame = some f) :
    Resumes first events (.ok m.finish.pop.1, m.finish.pop.2) :=
  resumes_pop (trails.finish present) (by simp [finish])

/-- Fetching an instruction stays within the node. -/
theorem Trails.advance (trails : m.Trails first events) (present : m.frame = some f) :
    m.advance.frame = some { f with position := f.position + 1 } ∧
      m.advance.Trails first events := by
  have arrived : m.advance.frame = some { f with position := f.position + 1 } := by
    simp only [Machine.advance, present, Option.map_some]
  refine ⟨arrived, fun g there => ?_, fun gone => ?_⟩
  · rw [arrived] at there
    cases there
    exact trails.within f present
  · rw [arrived] at gone
    cases gone

theorem Passes.trails (passes : m.Passes i m') (trails : m.Trails first events)
    (present : m.frame = some f) :
    (∃ f', m'.frame = some f') ∧ m'.Trails first events := by
  obtain ⟨arrived, fetched⟩ := trails.advance present
  cases passes with
  | addOption texts => exact ⟨⟨_, arrived⟩, fetched.congr rfl rfl fun stopped => stopped⟩
  | _ => exact ⟨⟨_, arrived⟩, fetched⟩

theorem Ends.resumes (ends : m.Ends i r) (trails : m.Trails first events)
    (present : m.frame = some f) : Resumes first events r := by
  obtain ⟨arrived, fetched⟩ := trails.advance present
  cases ends with
  | line texts => exact resumes_silent fetched rfl
  | showOptions some =>
    refine resumes_silent ⟨fetched.within, fun gone => ?_⟩ rfl
    rw [show m.advance.offer.frame = m.advance.frame from rfl, arrived] at gone
    cases gone
  | command => exact resumes_silent fetched rfl
  | jump _ moved =>
    refine resumes_pop (fetched.moveTo arrived moved) ?_
    rw [moveTo_eq moved]
    simp
  | lost _ _ => exact nofun
  | stop => exact resumes_finish fetched arrived
  | failed _ => exact nofun

theorem Executes.resumes (executes : m.Executes is r) (trails : m.Trails first events)
    (present : m.frame = some f) : Resumes first events r := by
  induction executes generalizing f with
  | finish m => exact resumes_finish trails present
  | pass passes _ ih =>
    obtain ⟨⟨g, arrived⟩, passed⟩ := passes.trails trails present
    exact ih passed arrived
  | ends ends => exact ends.resumes trails present

theorem Steps.resumes (steps : m.Steps r) (trails : m.Trails first events) :
    Resumes first events r := by
  cases steps with
  | queued waiting => exact resumes_pop trails waiting
  | executes ready _ executes =>
    cases present : m.frame with
    | none =>
      have stopped := (trails.after present).1
      rw [ready.state] at stopped
      cases stopped
    | some f => exact executes.resumes trails present
  | _ => exact nofun

/-- Whatever the store answers, the host is told of a step what comes next in the grammar. -/
theorem next_trails (trails : m.Trails first events) : m.next.All (Resumes first events) :=
  m.next_steps.imp fun _ steps => steps.resumes trails

end Machine

end DialogueEngine
