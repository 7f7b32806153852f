import Mathlib.Algebra.GroupWithZero.Nat
import Mathlib.Algebra.Order.BigOperators.Group.List
import Mathlib.Algebra.Order.Group.Nat
import DialogueEngine.Proofs.Machine.Linking
import DialogueEngine.Proofs.Program.Paths

/-! # How much a run can yield

Where no path leads round, a run yields at most once for each instruction of the nodes on its way,
and twice more for each of these nodes. A machine that has come to some place can yield what is left
of its node, the nodes behind it, and what waits in its queue; everything that it yields is taken
from that.

* `Program.Acyclic` — no path leads round.
* `Program.weight`, `Program.allowance` — what nodes can yield, and a run from a start node.
* `Program.weight_leads` — a node weighs more than all that lies behind it.
* `Machine.Affords` — what a machine can still yield at most.
* `Machine.Affords.steps`, `Machine.Affords.choose` — a step and a choice.
-/

namespace DialogueEngine

namespace Program

variable {p : Program} {start name target : String} {node : Node}

/-! ## Weights -/

/-- No path from a name on comes to a name again. -/
def Acyclic (p : Program) (start : String) : Prop :=
  ∀ name, p.Path start name → ¬ Relation.TransGen p.LeadsTo name name

/-- What the nodes with some names can yield: something for each instruction, and their beginnings
    and ends. -/
def weight (p : Program) (names : List String) : Nat :=
  ((p.nodes.entries.filter (·.1 ∈ names)).map fun e => e.2.instructions.length + 2).sum

/-- What a run from a node on can yield, with the end of the dialogue. -/
def allowance (p : Program) (start : String) : Nat := 1 + p.weight (p.reachable start)

theorem Acyclic.leads (acyclic : p.Acyclic start) (leads : p.LeadsTo start target) :
    p.Acyclic target :=
  fun name path => acyclic name (.head leads path)

section Sums

variable {α : Type} {P Q : α → Bool} (f : α → Nat)

theorem sum_filter_le (l : List α) (weaker : ∀ a, P a → Q a) :
    ((l.filter P).map f).sum ≤ ((l.filter Q).map f).sum :=
  ((l.monotone_filter_right weaker).map f).sum_le_sum fun _ _ => Nat.zero_le _

/-- One element more weighs more. -/
theorem add_sum_filter_le {l : List α} {a : α} (mem : a ∈ l) (here : Q a = true)
    (new : P a = false) (weaker : ∀ a, P a → Q a) :
    f a + ((l.filter P).map f).sum ≤ ((l.filter Q).map f).sum := by
  obtain ⟨before, after, rfl⟩ := List.append_of_mem mem
  have first := sum_filter_le f before weaker
  have last := sum_filter_le f after weaker
  simp only [List.filter_append, List.filter_cons, here, new, Bool.false_eq_true, if_true,
    if_false, List.map_append, List.map_cons, List.sum_append, List.sum_cons]
  omega

end Sums

/-- A node weighs as much as it can yield. -/
theorem le_weight (found : p.find? name = some node) :
    node.instructions.length + 2 ≤ p.weight (p.reachable name) := by
  have here : decide (name ∈ p.reachable name) = true := decide_eq_true (mem_reachable.mpr .refl)
  have one := add_sum_filter_le (P := fun _ => false) (Q := (·.1 ∈ p.reachable name))
    (fun e : String × Node => e.2.instructions.length + 2) (Dict.mem_entries.mpr found) here rfl
    nofun
  exact Nat.le_trans (Nat.le_add_right _ _) one

/-- A node weighs more than all that lies behind it, by what it can yield itself. -/
theorem weight_leads (acyclic : p.Acyclic name) (found : p.find? name = some node)
    (leads : p.LeadsTo name target) :
    node.instructions.length + 2 + p.weight (p.reachable target) ≤
      p.weight (p.reachable name) := by
  have new : name ∉ p.reachable target := by
    intro back
    exact acyclic name .refl (.head' leads (mem_reachable.mp back))
  refine add_sum_filter_le (fun e : String × Node => e.2.instructions.length + 2)
    (Dict.mem_entries.mpr found) ?_ ?_ fun e behind => ?_
  · exact decide_eq_true (mem_reachable.mpr .refl)
  · exact decide_eq_false new
  · have path := mem_reachable.mp (of_decide_eq_true behind)
    exact decide_eq_true (mem_reachable.mpr (.head leads path))

/-- No start has a larger allowance than all nodes together. -/
theorem allowance_le (p : Program) (start : String) :
    p.allowance start ≤ 1 + (p.nodes.entries.map fun e => e.2.instructions.length + 2).sum := by
  have all := sum_filter_le (P := (·.1 ∈ p.reachable start)) (Q := fun _ => true)
    (fun e : String × Node => e.2.instructions.length + 2) p.nodes.entries fun _ _ => rfl
  rw [List.filter_eq_self.mpr fun _ _ => rfl] at all
  exact Nat.add_le_add_left all 1

end Program

namespace Machine

variable {p : Program} {n k : Nat} {m m' : Machine} {f : Frame} {node : Node} {i : Instruction}
  {is rest : List Instruction} {r : Stepped} {target : String}

/-! ## Machines with an allowance -/

/-- The machine is in a node from which no path leads round, and `n` is enough for what waits in its
    queue, for what is left of the node and for all that lies behind it. -/
structure Amid (p : Program) (n : Nat) (f : Frame) (node : Node) (m : Machine) : Prop where
  program : m.program = some p
  frame : m.frame = some f
  found : p.find? f.node = some node
  acyclic : p.Acyclic f.node
  inside : f.position ≤ node.instructions.length
  enough : m.queue.length + p.weight (p.reachable f.node) ≤ n + f.position
  pending : ∀ c ∈ m.pending, p.LeadsTo f.node c.destination
  offered : m.state = .awaitingChoice → ∀ cs, m.offered = some cs →
    ∀ c ∈ cs.options, p.LeadsTo f.node c.destination

/-- The machine can yield `n` times at most, unless it is started anew: it has come to the end, or
    it is amid a node. -/
def Affords (p : Program) (n : Nat) (m : Machine) : Prop :=
  (m.frame = none ∧ m.state = .stopped ∧ m.queue.length ≤ n) ∨ ∃ f node, m.Amid p n f node

/-- What a result takes from an allowance. -/
def cost : Except EngineError Yield → Nat
  | .ok _ => 1
  | .error _ => 0

/-- What a step yields is taken from the allowance. -/
def Spends (p : Program) (n : Nat) (r : Stepped) : Prop :=
  ∃ k, cost r.1 + k ≤ n ∧ r.2.Affords p k

namespace Amid

/-- The end of the node, at least, is still to come. -/
theorem two_le (amid : m.Amid p n f node) : 2 ≤ n := by
  have own := Program.le_weight amid.found
  have enough := amid.enough
  have inside := amid.inside
  omega

theorem mono (amid : m.Amid p n f node) (le : n ≤ k) : m.Amid p k f node :=
  { amid with enough := Nat.le_trans amid.enough (Nat.add_le_add_right le _) }

/-- Where an instruction is passed, the allowance for it is no longer needed. -/
theorem advance (amid : m.Amid p (n + 1) f node) (there : f.position < node.instructions.length) :
    m.advance.Amid p n { f with position := f.position + 1 } node := by
  obtain ⟨program, frame, found, acyclic, inside, enough, pending, offered⟩ := amid
  refine ⟨program, by rw [Machine.advance, frame]; rfl, found, acyclic, there, ?_, pending, offered⟩
  change m.queue.length + p.weight (p.reachable f.node) ≤ n + (f.position + 1)
  omega

/-- A node that the present one leads to, with the end of this one and its own beginning in the
    queue. -/
theorem moved (amid : m.Amid p n f node) (leads : p.LeadsTo f.node target)
    (defined : p.defines target = true) (program : m'.program = some p)
    (frame : m'.frame = some ⟨target, 0⟩) (pending : m'.pending = [])
    (queue : m'.queue.length = m.queue.length + 2) (running : m'.state = .running) :
    m'.Affords p n := by
  obtain ⟨node', found⟩ := Program.defines_iff.mp defined
  have behind := Program.weight_leads amid.acyclic amid.found leads
  have enough := amid.enough
  have inside := amid.inside
  refine .inr ⟨_, node', program, frame, found, amid.acyclic.leads leads, Nat.zero_le _, ?_, ?_, ?_⟩
  · rw [queue]
    change _ + p.weight (p.reachable target) ≤ n + 0
    omega
  · rw [pending]
    nofun
  · rw [running]
    nofun

theorem moveTo_defined (amid : m.Amid p n f node) (moved : m.moveTo target = .ok m') :
    p.defines target = true := by
  obtain ⟨q, program, defined⟩ := defines_iff.mp (moveTo_defines moved)
  cases program.symm.trans amid.program
  exact defined

theorem moveTo_length (frame : m.frame = some f) (moved : m.moveTo target = .ok m') :
    m'.queue.length = m.queue.length + 2 := by
  cases moveTo_eq moved
  simp [leaving, frame]

end Amid

namespace Affords

/-- A machine that is started can yield what the program allows. -/
theorem enter {name : String} (program : m.program = some p) (acyclic : p.Acyclic name)
    (entered : m.enter name = .ok m') : m'.Affords p (p.allowance name) := by
  obtain ⟨defined, rfl⟩ := enter_eq entered
  obtain ⟨q, program', defined⟩ := defines_iff.mp defined
  cases program'.symm.trans program
  obtain ⟨node, found⟩ := Program.defines_iff.mp defined
  exact .inr ⟨_, node, program, rfl, found, acyclic, Nat.zero_le _, Nat.le_refl _, nofun, nofun⟩

/-- What waits first in the queue is paid for. -/
theorem pop (affords : m.Affords p n) (waiting : m.queue ≠ []) :
    Spends p n (.ok m.pop.1, m.pop.2) := by
  obtain ⟨y, rest, queue⟩ := List.exists_cons_of_ne_nil waiting
  have popped : m.pop = (y, { m with queue := rest }) := by rw [Machine.pop, queue]
  rw [popped]
  rcases affords with ⟨frame, state, short⟩ | ⟨f, node, amid⟩
  · rw [queue, List.length_cons] at short
    exact ⟨rest.length, by rw [Nat.add_comm]; exact short, .inl ⟨frame, state, Nat.le_refl _⟩⟩
  · obtain ⟨k, rfl⟩ := Nat.exists_eq_add_of_le' (Nat.le_of_succ_le amid.two_le)
    have enough := amid.enough
    rw [queue, List.length_cons] at enough
    refine ⟨k, Nat.le_of_eq (Nat.add_comm 1 k), .inr ⟨f, node, { amid with enough := ?_ }⟩⟩
    change rest.length + _ ≤ _
    omega

/-- An option that is chosen leads on. -/
theorem choose {id : Nat} (affords : m.Affords p n) (chosen : m.choose id = .ok m') :
    m'.Affords p n := by
  obtain ⟨awaiting, cs, c, m₁, offered, found, moved, rfl⟩ := choose_eq_ok chosen
  rcases affords with ⟨-, stopped, -⟩ | ⟨f, node, amid⟩
  · rw [awaiting] at stopped
    cases stopped
  · have leads := amid.offered awaiting cs offered c (List.mem_of_find?_eq_some found)
    have defined := amid.moveTo_defined moved
    have length := Amid.moveTo_length amid.frame moved
    cases moveTo_eq moved
    exact amid.moved leads defined amid.program rfl rfl length rfl

end Affords

/-! ## A step -/

namespace Amid

/-- What an instruction that is fetched says of the place. -/
theorem fetched (amid : m.Amid p n f node) (drop : node.instructions.drop f.position = i :: rest) :
    f.position < node.instructions.length ∧
      node.instructions.drop (f.position + 1) = rest ∧
      ∀ target, i.target? = some target → p.LeadsTo f.node target := by
  refine ⟨?_, ?_, fun target leads => ?_⟩
  · refine Nat.lt_of_not_le fun passed => ?_
    rw [List.drop_eq_nil_of_le passed] at drop
    cases drop
  · rw [← List.tail_drop, drop, List.tail_cons]
  · have mem : i ∈ node.instructions.drop f.position := by
      rw [drop]
      exact List.mem_cons_self
    exact ⟨node, amid.found, i, List.mem_of_mem_drop mem, leads⟩

theorem finish (amid : m.Amid p n f node) (queue : m.queue = []) :
    Spends p n (.ok m.finish.pop.1, m.finish.pop.2) := by
  have marks : m.finish.queue = [.nodeComplete f.node, .dialogueComplete] := by
    simp [Machine.finish, leaving, queue, amid.frame]
  refine Affords.pop (.inl ⟨rfl, rfl, ?_⟩) ?_
  · rw [marks]
    exact amid.two_le
  · rw [marks]
    exact List.cons_ne_nil _ _

theorem passes (amid : m.Amid p n f node) (drop : node.instructions.drop f.position = i :: rest)
    (passes : m.Passes i m') : m'.Amid p n { f with position := f.position + 1 } node := by
  obtain ⟨there, -, leads⟩ := amid.fetched drop
  have passed := (amid.mono (Nat.le_succ n)).advance there
  cases passes with
  | addOption texts =>
    refine { passed with pending := fun c mem => ?_ }
    rcases List.mem_append.mp mem with mem | mem
    · exact passed.pending c mem
    · cases List.mem_singleton.mp mem
      exact leads _ rfl
  | showOptions | set | jumpIf => exact passed

theorem ends (amid : m.Amid p n f node) (drop : node.instructions.drop f.position = i :: rest)
    (ready : m.Ready) (ends : m.Ends i r) : Spends p n r := by
  obtain ⟨there, -, leads⟩ := amid.fetched drop
  obtain ⟨k, rfl⟩ := Nat.exists_eq_add_of_le' (Nat.le_of_succ_le amid.two_le)
  have paid := Nat.le_of_eq (Nat.add_comm 1 k)
  have passed := amid.advance there
  have kept := (amid.mono (Nat.le_succ _)).advance there
  cases ends with
  | line | command => exact ⟨k, paid, .inr ⟨_, node, passed⟩⟩
  | showOptions some =>
    refine ⟨k, paid, .inr ⟨_, node, { passed with pending := nofun, offered := ?_ }⟩⟩
    intro _ cs shown
    cases shown
    exact passed.pending
  | @jump _ target m₁ jumps moved =>
    have defined := kept.moveTo_defined moved
    have length := moveTo_length kept.frame moved
    have waiting : m₁.queue ≠ [] := fun empty => by simp [empty] at length
    have arrived : m₁.Affords p (k + 1) := by
      cases moveTo_eq moved
      exact kept.moved (leads target jumps.target?) defined kept.program rfl rfl length ready.state
    exact arrived.pop waiting
  | stop => exact kept.finish ready.queue
  | lost | failed => exact ⟨k + 1, Nat.le_of_eq (Nat.zero_add _), .inr ⟨_, node, kept⟩⟩

theorem executes (amid : m.Amid p n f node) (drop : node.instructions.drop f.position = is)
    (ready : m.Ready) (executes : m.Executes is r) : Spends p n r := by
  induction executes generalizing f with
  | finish m => exact amid.finish ready.queue
  | pass passes _ ih =>
    exact ih (amid.passes drop passes) (amid.fetched drop).2.1 (passes.ready ready)
  | ends ends => exact amid.ends drop ready ends

end Amid

/-- Whatever a step yields is taken from the allowance. -/
theorem Affords.steps (affords : m.Affords p n) (steps : m.Steps r) : Spends p n r := by
  cases steps with
  | queued waiting => exact affords.pop waiting
  | awaiting | stopped | unplaced => exact ⟨n, Nat.le_of_eq (Nat.zero_add n), affords⟩
  | executes ready remaining executes =>
    rcases affords with ⟨-, stopped, -⟩ | ⟨f, node, amid⟩
    · rw [ready.state] at stopped
      cases stopped
    · obtain ⟨p', f', node', program, frame, found, drop⟩ := remaining_eq_ok remaining
      cases program.symm.trans amid.program
      cases frame.symm.trans amid.frame
      cases found.symm.trans amid.found
      exact amid.executes drop.symm ready executes

end Machine

end DialogueEngine
