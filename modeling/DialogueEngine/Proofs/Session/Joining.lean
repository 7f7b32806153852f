import DialogueEngine.Coordinator.Operations
import DialogueEngine.Proofs.Program.Combining

/-! # The program of a session

A session without a program takes a list of programs in one by one just as the list is put together
to be loaded: with the same nodes in the end, or with the same error at the same program. A program
that is refused changes nothing.

* `Machine.nodes`, `Machine.add_nodes` — the nodes of a machine, as programs put together.
* `Session.addAll` — programs added one by one, up to the first error.
* `Session.addAll_of_mergeAll`, `Session.addAll_refused` — what comes of it.
* `Program.combine_exact` — programs put together, loaded, and added one by one.
-/

namespace DialogueEngine

variable {σ : Type} {acc p q r : Program} {ps before after : List Program} {e : ProgramError}

namespace Machine

/-- The nodes of the program; there are none without a program. -/
def nodes (m : Machine) : Dict String Node := m.program.elim .empty (·.nodes)

/-- A machine adds a program as it is put together with a program of the same nodes. -/
theorem add_nodes {m : Machine} (same : m.nodes = acc.nodes) (p : Program) :
    (m.add p).map nodes = (acc.merge p).map (·.nodes) := by
  unfold nodes at same
  unfold add
  cases held : m.program with
  | none =>
    rw [held] at same
    have bare : acc.nodes = Program.empty.nodes := same.symm
    rw [Program.merge_nodes_congr bare, Program.merge_empty_nodes]
    rfl
  | some old =>
    rw [held] at same
    have kept : acc.nodes = old.nodes := same.symm
    rw [Program.merge_nodes_congr kept]
    change ((old.merge p).map _).map nodes = _
    cases old.merge p <;> rfl

end Machine

namespace Session

variable {s : Session σ}

def nodes (s : Session σ) : Dict String Node := s.coordinator.machine.nodes

/-- Adds programs one after the other, up to the first error. -/
def addAll (s : Session σ) : List Program → Except Fault (Answer σ Unit)
  | [] => .ok (.ok (), s)
  | p :: ps => do
    match ← s.add p with
    | (.error e, s) => return (.error e, s)
    | (.ok (), s) => addAll s ps

theorem add_of_merge (same : s.nodes = acc.nodes) (merged : acc.merge p = .ok r) :
    ∃ s', s.add p = .ok (.ok (), s') ∧ s'.nodes = r.nodes := by
  have nodes := Machine.add_nodes same p
  rw [merged] at nodes
  unfold add
  cases added : s.coordinator.machine.add p with
  | error e =>
    rw [added] at nodes
    cases nodes
  | ok m =>
    rw [added] at nodes
    exact ⟨_, rfl, Except.ok.inj nodes⟩

theorem add_refused (same : s.nodes = acc.nodes) (failed : acc.merge p = .error e) :
    s.add p = .ok (.error (.program e), s) := by
  have nodes := Machine.add_nodes same p
  rw [failed] at nodes
  unfold add
  cases added : s.coordinator.machine.add p with
  | error e' =>
    rw [added] at nodes
    cases nodes
    rfl
  | ok m =>
    rw [added] at nodes
    cases nodes

theorem addAll_cons {s' : Session σ} (added : s.add p = .ok (.ok (), s')) :
    s.addAll (p :: ps) = s'.addAll ps := by
  rw [addAll, added]
  rfl

theorem addAll_stop {s' : Session σ} {e : EngineError} (refused : s.add p = .ok (.error e, s')) :
    s.addAll (p :: ps) = .ok (.error e, s') := by
  rw [addAll, refused]
  rfl

/-- Programs that can be put together can be added one by one, and the nodes are the same. -/
theorem addAll_of_mergeAll (same : s.nodes = acc.nodes) (merged : acc.mergeAll ps = .ok q) :
    ∃ s', s.addAll ps = .ok (.ok (), s') ∧ s'.nodes = q.nodes := by
  induction ps generalizing s acc with
  | nil =>
    cases merged
    exact ⟨s, rfl, same⟩
  | cons p ps ih =>
    cases first : acc.merge p with
    | error e =>
      rw [Program.mergeAll_cons_error first] at merged
      cases merged
    | ok r =>
      rw [Program.mergeAll_cons_ok first] at merged
      obtain ⟨s', added, nodes⟩ := add_of_merge same first
      rw [addAll_cons added]
      exact ih nodes merged

/-- A program that is refused stops those behind it. -/
theorem addAll_append_refused {s₁ : Session σ} (added : s.addAll before = .ok (.ok (), s₁))
    {s₂ : Session σ} {e : EngineError} (refused : s₁.add p = .ok (.error e, s₂)) :
    s.addAll (before ++ p :: after) = .ok (.error e, s₂) := by
  induction before generalizing s with
  | nil =>
    cases added
    exact addAll_stop refused
  | cons b before ih =>
    cases first : s.add b with
    | error fault =>
      rw [addAll, first] at added
      cases added
    | ok answer =>
      obtain ⟨_ | _, s'⟩ := answer
      · rw [addAll_stop first] at added
        cases added
      · rw [addAll_cons first] at added
        rw [List.cons_append, addAll_cons first]
        exact ih added

/-- A session that refuses a program stays as it is. -/
theorem add_refused_unchanged {s' : Session σ} {e : EngineError}
    (refused : s.add p = .ok (.error e, s')) : s' = s := by
  unfold add at refused
  split at refused <;> cases refused
  rfl

/-- A session that refuses to load programs stays as it is. -/
theorem load_refused_unchanged {s' : Session σ} {e : EngineError}
    (refused : s.load ps = .ok (.error e, s')) : s' = s := by
  unfold load refuse at refused
  split at refused
  · cases refused
    rfl
  · split at refused <;> cases refused
    rfl

theorem load_of_combine (idle : s.coordinator.isRunning = false)
    (combined : Program.combine ps = .ok q) :
    ∃ s', s.load ps = .ok (.ok (), s') ∧ s'.nodes = q.nodes := by
  unfold load
  rw [combined]
  simp only [idle, Bool.false_eq_true, if_false]
  exact ⟨_, rfl, rfl⟩

theorem load_refused (idle : s.coordinator.isRunning = false)
    (failed : Program.combine ps = .error e) : s.load ps = .ok (.error (.program e), s) := by
  unfold load
  rw [failed]
  simp only [idle, Bool.false_eq_true, if_false]

theorem nodes_of_none (unloaded : s.coordinator.machine.program = none) :
    s.nodes = Program.empty.nodes := by
  rw [nodes, Machine.nodes, unloaded]
  rfl

end Session

/-- Programs can be put together exactly if no two of them share a name. Every node of every program
    is then found unchanged under its name, there is no other, the order of the programs does not
    matter for the nodes, and to load them or to add them one by one to nothing gives these nodes.
    Otherwise the error tells the least name that the first program with a name of an earlier one
    shares with those before it; to load them gives the same error, and so does adding them one by
    one to nothing, at that program. A session that refuses programs stays as it is. -/
theorem Program.combine_exact (σ : Type) (ps : List Program) :
    ((∃ q, combine ps = .ok q) ↔ ps.Pairwise Apart) ∧
    (∀ q, combine ps = .ok q →
      (∀ name node, q.find? name = some node ↔ ∃ p ∈ ps, p.find? name = some node) ∧
      (∀ qs, qs.Perm ps → ∃ q', combine qs = .ok q' ∧ q'.nodes = q.nodes) ∧
      (∀ s : Session σ, s.coordinator.isRunning = false →
        ∃ s', s.load ps = .ok (.ok (), s') ∧ s'.nodes = q.nodes) ∧
      ∀ s : Session σ, s.coordinator.machine.program = none →
        ∃ s', s.addAll ps = .ok (.ok (), s') ∧ s'.nodes = q.nodes) ∧
    (∀ e, combine ps = .error e → ∃ before p after name,
      ps = before ++ p :: after ∧ FirstClash before p name ∧ e = .nodeConflict name ∧
      (∀ s : Session σ, s.coordinator.isRunning = false →
        s.load ps = .ok (.error (.program e), s)) ∧
      ∀ s : Session σ, s.coordinator.machine.program = none →
        ∃ s', s.addAll before = .ok (.ok (), s') ∧ s'.add p = .ok (.error (.program e), s') ∧
          s.addAll ps = .ok (.error (.program e), s')) ∧
    ∀ (s s' : Session σ) (e : EngineError),
      (s.load ps = .ok (.error e, s') → s' = s) ∧
      ∀ p, s.add p = .ok (.error e, s') → s' = s := by
  refine ⟨combine_isOk_iff, ?ok, ?error, ?refused⟩
  case ok =>
    intro q combined
    refine ⟨fun name node => find?_combine combined, fun qs perm => combine_perm combined perm,
      fun s idle => Session.load_of_combine idle combined, fun s unloaded => ?_⟩
    obtain ⟨r, merged, nodes⟩ := combine_eq_ok combined
    rw [← nodes]
    exact Session.addAll_of_mergeAll (Session.nodes_of_none unloaded) merged
  case error =>
    intro e failed
    obtain ⟨before, p, after, r, rfl, taken, refused⟩ := mergeAll_error (combine_eq_error.mp failed)
    obtain ⟨name, clash, told⟩ := FirstClash.of_merge_error taken refused
    refine ⟨before, p, after, name, rfl, clash, told,
      fun s idle => Session.load_refused idle failed, fun s unloaded => ?_⟩
    obtain ⟨s', added, nodes⟩ :=
      Session.addAll_of_mergeAll (Session.nodes_of_none unloaded) taken
    have stopped := Session.add_refused nodes refused
    exact ⟨s', added, stopped, Session.addAll_append_refused added stopped⟩
  case refused =>
    exact fun s s' e => ⟨Session.load_refused_unchanged, fun p => Session.add_refused_unchanged⟩

/-- Two programs that go together, and one that shares a name with each of them. -/
def Program.towns : List Program :=
  [⟨"first", Dict.ofList [("Start", ⟨[], [.runNode "Market"]⟩)]⟩,
    ⟨"second", Dict.ofList [("Market", ⟨[], [.stop]⟩)]⟩,
    ⟨"late", Dict.ofList [("Start", ⟨[], []⟩), ("Inn", ⟨[], []⟩), ("Market", ⟨[], []⟩)]⟩]

/-- The first two go together in both orders, and of the names that the third shares with them the
    lesser is told. -/
theorem Program.combine_exact_late :
    (∃ q, combine (towns.take 2) = .ok q ∧
      ∃ q', combine (towns.take 2).reverse = .ok q' ∧ q'.nodes = q.nodes) ∧
    combine towns = .error (.nodeConflict "Market") ∧
    ∃ before p after, towns = before ++ p :: after ∧ FirstClash before p "Market" := by
  have failed : combine towns = .error (.nodeConflict "Market") := rfl
  have combined : combine (towns.take 2) = .ok _ := rfl
  refine ⟨⟨_, combined, ?_⟩, failed, ?_⟩
  · exact ((combine_exact Unit (towns.take 2)).2.1 _ combined).2.1 _ (List.reverse_perm _)
  · obtain ⟨before, p, after, name, split, clash, told, -⟩ :=
      (combine_exact Unit towns).2.2.1 _ failed
    cases told
    exact ⟨before, p, after, split, clash⟩

end DialogueEngine
