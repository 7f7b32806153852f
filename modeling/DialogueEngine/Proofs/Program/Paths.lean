import DialogueEngine.Proofs.Program.Targets
import Mathlib.Logic.Function.Iterate
import Mathlib.Logic.Relation

/-! # Paths through a program

The search for reachable nodes comes to its end with exactly the names that a path leads to, so the
check warns of exactly the nodes that no path leads to.

* `Program.Path` — a finite path along the instructions of nodes.
* `Program.look` — one round of the search.
* `Program.mem_reachable` — what the search finds.
* `Program.mem_check_unreachable` — what the check warns of.
-/

namespace DialogueEngine

namespace Program

variable {p : Program} {start name target : String} {found stack : List String}

/-! ## Paths -/

/-- An instruction of a node leads to a name, which may be that of no node. -/
def LeadsTo (p : Program) (name target : String) : Prop :=
  ∃ node, p.find? name = some node ∧ ∃ i ∈ node.instructions, i.target? = some target

/-- A finite path leads from one name to another. -/
abbrev Path (p : Program) : String → String → Prop := Relation.ReflTransGen p.LeadsTo

theorem mem_successors : target ∈ p.successors name ↔ p.LeadsTo name target := by
  unfold successors LeadsTo
  cases p.find? name with
  | none => simp
  | some node => simp [Node.targets]

/-! ## The search -/

/-- One round of the search: takes a name, and notes it and where it leads to if it is new. -/
def look (p : Program) : List String × List String → List String × List String
  | (found, []) => (found, [])
  | (found, name :: rest) =>
    if name ∈ found then (found, rest) else (name :: found, p.successors name ++ rest)

theorem visit_nil : p.visit found [] = found := by
  rw [visit]

theorem visit_old (old : name ∈ found) : p.visit found (name :: stack) = p.visit found stack := by
  rw [visit, dif_pos old]

theorem visit_new (new : name ∉ found) :
    p.visit found (name :: stack) = p.visit (name :: found) (p.successors name ++ stack) := by
  rw [visit, dif_neg new, successors]
  cases p.find? name <;> simp

/-- Whatever holds before a round that looks at an old name, or at a new one, holds of the search. -/
theorem visit_induction {motive : List String → List String → Prop}
    (done : ∀ found, motive found [])
    (old : ∀ found name rest, name ∈ found → motive found rest → motive found (name :: rest))
    (new : ∀ found name rest, name ∉ found →
      motive (name :: found) (p.successors name ++ rest) → motive found (name :: rest))
    (found stack : List String) : motive found stack := by
  induction found, stack using visit.induct (p := p) with
  | case1 found => exact done found
  | case2 found name rest here ih => exact old found name rest here ih
  | case3 found name rest fresh missing ih =>
    apply new found name rest fresh
    simpa [successors, missing] using ih
  | case4 found name rest fresh node there ih =>
    apply new found name rest fresh
    simpa [successors, there] using ih

/-- The search ends after finitely many rounds. -/
theorem look_rounds (p : Program) (found stack : List String) :
    ∃ rounds, p.look^[rounds] (found, stack) = (p.visit found stack, []) := by
  induction found, stack using visit_induction (p := p) with
  | done found => exact ⟨0, by simp [visit_nil]⟩
  | old found name rest here ih =>
    obtain ⟨rounds, ends⟩ := ih
    refine ⟨rounds + 1, ?_⟩
    simpa [look, here, visit_old here] using ends
  | new found name rest fresh ih =>
    obtain ⟨rounds, ends⟩ := ih
    refine ⟨rounds + 1, ?_⟩
    simpa [look, fresh, visit_new fresh] using ends

/-- What holds at the beginning, and wherever a name leads to, holds of every name found. -/
theorem visit_all {Q : String → Prop} (leads : ∀ a b, Q a → p.LeadsTo a b → Q b)
    (old : ∀ n ∈ found, Q n) (waiting : ∀ n ∈ stack, Q n) : ∀ n ∈ p.visit found stack, Q n := by
  induction found, stack using visit_induction (p := p) with
  | done found => simpa [visit_nil] using old
  | old found name rest here ih =>
    rw [visit_old here]
    exact ih old fun n hn => waiting n (List.mem_cons_of_mem _ hn)
  | new found name rest fresh ih =>
    have this := waiting name List.mem_cons_self
    rw [visit_new fresh]
    apply ih
    · simpa [this] using old
    · intro n hn
      rcases List.mem_append.mp hn with hn | hn
      · exact leads name n this (mem_successors.mp hn)
      · exact waiting n (List.mem_cons_of_mem _ hn)

/-- Nothing is lost on the way. -/
theorem mem_visit (known : name ∈ found ∨ name ∈ stack) : name ∈ p.visit found stack := by
  -- no round takes a name away from the two lists together
  induction found, stack using visit_induction (p := p) with
  | done found => simpa [visit_nil] using known
  | old found here rest old ih =>
    rw [visit_old old]
    apply ih
    by_cases same : name = here
    · exact .inl (same ▸ old)
    · simpa [same] using known
  | new found here rest fresh ih =>
    rw [visit_new fresh]
    apply ih
    by_cases same : name = here
    · exact .inl (same ▸ List.mem_cons_self)
    · simp only [List.mem_cons, same, false_or] at known
      exact known.imp (List.mem_cons_of_mem _) (List.mem_append_right _)

/-- If no name found so far leads to one that is forgotten, none does in the end. -/
theorem visit_leads
    (covered : ∀ a b, a ∈ found → p.LeadsTo a b → b ∈ found ∨ b ∈ stack) :
    ∀ a b, a ∈ p.visit found stack → p.LeadsTo a b → b ∈ p.visit found stack := by
  induction found, stack using visit_induction (p := p) with
  | done found => simpa [visit_nil] using covered
  | old found name rest old ih =>
    rw [visit_old old]
    apply ih
    intro a b ha leads
    rcases covered a b ha leads with hb | hb
    · exact .inl hb
    · rcases List.mem_cons.mp hb with rfl | hb
      · exact .inl old
      · exact .inr hb
  | new found name rest fresh ih =>
    rw [visit_new fresh]
    apply ih
    intro a b ha leads
    rcases List.mem_cons.mp ha with rfl | ha
    -- what the new name leads to waits from now on
    · exact .inr (List.mem_append_left _ (mem_successors.mpr leads))
    · rcases covered a b ha leads with hb | hb
      · exact .inl (List.mem_cons_of_mem _ hb)
      · rcases List.mem_cons.mp hb with rfl | hb
        · exact .inl List.mem_cons_self
        · exact .inr (List.mem_append_right _ hb)

/-- The names found are those that a path leads to. -/
theorem mem_reachable : name ∈ p.reachable start ↔ p.Path start name := by
  constructor
  · apply visit_all (Q := p.Path start)
    · exact fun a b path leads => path.tail leads
    · simp
    · simp [Relation.ReflTransGen.refl]
  · intro path
    induction path with
    | refl => exact mem_visit (.inr List.mem_cons_self)
    | tail _ leads ih => exact visit_leads (by simp) _ _ ih leads

/-! ## Warnings -/

/-- The warning that a node cannot be reached. -/
def unreachable (p : Program) (name : String) : Diagnostic :=
  (Diagnostic.ofProgram .warn p.name s!"节点不可达: {name}").at' name none

theorem checkStart_ne_unreachable {d : Diagnostic} (h : d ∈ p.checkStart start) :
    d ≠ p.unreachable name := by
  unfold checkStart at h
  split at h
  · cases h
  · cases List.mem_singleton.mp h
    exact fun same => by cases congrArg Diagnostic.level same

/-- What is reported of an instruction has its place. -/
theorem checkInstructions_index {node : String} {index added : Nat} {is : List Instruction}
    {d : Diagnostic} (h : d ∈ p.checkInstructions node index added is) : d.index ≠ none := by
  induction is generalizing index added with
  | nil => cases h
  | cons i rest ih =>
    simp only [checkInstructions, List.mem_append] at h
    rcases h with (h | h) | h
    · unfold checkTarget at h
      cases jumps : i.target? with
      | none => simp [jumps] at h
      | some target =>
        simp only [jumps] at h
        split at h
        · cases h
        · cases List.mem_singleton.mp h
          exact Option.some_ne_none _
    · unfold checkOptions at h
      split at h
      · cases List.mem_singleton.mp h
        exact Option.some_ne_none _
      · cases h
    · exact ih h

theorem mem_checkReachable (defined : p.defines start = true) :
    p.unreachable name ∈ p.checkReachable start ↔ name ∈ p.names ∧ ¬ p.Path start name := by
  have told (other : String) (same : p.unreachable other = p.unreachable name) : other = name :=
    Option.some.inj (congrArg Diagnostic.node same)
  rw [checkReachable, if_pos defined]
  simp only [List.mem_map, List.mem_filter, decide_eq_true_eq, mem_reachable]
  constructor
  · rintro ⟨other, ⟨here, lost⟩, same⟩
    cases told other same
    exact ⟨here, lost⟩
  · rintro ⟨here, lost⟩
    exact ⟨name, ⟨here, lost⟩, rfl⟩

/-- The check warns of the nodes that no path leads to. -/
theorem mem_check_unreachable (defined : p.defines start = true) :
    p.unreachable name ∈ p.check start ↔ name ∈ p.names ∧ ¬ p.Path start name := by
  rw [← mem_checkReachable defined, check, List.mem_append, List.mem_append]
  constructor
  · rintro ((h | h) | h)
    · exact absurd rfl (checkStart_ne_unreachable h)
    · obtain ⟨e, _, h⟩ := List.mem_flatMap.mp h
      exact absurd rfl (checkInstructions_index h)
    · exact h
  · exact .inr

end Program

end DialogueEngine
