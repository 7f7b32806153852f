import DialogueEngine.Diagnostic.Check
import DialogueEngine.Proofs.Program.Merging

/-! # Targets of a program

The names that a program leads to, and what a check says of those without node.

* `Program.mem_targets` — the names that instructions lead to.
* `Program.Linked` — every name that the program leads to is that of a node.
* `Program.check_hasErrors` — what a check counts as an error.
-/

namespace DialogueEngine

namespace Report

theorem hasErrors_iff {r : Report} : r.hasErrors = true ↔ ∃ d ∈ r, d.level = .error := by
  simp [hasErrors, errors, count, List.length_pos_iff_exists_mem]

@[simp] theorem hasErrors_nil : hasErrors [] = false := rfl

@[simp] theorem hasErrors_append (r r' : Report) :
    hasErrors (r ++ r') = (r.hasErrors || r'.hasErrors) := by
  rw [Bool.eq_iff_iff, Bool.or_eq_true]
  simp only [hasErrors_iff, List.mem_append, or_and_right, exists_or]

theorem hasErrors_flatMap {α : Type} {l : List α} {f : α → Report} :
    hasErrors (l.flatMap f) = true ↔ ∃ a ∈ l, (f a).hasErrors = true := by
  simp only [hasErrors_iff, List.mem_flatMap]
  constructor
  · rintro ⟨d, ⟨a, ha, hd⟩, grave⟩
    exact ⟨a, ha, d, hd, grave⟩
  · rintro ⟨a, ha, d, hd, grave⟩
    exact ⟨d, ⟨a, ha, hd⟩, grave⟩

end Report

namespace Program

variable {p q : Program} {name target : String}

/-! ## What a program leads to -/

theorem mem_targets : target ∈ p.targets ↔
    ∃ name node, p.find? name = some node ∧ ∃ i ∈ node.instructions, i.target? = some target := by
  rw [targets, Dict.mem_keys_ofList]
  simp only [Node.targets, Dict.values, List.map_map, Function.comp_def, List.map_id',
    List.mem_flatMap, List.mem_map, List.mem_filterMap]
  constructor
  · rintro ⟨_, ⟨⟨name, node⟩, found, rfl⟩, i, hi, leads⟩
    exact ⟨name, node, Dict.mem_entries.mp found, i, hi, leads⟩
  · rintro ⟨name, node, found, i, hi, leads⟩
    exact ⟨_, ⟨(name, node), Dict.mem_entries.mpr found, rfl⟩, i, hi, leads⟩

/-- Every name that the program leads to is that of a node. -/
def Linked (p : Program) : Prop := ∀ target ∈ p.targets, p.defines target = true

theorem Linked.defines {node : Node} {i : Instruction} (linked : p.Linked)
    (found : p.find? name = some node) (hi : i ∈ node.instructions)
    (leads : i.target? = some target) : p.defines target = true :=
  linked target (mem_targets.mpr ⟨name, node, found, i, hi, leads⟩)

/-! ## Errors of a check -/

theorem checkTarget_hasErrors (p : Program) (node : String) (index : Nat) (i : Instruction) :
    (p.checkTarget node index i).hasErrors = true ↔
      ∃ target, i.target? = some target ∧ p.defines target = false := by
  unfold checkTarget
  cases i.target? with
  | none => simp
  | some target =>
    cases h : p.defines target <;>
      simp [h, Report.hasErrors_iff, Diagnostic.withDetail, Diagnostic.at', Diagnostic.ofProgram]

theorem checkOptions_hasErrors (p : Program) (node : String) (index added : Nat)
    (i : Instruction) : (p.checkOptions node index added i).hasErrors = false := by
  unfold checkOptions
  split <;> rfl

theorem checkInstructions_hasErrors (p : Program) (node : String) (index added : Nat)
    (is : List Instruction) :
    (p.checkInstructions node index added is).hasErrors = true ↔
      ∃ i ∈ is, ∃ target, i.target? = some target ∧ p.defines target = false := by
  induction is generalizing index added with
  | nil => simp [checkInstructions]
  | cons i rest ih =>
    rw [checkInstructions, Report.hasErrors_append, Report.hasErrors_append,
      checkOptions_hasErrors, Bool.or_false, Bool.or_eq_true, checkTarget_hasErrors, ih]
    simp

theorem checkReachable_hasErrors (p : Program) (start : String) :
    (p.checkReachable start).hasErrors = false := by
  rw [Bool.eq_false_iff, ne_eq, Report.hasErrors_iff]
  rintro ⟨d, hd, grave⟩
  unfold checkReachable at hd
  split at hd
  · obtain ⟨name, _, rfl⟩ := List.mem_map.mp hd
    cases grave
  · cases hd

theorem checkStart_hasErrors (p : Program) (start : String) :
    (p.checkStart start).hasErrors = true ↔ p.defines start = false := by
  unfold checkStart
  cases h : p.defines start <;> simp [Report.hasErrors_iff, Diagnostic.ofProgram]

/-- The errors of a check are a start node that does not exist and targets that do not. -/
theorem check_hasErrors (p : Program) (start : String) :
    (p.check start).hasErrors = true ↔
      p.defines start = false ∨ ∃ target ∈ p.targets, p.defines target = false := by
  rw [check, Report.hasErrors_append, Report.hasErrors_append, checkReachable_hasErrors,
    Bool.or_false, Bool.or_eq_true, checkStart_hasErrors, Report.hasErrors_flatMap]
  refine or_congr_right ?_
  simp only [checkInstructions_hasErrors, mem_targets]
  constructor
  · rintro ⟨⟨name, node⟩, found, i, hi, target, leads, missing⟩
    exact ⟨target, ⟨name, node, Dict.mem_entries.mp found, i, hi, leads⟩, missing⟩
  · rintro ⟨target, ⟨name, node, found, i, hi, leads⟩, missing⟩
    exact ⟨(name, node), Dict.mem_entries.mpr found, i, hi, target, leads, missing⟩

/-- A check without errors has found the start node, and a node for every target. -/
theorem check_clean {start : String} (clean : (p.check start).hasErrors = false) :
    p.defines start = true ∧ p.Linked := by
  have sound := mt (check_hasErrors p start).mpr (Bool.eq_false_iff.mp clean)
  obtain ⟨here, linked⟩ := not_or.mp sound
  refine ⟨eq_true_of_ne_false here, fun target ht => ?_⟩
  exact eq_true_of_ne_false fun missing => linked ⟨target, ht, missing⟩

end Program

end DialogueEngine
