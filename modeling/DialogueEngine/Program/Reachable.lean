import DialogueEngine.Program.Basic

/-! # Reachable nodes

Which nodes of a program can be reached from a start node along the instructions that lead from
node to node.

* `Program.visit` — the search, with the names found and the names still to be looked at.
* `Program.reachable` — the names found from a start node; some may name no node.
-/

namespace DialogueEngine.Program

/-- The names that a node leads to; a name without node leads nowhere. -/
def successors (p : Program) (name : String) : List String :=
  match p.find? name with
  | some node => node.targets
  | none => []

def unvisited (p : Program) (found : List String) : List String :=
  p.names.filter fun name => decide (name ∉ found)

theorem find?_eq_some_mem_names {p : Program} {name : String} {node : Node}
    (h : p.find? name = some node) : name ∈ p.names := by
  have key : ∀ l : List (String × Node), Entries.find? name l = some node →
      name ∈ l.map (·.1) := by
    intro l
    induction l with
    | nil => intro h; simp [Entries.find?] at h
    | cons e l ih =>
      obtain ⟨k, x⟩ := e
      intro h
      by_cases hk : name = k
      · simp [hk]
      · simp only [Entries.find?, hk, if_false] at h
        exact List.mem_cons_of_mem _ (ih h)
  exact key p.nodes.entries h

theorem unvisited_cons_le (p : Program) (name : String) (found : List String) :
    (p.unvisited (name :: found)).length ≤ (p.unvisited found).length := by
  have hsub : p.unvisited (name :: found) =
      (p.unvisited found).filter (fun n => decide (n ≠ name)) := by
    simp only [unvisited, List.filter_filter]
    refine List.filter_congr fun n _ => ?_
    by_cases h1 : n = name <;> by_cases h2 : n ∈ found <;> simp [h1, h2]
  rw [hsub]
  exact List.length_filter_le _ _

theorem unvisited_cons_lt {p : Program} {name : String} {found : List String} {node : Node}
    (hnew : name ∉ found) (hnode : p.find? name = some node) :
    (p.unvisited (name :: found)).length < (p.unvisited found).length := by
  have hsub : p.unvisited (name :: found) =
      (p.unvisited found).filter (fun n => decide (n ≠ name)) := by
    simp only [unvisited, List.filter_filter]
    refine List.filter_congr fun n _ => ?_
    by_cases h1 : n = name <;> by_cases h2 : n ∈ found <;> simp [h1, h2]
  have hmem : name ∈ p.unvisited found := by
    simp [unvisited, find?_eq_some_mem_names hnode, hnew]
  rw [hsub]
  exact List.length_filter_lt_length_iff_exists.mpr ⟨name, hmem, by simp⟩

/-- Looks at one name after the other: a new one is noted, and the names that it leads to are
    looked at next. Each node is entered once, so the search ends. -/
def visit (p : Program) (found : List String) : List String → List String
  | [] => found
  | name :: rest =>
    if _old : name ∈ found then visit p found rest
    else
      match _node : p.find? name with
      -- noted all the same: the jump to it is reported elsewhere
      | none => visit p (name :: found) rest
      | some node => visit p (name :: found) (node.targets ++ rest)
  termination_by stack => ((p.unvisited found).length, stack.length)
  decreasing_by
    · exact Prod.Lex.right _ (by simp)
    · rcases Nat.lt_or_eq_of_le (unvisited_cons_le p name found) with h | h
      · exact Prod.Lex.left _ _ h
      · rw [h]; exact Prod.Lex.right _ (by simp)
    · exact Prod.Lex.left _ _ (unvisited_cons_lt _old _node)

def reachable (p : Program) (start : String) : List String := p.visit [] [start]

end DialogueEngine.Program
