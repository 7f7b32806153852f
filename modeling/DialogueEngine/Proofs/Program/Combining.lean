import DialogueEngine.Proofs.Program.Merging

/-! # Many programs put together

Programs can be put together if no two of them share a name. Otherwise the first program that shares
a name with an earlier one stops it, and the least name that it shares is told.

* `Program.Apart` — two programs without a common name.
* `Program.merge_nodes_congr`, `Program.merge_error` — what putting two programs together depends
  on, and the name that is told if it fails.
* `Program.mergeAll` — programs taken in one after the other.
* `Program.FirstClash` — where a list of programs fails.
* `Program.combine_isOk_iff`, `Program.find?_combine`, `Program.combine_perm`,
  `Program.mergeAll_error` — what comes of putting many programs together.
-/

namespace DialogueEngine.Program

variable {p q r acc : Program} {ps qs before : List Program} {name : String} {node : Node}
  {e : ProgramError}

/-! ## Two programs -/

/-- The programs share no name. -/
def Apart (p q : Program) : Prop := ∀ name, p.defines name = true → q.defines name = false

theorem Apart.symm (apart : p.Apart q) : q.Apart p := by
  intro name defined
  rw [Bool.eq_false_iff]
  intro shared
  rw [apart name shared] at defined
  cases defined

theorem merge_isOk_iff : (∃ both, p.merge q = .ok both) ↔ p.Apart q := by
  rcases merge_cases p q with ⟨apart, merged⟩ | ⟨node, defined, shared, conflict⟩
  · exact iff_of_true merged apart
  · refine iff_of_false ?_ fun apart => ?_
    · rintro ⟨both, merged⟩
      rw [conflict] at merged
      cases merged
    · rw [apart node defined] at shared
      cases shared

theorem find?_merge_iff (merged : p.merge q = .ok r) :
    r.find? name = some node ↔ p.find? name = some node ∨ q.find? name = some node := by
  rw [find?_merge merged]
  cases there : q.find? name with
  | none => simp
  | some _ => simp [merge_disjoint merged (defines_iff.mpr ⟨_, there⟩)]

theorem defines_merge (merged : p.merge q = .ok r) :
    r.defines name = true ↔ p.defines name = true ∨ q.defines name = true := by
  simp only [defines_iff, find?_merge_iff merged, exists_or]

theorem apart_merge (merged : p.merge q = .ok r) {other : Program} :
    r.Apart other ↔ p.Apart other ∧ q.Apart other := by
  simp only [Apart, defines_merge merged, or_imp, forall_and]

theorem names_sorted (p : Program) : p.names.Pairwise (· < ·) := by
  unfold names Dict.keys
  rw [List.pairwise_map]
  exact p.nodes.sorted.imp of_decide_eq_true

/-- The least name that both programs define is told. -/
theorem merge_error (failed : p.merge q = .error e) :
    ∃ name, e = .nodeConflict name ∧ p.defines name = true ∧ q.defines name = true ∧
      ∀ other, p.defines other = true → q.defines other = true → name ≤ other := by
  unfold merge at failed
  split at failed
  · rename_i name first
    cases failed
    refine ⟨name, rfl, List.find?_some first, mem_names.mp (List.mem_of_find?_eq_some first), ?_⟩
    intro other known shared
    obtain ⟨-, earlier, later, split, fresh⟩ := List.find?_eq_some_iff_append.mp first
    have sorted := q.names_sorted
    have named := mem_names.mpr shared
    rw [split] at sorted named
    -- nothing before the name that is told is shared, and all behind it is greater
    rcases List.mem_append.mp named with here | here
    · have new := fresh other here
      rw [known] at new
      cases new
    · rcases List.mem_cons.mp here with rfl | there
      · exact Std.le_refl _
      · exact Std.le_of_lt
          ((List.pairwise_cons.mp (List.pairwise_append.mp sorted).2.1).1 other there)
  · cases failed

/-- Only the nodes matter when programs are put together. -/
theorem merge_nodes_congr (same : p.nodes = q.nodes) (other : Program) :
    (p.merge other).map (·.nodes) = (q.merge other).map (·.nodes) := by
  unfold merge defines
  rw [same]
  split <;> rfl

/-- A program alone is as if it were added to nothing. -/
theorem merge_empty_nodes (p : Program) : (empty.merge p).map (·.nodes) = .ok p.nodes := by
  have apart : empty.Apart p := by
    intro name defined
    cases defined
  obtain ⟨both, merged⟩ := merge_isOk_iff.mpr apart
  have nodes : both.nodes = p.nodes := by
    apply Dict.ext_find?
    intro name
    exact find?_merge merged name
  rw [merged, ← nodes]
  rfl

/-! ## Programs one after the other -/

/-- Takes programs in, one after the other. -/
def mergeAll (acc : Program) (ps : List Program) : Except ProgramError Program :=
  ps.foldlM merge acc

theorem mergeAll_cons_ok (merged : acc.merge p = .ok r) :
    acc.mergeAll (p :: ps) = r.mergeAll ps := by
  rw [mergeAll, List.foldlM_cons, merged]
  rfl

theorem mergeAll_cons_error (failed : acc.merge p = .error e) :
    acc.mergeAll (p :: ps) = .error e := by
  rw [mergeAll, List.foldlM_cons, failed]
  rfl

/-- All can be taken in if no two of them, and none of them and what is there, share a name. -/
theorem mergeAll_isOk_iff :
    (∃ q, acc.mergeAll ps = .ok q) ↔ (∀ p ∈ ps, acc.Apart p) ∧ ps.Pairwise Apart := by
  induction ps generalizing acc with
  | nil => exact iff_of_true ⟨acc, rfl⟩ (by simp)
  | cons p ps ih =>
    rw [List.forall_mem_cons, List.pairwise_cons, ← merge_isOk_iff (p := acc)]
    cases merged : acc.merge p with
    | error e => simp [mergeAll_cons_error merged]
    | ok r =>
      rw [mergeAll_cons_ok merged, ih]
      simp only [apart_merge merged]
      grind

/-- What is found in the end was there at the beginning, or is in one of the programs. -/
theorem find?_mergeAll (merged : acc.mergeAll ps = .ok q) :
    q.find? name = some node ↔
      acc.find? name = some node ∨ ∃ p ∈ ps, p.find? name = some node := by
  induction ps generalizing acc with
  | nil =>
    cases merged
    simp
  | cons p ps ih =>
    cases first : acc.merge p with
    | error e =>
      rw [mergeAll_cons_error first] at merged
      cases merged
    | ok r =>
      rw [mergeAll_cons_ok first] at merged
      rw [ih merged, find?_merge_iff first, or_assoc]
      simp

/-- Where programs cannot be taken in, there is a first one that cannot. -/
theorem mergeAll_error (failed : acc.mergeAll ps = .error e) :
    ∃ before p after r, ps = before ++ p :: after ∧ acc.mergeAll before = .ok r ∧
      r.merge p = .error e := by
  induction ps generalizing acc with
  | nil => cases failed
  | cons p ps ih =>
    cases first : acc.merge p with
    | error e' =>
      rw [mergeAll_cons_error first] at failed
      cases failed
      exact ⟨[], p, ps, acc, rfl, rfl, first⟩
    | ok r =>
      rw [mergeAll_cons_ok first] at failed
      obtain ⟨before, p', after, r', rfl, taken, refused⟩ := ih failed
      exact ⟨p :: before, p', after, r', rfl, by rw [mergeAll_cons_ok first, taken], refused⟩

/-! ## Many programs -/

/-- The programs before `p` share no name among each other, and `name` is the least name that `p`
    shares with one of them. -/
structure FirstClash (before : List Program) (p : Program) (name : String) : Prop where
  apart : before.Pairwise Apart
  here : p.defines name = true
  earlier : ∃ q ∈ before, q.defines name = true
  least : ∀ other, p.defines other = true → (∃ q ∈ before, q.defines other = true) → name ≤ other

theorem empty_find? : empty.find? name = none := rfl

/-- What programs that have been put together define. -/
theorem defines_mergeAll_empty (merged : empty.mergeAll ps = .ok q) :
    q.defines name = true ↔ ∃ p ∈ ps, p.defines name = true := by
  simp only [defines_iff, find?_mergeAll merged, empty_find?, reduceCtorEq, false_or]
  grind

theorem FirstClash.of_merge_error (merged : empty.mergeAll before = .ok r)
    (failed : r.merge p = .error e) :
    ∃ name, FirstClash before p name ∧ e = .nodeConflict name := by
  obtain ⟨name, rfl, known, shared, least⟩ := merge_error failed
  simp only [defines_mergeAll_empty merged] at known least
  exact ⟨name, ⟨(mergeAll_isOk_iff.mp ⟨r, merged⟩).2, shared, known, fun other here earlier =>
    least other earlier here⟩, rfl⟩

theorem combine_eq_ok (combined : combine ps = .ok q) :
    ∃ r, empty.mergeAll ps = .ok r ∧ r.nodes = q.nodes := by
  unfold combine at combined
  change (empty.mergeAll ps).map _ = _ at combined
  cases merged : empty.mergeAll ps with
  | error e =>
    rw [merged] at combined
    cases combined
  | ok r =>
    rw [merged] at combined
    cases combined
    exact ⟨r, rfl, rfl⟩

theorem combine_eq_error : combine ps = .error e ↔ empty.mergeAll ps = .error e := by
  unfold combine
  change (empty.mergeAll ps).map _ = _ ↔ _
  cases empty.mergeAll ps with
  | error e' => exact Iff.rfl
  | ok r => simp [Except.map]

/-- Programs can be put together if no two of them share a name, and only then. -/
theorem combine_isOk_iff : (∃ q, combine ps = .ok q) ↔ ps.Pairwise Apart := by
  have apart : (∃ q, empty.mergeAll ps = .ok q) ↔ ps.Pairwise Apart := by
    rw [mergeAll_isOk_iff, and_iff_right]
    intro p _ name defined
    cases defined
  rw [← apart]
  constructor
  · rintro ⟨q, combined⟩
    obtain ⟨r, merged, -⟩ := combine_eq_ok combined
    exact ⟨r, merged⟩
  · rintro ⟨r, merged⟩
    cases combined : combine ps with
    | ok q => exact ⟨q, rfl⟩
    | error e =>
      rw [combine_eq_error.mp combined] at merged
      cases merged

/-- Every node of every program is found, and no other. -/
theorem find?_combine (combined : combine ps = .ok q) :
    q.find? name = some node ↔ ∃ p ∈ ps, p.find? name = some node := by
  obtain ⟨r, merged, nodes⟩ := combine_eq_ok combined
  have same : q.find? name = r.find? name := by rw [find?, find?, nodes]
  rw [same, find?_mergeAll merged]
  simp [empty_find?]

/-- The order of the programs does not matter for the nodes. -/
theorem combine_perm (combined : combine ps = .ok q) (perm : qs.Perm ps) :
    ∃ q', combine qs = .ok q' ∧ q'.nodes = q.nodes := by
  have apart := combine_isOk_iff.mp ⟨q, combined⟩
  obtain ⟨q', combined'⟩ := combine_isOk_iff.mpr ((perm.pairwise_iff Apart.symm).mpr apart)
  refine ⟨q', combined', Dict.ext_find? fun name => Option.ext fun node => ?_⟩
  change q'.find? name = some node ↔ q.find? name = some node
  simp only [find?_combine combined, find?_combine combined', perm.mem_iff]

end DialogueEngine.Program
