import DialogueEngine.Program.Basic

/-! # Programs put together

What the look-up of nodes finds in programs that have been put together.

* `Dict.mem_entries`, `Dict.mem_keys`, `Dict.mem_keys_ofList` — what a dictionary holds, and what
  it finds.
* `Dict.ext_find?` — a dictionary is known by what it finds.
* `Dict.find?_insertAll` — look-up after many insertions.
* `Program.Extends` — a program with every node of another.
* `Program.find?_merge`, `Program.merge_extends` — programs put together.
* `Program.merge_cases` — when they can be.
-/

namespace DialogueEngine

variable {κ α : Type}

/-! ## Look-up in dictionaries -/

namespace Entries

variable {l : List (κ × α)} {k : κ} {x : α}

theorem Sorted.keys_ne [Key κ] {e : κ × α} (sorted : Sorted (e :: l)) :
    ∀ e' ∈ l, e'.1 ≠ e.1 := by
  intro e' he' same
  have before := (List.pairwise_cons.mp sorted).1 e' he'
  rw [same, Key.before_irrefl] at before
  cases before

theorem Sorted.nodup [Key κ] (sorted : Sorted l) : l.Nodup :=
  List.Pairwise.imp (fun before same => by
    rw [same, Key.before_irrefl] at before
    cases before) sorted

theorem find?_eq_none [DecidableEq κ] : find? k l = none ↔ ∀ e ∈ l, e.1 ≠ k := by
  induction l with
  | nil => simp [find?]
  | cons e l ih =>
    by_cases same : k = e.1
    · simp [find?, same]
    · simp [find?, same, ih, Ne.symm same]

theorem find?_eq_some [Key κ] [DecidableEq κ] (sorted : Sorted l) :
    find? k l = some x ↔ (k, x) ∈ l := by
  induction l with
  | nil => simp [find?]
  | cons e l ih =>
    obtain ⟨k', x'⟩ := e
    by_cases same : k = k'
    · subst same
      have alone : (k, x) ∉ l := fun h => sorted.keys_ne _ h rfl
      simp [find?, alone, eq_comm]
    · simp [find?, same, ih sorted.tail]

end Entries

namespace Dict

variable [Key κ] [DecidableEq κ] {d : Dict κ α} {k : κ} {x : α}

theorem mem_entries : (k, x) ∈ d.entries ↔ d.find? k = some x :=
  (Entries.find?_eq_some d.sorted).symm

/-- A dictionary is known by what it finds. -/
theorem ext_find? {d' : Dict κ α} (same : ∀ k, d.find? k = d'.find? k) : d = d' := by
  have perm : d.entries.Perm d'.entries := by
    rw [List.perm_ext_iff_of_nodup d.sorted.nodup d'.sorted.nodup]
    rintro ⟨k, x⟩
    rw [mem_entries, mem_entries, same]
  have entries : d.entries = d'.entries :=
    perm.eq_of_pairwise
      (fun e e' _ _ before after => by
        have round := Key.before_trans before after
        rw [Key.before_irrefl] at round
        cases round)
      d.sorted d'.sorted
  cases d
  cases d'
  simp_all

theorem mem_keys : k ∈ d.keys ↔ d.contains k = true := by
  rw [contains, Option.isSome_iff_ne_none, ne_eq, find?, Entries.find?_eq_none]
  simp [keys]

theorem contains_eq_false : d.contains k = false ↔ d.find? k = none := by
  rw [← Bool.not_eq_true, contains, Option.not_isSome_iff_eq_none]

theorem contains_insert (d : Dict κ α) (k k' : κ) (x : α) :
    (d.insert k x).contains k' = true ↔ k' = k ∨ d.contains k' = true := by
  rw [contains, find?_insert]
  split <;> simp [contains, *]

theorem contains_insertAll (d : Dict κ α) (pairs : List (κ × α)) :
    (d.insertAll pairs).contains k = true ↔ d.contains k = true ∨ k ∈ pairs.map (·.1) := by
  induction pairs generalizing d with
  | nil => simp [insertAll]
  | cons e pairs ih =>
    change ((d.insert e.1 e.2).insertAll pairs).contains k = true ↔ _
    rw [ih, contains_insert, List.map_cons, List.mem_cons, or_assoc, or_left_comm]

theorem mem_keys_ofList {pairs : List (κ × α)} :
    k ∈ (ofList pairs).keys ↔ k ∈ pairs.map (·.1) := by
  rw [mem_keys, ofList, contains_insertAll]
  simp [contains, find?, empty, Entries.find?]

/-- Of pairs with different keys each is found, and besides them what was there before. -/
theorem find?_insertAll (d : Dict κ α) {pairs : List (κ × α)} (sorted : Entries.Sorted pairs) :
    (d.insertAll pairs).find? k = (Entries.find? k pairs).or (d.find? k) := by
  induction pairs generalizing d with
  | nil => rfl
  | cons e pairs ih =>
    change ((d.insert e.1 e.2).insertAll pairs).find? k = _
    rw [ih _ sorted.tail, find?_insert, Entries.find?]
    by_cases same : k = e.1
    · have gone : Entries.find? k pairs = none :=
        Entries.find?_eq_none.mpr fun e' he' => same ▸ sorted.keys_ne e' he'
      simp [same, same ▸ gone]
    · simp [same]

end Dict

/-! ## Look-up in programs -/

namespace Program

variable {p q other : Program}

theorem defines_iff {name : String} :
    p.defines name = true ↔ ∃ node, p.find? name = some node :=
  Option.isSome_iff_exists

theorem mem_names {name : String} : name ∈ p.names ↔ p.defines name = true := Dict.mem_keys

/-- Every node of the other program is there, unchanged. -/
def Extends (q p : Program) : Prop :=
  ∀ name node, p.find? name = some node → q.find? name = some node

theorem Extends.refl (p : Program) : p.Extends p := fun _ _ h => h

theorem Extends.trans {r : Program} (h : r.Extends q) (h' : q.Extends p) : r.Extends p :=
  fun name node found => h name node (h' name node found)

theorem Extends.defines (h : q.Extends p) {name : String} (defined : p.defines name = true) :
    q.defines name = true := by
  obtain ⟨node, found⟩ := defines_iff.mp defined
  exact defines_iff.mpr ⟨node, h name node found⟩

/-- Programs that are put together share no name. -/
theorem merge_disjoint (merged : p.merge other = .ok q) {name : String}
    (defined : other.defines name = true) : p.find? name = none := by
  unfold merge at merged
  split at merged
  · cases merged
  · rename_i none
    have absent := List.find?_eq_none.mp none name (mem_names.mpr defined)
    exact Option.not_isSome_iff_eq_none.mp absent

theorem find?_merge (merged : p.merge other = .ok q) (name : String) :
    q.find? name = (p.find? name).or (other.find? name) := by
  have found : q.find? name = (other.find? name).or (p.find? name) := by
    unfold merge at merged
    split at merged
    · cases merged
    · cases merged
      exact p.nodes.find?_insertAll other.nodes.sorted
  rw [found]
  cases there : other.find? name with
  | none => simp
  | some node => simp [merge_disjoint merged (defines_iff.mpr ⟨node, there⟩)]

theorem merge_extends (merged : p.merge other = .ok q) : q.Extends p := by
  intro name node found
  rw [find?_merge merged, found, Option.some_or]

/-- Programs without a common node can be put together, and others cannot. -/
theorem merge_cases (p q : Program) :
    ((∀ node, p.defines node = true → q.defines node = false) ∧ ∃ both, p.merge q = .ok both) ∨
      ∃ node, p.defines node = true ∧ q.defines node = true ∧
        p.merge q = .error (.nodeConflict node) := by
  cases shared : q.names.find? p.defines with
  | none =>
    refine .inl ⟨fun node defined => ?_, _, by rw [merge, shared]⟩
    rw [Bool.eq_false_iff]
    exact fun both => List.find?_eq_none.mp shared node (mem_names.mpr both) defined
  | some node =>
    have named := mem_names.mp (List.mem_of_find?_eq_some shared)
    exact .inr ⟨node, List.find?_some shared, named, by rw [merge, shared]⟩

end Program

end DialogueEngine
