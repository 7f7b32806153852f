/-! # Finite maps with sorted keys

A `Dict κ α` is an association list whose keys strictly increase, so a set of bindings has
exactly one representation. Types that nest in themselves through their entries use `Entries`:
insertion and look-up on bare association lists.
-/

namespace DialogueEngine

variable {κ α β : Type}

/-- A key type: `before` is a strict linear order. -/
class Key (κ : Type) where
  before : κ → κ → Bool
  before_irrefl : ∀ a, before a a = false
  before_trans : ∀ {a b c}, before a b = true → before b c = true → before a c = true
  before_connex : ∀ {a b}, a ≠ b → before a b = false → before b a = true

instance : Key String where
  before a b := decide (a < b)
  before_irrefl a := decide_eq_false (String.lt_irrefl a)
  before_trans h h' := decide_eq_true (String.lt_trans (of_decide_eq_true h) (of_decide_eq_true h'))
  before_connex hne h :=
    decide_eq_true (Std.lt_of_le_of_ne (Std.not_lt.mp (of_decide_eq_false h)) (Ne.symm hne))

instance : Key Nat where
  before a b := decide (a < b)
  before_irrefl a := decide_eq_false (Nat.lt_irrefl a)
  before_trans h h' := decide_eq_true (Nat.lt_trans (of_decide_eq_true h) (of_decide_eq_true h'))
  before_connex hne h :=
    decide_eq_true
      (Nat.lt_of_le_of_ne (Nat.le_of_not_lt (of_decide_eq_false h)) (Ne.symm hne))

/-! ## Association lists -/

namespace Entries

def Sorted [Key κ] (l : List (κ × α)) : Prop :=
  l.Pairwise (fun a b => Key.before a.1 b.1 = true)

def insert [DecidableEq κ] [Key κ] (k : κ) (x : α) : List (κ × α) → List (κ × α)
  | [] => [(k, x)]
  | (k', x') :: rest =>
    if k = k' then (k, x) :: rest
    else if Key.before k k' then (k, x) :: (k', x') :: rest
    else (k', x') :: insert k x rest

/-- The value bound to a key, the first one if there are several. -/
def find? [DecidableEq κ] (k : κ) : List (κ × α) → Option α
  | [] => none
  | (k', x) :: rest => if k = k' then some x else find? k rest

theorem mem_insert [DecidableEq κ] [Key κ] {k : κ} {x : α} {e : κ × α} {l : List (κ × α)} :
    e ∈ insert k x l → e = (k, x) ∨ e ∈ l := by
  induction l with
  | nil => simp [insert]
  | cons hd tl ih =>
    obtain ⟨k', x'⟩ := hd
    rw [insert]
    split
    · intro h
      exact (List.mem_cons.mp h).imp id (List.mem_cons_of_mem _)
    · split
      · simp
      · intro h
        rcases List.mem_cons.mp h with h | h
        · exact .inr (h ▸ List.mem_cons_self)
        · exact (ih h).imp id (List.mem_cons_of_mem _)

theorem find?_insert [DecidableEq κ] [Key κ] (k k' : κ) (x : α) (l : List (κ × α)) :
    find? k' (insert k x l) = if k' = k then some x else find? k' l := by
  induction l with
  | nil => simp [insert, find?]
  | cons hd tl ih =>
    obtain ⟨k₀, x₀⟩ := hd
    rw [insert]
    split
    · rename_i h
      subst h
      by_cases e : k' = k <;> simp [find?, e]
    · split
      · simp [find?]
      · rename_i hne _
        by_cases e : k' = k₀
        · subst e
          simp [find?, Ne.symm hne]
        · simp [find?, e, ih]

theorem find?_filter_ne [DecidableEq κ] (k k' : κ) (l : List (κ × α)) :
    find? k' (l.filter fun e => decide (e.1 ≠ k)) = if k' = k then none else find? k' l := by
  induction l with
  | nil => simp [find?]
  | cons hd tl ih =>
    obtain ⟨k₀, x₀⟩ := hd
    by_cases removed : k₀ = k
    · rw [List.filter_cons_of_neg (by simp [removed]), ih]
      by_cases e : k' = k <;> simp [removed, find?, e]
    · rw [List.filter_cons_of_pos (by simp [removed]), find?, find?, ih]
      by_cases e : k' = k₀
      · simp [e, removed]
      · simp [e]

theorem sorted_insert [DecidableEq κ] [Key κ] (k : κ) (x : α) {l : List (κ × α)}
    (h : Sorted l) : Sorted (insert k x l) := by
  induction l with
  | nil => simp [insert, Sorted]
  | cons hd tl ih =>
    obtain ⟨k', x'⟩ := hd
    obtain ⟨hhead, htail⟩ := List.pairwise_cons.mp h
    rw [insert]
    split
    · rename_i heq
      subst heq
      exact List.pairwise_cons.mpr ⟨fun e he => hhead e he, htail⟩
    · rename_i hne
      split
      · rename_i hlt
        refine List.pairwise_cons.mpr ⟨fun e he => ?_, h⟩
        rcases List.mem_cons.mp he with rfl | he
        · exact hlt
        · exact Key.before_trans hlt (hhead e he)
      · rename_i hnlt
        refine List.pairwise_cons.mpr ⟨fun e he => ?_, ih htail⟩
        rcases mem_insert he with rfl | he
        · exact Key.before_connex hne (Bool.eq_false_iff.mpr hnlt)
        · exact hhead e he

theorem insert_last [DecidableEq κ] [Key κ] {k : κ} (x : α) {l : List (κ × α)}
    (last : ∀ e ∈ l, Key.before e.1 k = true) : insert k x l = l ++ [(k, x)] := by
  induction l with
  | nil => rfl
  | cons hd tl ih =>
    obtain ⟨k', x'⟩ := hd
    have before : Key.before k' k = true := last _ List.mem_cons_self
    have ne : k ≠ k' := by
      rintro rfl
      simp [Key.before_irrefl] at before
    have notBefore : ¬ Key.before k k' = true := fun after => by
      simpa [Key.before_irrefl] using Key.before_trans before after
    rw [insert, if_neg ne, if_neg notBefore, ih fun e he => last e (List.mem_cons_of_mem _ he)]
    rfl

end Entries

/-! ## Dictionaries -/

/-- A finite map: bindings in strictly increasing order of their keys. -/
structure Dict (κ α : Type) [Key κ] where
  entries : List (κ × α)
  sorted : Entries.Sorted entries
  deriving DecidableEq

namespace Dict

variable [Key κ]

def empty : Dict κ α := ⟨[], List.Pairwise.nil⟩

instance : Inhabited (Dict κ α) := ⟨empty⟩

def size (d : Dict κ α) : Nat := d.entries.length

def isEmpty (d : Dict κ α) : Bool := d.entries.isEmpty

def keys (d : Dict κ α) : List κ := d.entries.map (·.1)

def values (d : Dict κ α) : List α := d.entries.map (·.2)

def map (f : α → β) (d : Dict κ α) : Dict κ β where
  entries := d.entries.map (fun e => (e.1, f e.2))
  sorted := by simpa [Entries.Sorted, List.pairwise_map] using d.sorted

def filter (p : κ → α → Bool) (d : Dict κ α) : Dict κ α where
  entries := d.entries.filter (fun e => p e.1 e.2)
  sorted := List.Pairwise.filter _ d.sorted

variable [DecidableEq κ]

def find? (d : Dict κ α) (k : κ) : Option α := Entries.find? k d.entries

def contains (d : Dict κ α) (k : κ) : Bool := (d.find? k).isSome

def erase (d : Dict κ α) (k : κ) : Dict κ α := d.filter (fun k' _ => decide (k' ≠ k))

def insert (d : Dict κ α) (k : κ) (x : α) : Dict κ α :=
  ⟨Entries.insert k x d.entries, Entries.sorted_insert k x d.sorted⟩

/-- Binds the pairs of a list one after the other; of two pairs with one key the later counts. -/
def insertAll (d : Dict κ α) (pairs : List (κ × α)) : Dict κ α :=
  pairs.foldl (fun d e => d.insert e.1 e.2) d

def ofList (pairs : List (κ × α)) : Dict κ α := empty.insertAll pairs

theorem find?_insert (d : Dict κ α) (k k' : κ) (x : α) :
    (d.insert k x).find? k' = if k' = k then some x else d.find? k' :=
  Entries.find?_insert k k' x d.entries

theorem find?_erase (d : Dict κ α) (k k' : κ) :
    (d.erase k).find? k' = if k' = k then none else d.find? k' :=
  Entries.find?_filter_ne k k' d.entries

/-- Pairs whose keys increase stay as they are. -/
theorem entries_insertAll (d : Dict κ α) {pairs : List (κ × α)}
    (sorted : Entries.Sorted (d.entries ++ pairs)) :
    (d.insertAll pairs).entries = d.entries ++ pairs := by
  induction pairs generalizing d with
  | nil => exact (List.append_nil _).symm
  | cons e pairs ih =>
    have last : ∀ e' ∈ d.entries, Key.before e'.1 e.1 = true := fun e' he' =>
      (List.pairwise_append.mp sorted).2.2 e' he' e List.mem_cons_self
    have entries : (d.insert e.1 e.2).entries = d.entries ++ [e] := Entries.insert_last e.2 last
    rw [List.append_cons] at sorted
    change ((d.insert e.1 e.2).insertAll pairs).entries = _
    rw [ih _ (entries ▸ sorted), entries, ← List.append_cons]

theorem entries_ofList {pairs : List (κ × α)} (sorted : Entries.Sorted pairs) :
    (ofList pairs).entries = pairs :=
  entries_insertAll empty sorted

theorem ofList_entries (d : Dict κ α) : ofList d.entries = d := by
  have entries : (ofList d.entries).entries = d.entries := entries_ofList d.sorted
  cases h : ofList d.entries
  cases d
  simp_all

theorem mem_insertAll {d : Dict κ α} {pairs : List (κ × α)} {e : κ × α}
    (mem : e ∈ (d.insertAll pairs).entries) : e ∈ d.entries ∨ e ∈ pairs := by
  induction pairs generalizing d with
  | nil => exact .inl mem
  | cons p pairs ih =>
    rcases ih (d := d.insert p.1 p.2) mem with mem | mem
    · rcases Entries.mem_insert mem with rfl | mem
      · exact .inr List.mem_cons_self
      · exact .inl mem
    · exact .inr (List.mem_cons_of_mem _ mem)

end Dict

end DialogueEngine
