import DialogueEngine.Proofs.Commands.Offers
import DialogueEngine.Proofs.Machine.Yields
import DialogueEngine.Proofs.Program.Merging
import Mathlib.Data.List.DropRight

/-! # The history of a command table

Whatever has been done with a table, a name has the first handler that was offered for it since it
was last freed, and every answer tells what has become of the table.

* `Dict.size_insert`, `Dict.size_erase` — how a dictionary grows and shrinks.
* `CommandTable.Operation`, `CommandTable.Outcome` — what can be done with a table, and the answers.
* `Note`, `CommandTable.holder` — what a history keeps, and which handler has a name according to it.
* `CommandTable.Operation.record_follows`, `CommandTable.recordAll_follows` — one operation, and all.
* `CommandTable.Operation.perform_truthful` — the answers.
* `CommandTable.history_exact` — a whole history.
-/

namespace DialogueEngine

/-! ## Sizes of dictionaries -/

section Sizes

variable {κ α : Type} [Key κ] [DecidableEq κ] {k : κ} {x : α}

theorem Entries.length_insert {l : List (κ × α)} (fresh : find? k l = none) :
    (insert k x l).length = l.length + 1 := by
  induction l with
  | nil => rfl
  | cons e l ih =>
    rw [find?_eq_none] at fresh
    obtain ⟨other, later⟩ := List.forall_mem_cons.mp fresh
    rw [insert, if_neg (Ne.symm other)]
    split
    · rfl
    · rw [List.length_cons, ih (find?_eq_none.mpr later), List.length_cons]

theorem Entries.length_filter_ne {l : List (κ × α)} (sorted : Sorted l)
    (found : find? k l = some x) :
    (l.filter fun e => decide (e.1 ≠ k)).length + 1 = l.length := by
  induction l with
  | nil => cases found
  | cons e l ih =>
    rw [find?] at found
    split at found
    · rename_i same
      have others : ∀ e' ∈ l, decide (e'.1 ≠ k) = true := fun e' he' =>
        decide_eq_true (same ▸ sorted.keys_ne e' he')
      rw [List.filter_cons_of_neg (by simp [same]), List.filter_eq_self.mpr others,
        List.length_cons]
    · rename_i other
      rw [List.filter_cons_of_pos (by simp [Ne.symm other]), List.length_cons, ih sorted.tail found,
        List.length_cons]

theorem Dict.size_insert {d : Dict κ α} (fresh : d.contains k = false) :
    (d.insert k x).size = d.size + 1 :=
  Entries.length_insert (Dict.contains_eq_false.mp fresh)

theorem Dict.size_erase {d : Dict κ α} (bound : d.contains k = true) :
    (d.erase k).size + 1 = d.size := by
  obtain ⟨x, found⟩ := Option.isSome_iff_exists.mp bound
  exact Entries.length_filter_ne d.sorted found

end Sizes

variable {σ κ : Type}

/-! ## What is done with a table -/

/-- What a history keeps of an operation on a table. -/
inductive Note (σ : Type) where
  /-- A handler has been offered for a name. -/
  | offered (name : String) (h : Handler σ)
  /-- A name that was taken has been freed. -/
  | freed (name : String)

namespace Note

/-- The handler that has been offered for a name. -/
def offer? (name : String) : Note σ → Option (Handler σ)
  | .offered name' h => if name' = name then some h else none
  | .freed _ => none

def frees (name : String) : Note σ → Bool
  | .offered .. => false
  | .freed name' => name' = name

end Note

namespace CommandTable

inductive Operation (σ κ : Type) where
  /-- Offers a handler for a name. -/
  | insert (name : String) (h : Handler σ)
  /-- Frees a name. -/
  | remove (name : String)
  /-- Offers all that a provider exports. -/
  | importAll (p : CommandProvider σ)
  /-- Offers the commands of a tree of objects. -/
  | scan (calls : HostCalls σ κ) (root : HostObject σ κ)

def Operation.register (name : String) (run : ImmediateHandler σ) : Operation σ κ :=
  .insert name (.immediate run)

def Operation.registerBlocking (name : String) (run : BlockingHandler σ) : Operation σ κ :=
  .insert name (.blocking run)

inductive Outcome where
  /-- Whether the name was free. -/
  | inserted (new : Bool)
  /-- Whether the name was taken. -/
  | removed (there : Bool)
  /-- How many names were free. -/
  | counted (n : Nat)
  /-- The provider has failed. -/
  | failed (e : CapabilityError)

/-- The answer tells how the table has grown or shrunk; where it does neither, the table is as it
    was. -/
def Outcome.Truthful (before after : CommandTable σ) : Outcome → Prop
  | .inserted true => after.size = before.size + 1
  | .inserted false => after = before
  | .removed true => after.size + 1 = before.size
  | .removed false => after = before
  | .counted n => after.size = before.size + n
  | .failed _ => after = before

def Operation.perform (t : CommandTable σ) : Operation σ κ → Act σ (Outcome × CommandTable σ)
  | .insert name h => return (.inserted (t.insert name h).1, (t.insert name h).2)
  | .remove name => return (.removed (t.remove name).1, (t.remove name).2)
  | .importAll p => do
    match ← t.importAll p with
    | (.ok n, t) => return (.counted n, t)
    | (.error e, t) => return (.failed e, t)
  | .scan calls root => do
    let (n, t) ← t.scan calls root
    return (.counted n, t)

/-- Does one thing after the other, and keeps the answers. -/
def performAll (t : CommandTable σ) :
    List (Operation σ κ) → Act σ (List Outcome × CommandTable σ)
  | [] => return ([], t)
  | op :: ops => do
    let (outcome, t) ← op.perform t
    let (outcomes, t) ← performAll t ops
    return (outcome :: outcomes, t)

/-! ## What is kept of it -/

/-- Handlers that have been offered, each for its name. -/
def offered (hs : List (String × Handler σ)) : List (Note σ) :=
  hs.map fun e => .offered e.1 e.2

/-- A table as if its handlers had just been offered. -/
def held (t : CommandTable σ) : List (Note σ) := offered t.handlers.entries

/-- The first handler that was offered for a name since it was last freed. -/
def holder (name : String) (notes : List (Note σ)) : Option (Handler σ) :=
  (notes.rtakeWhile fun n => !n.frees name).findSome? (·.offer? name)

/-- Does something with a table and keeps what has been offered and freed. A provider that fails
    offers nothing. -/
def Operation.record (t : CommandTable σ) :
    Operation σ κ → Act σ (List (Note σ) × Outcome × CommandTable σ)
  | .insert name h =>
    return ([.offered name h], .inserted (t.insert name h).1, (t.insert name h).2)
  | .remove name =>
    return (if (t.remove name).1 then [.freed name] else [], .removed (t.remove name).1,
      (t.remove name).2)
  | .importAll p => do
    match ← p.offers with
    | .error e => return ([], .failed e, t)
    | .ok hs => return (offered hs, .counted (t.insertAll hs).1, (t.insertAll hs).2)
  | .scan calls root => do
    let hs ← root.treeOffers calls
    return (offered hs, .counted (t.insertAll hs).1, (t.insertAll hs).2)

/-- Does one thing after the other, and keeps what has been offered and freed. -/
def recordAll (t : CommandTable σ) :
    List (Operation σ κ) → Act σ (List (Note σ) × List Outcome × CommandTable σ)
  | [] => return ([], [], t)
  | op :: ops => do
    let (notes, outcome, t) ← op.record t
    let (later, outcomes, t) ← recordAll t ops
    return (notes ++ later, outcome :: outcomes, t)

variable {t : CommandTable σ} {name : String} {h : Handler σ} {notes : List (Note σ)}

/-- What is kept does not change what is done. -/
theorem Operation.perform_eq_record (t : CommandTable σ) (op : Operation σ κ) :
    op.perform t = (op.record t).bind fun r => .done r.2 := by
  cases op with
  | insert name h => rfl
  | remove name => rfl
  | importAll p =>
    change (t.importAll p).bind _ = (p.offers.bind _).bind _
    rw [importAll_eq, Act.bind_assoc, Act.bind_assoc]
    refine Act.bind_congr p.offers fun r => ?_
    cases r <;> rfl
  | scan calls root =>
    change (t.scan calls root).bind _ = ((root.treeOffers calls).bind _).bind _
    rw [scan_eq, Act.bind_assoc, Act.bind_assoc]
    rfl

theorem performAll_eq_recordAll (t : CommandTable σ) (ops : List (Operation σ κ)) :
    t.performAll ops = (t.recordAll ops).bind fun r => .done r.2 := by
  induction ops generalizing t with
  | nil => rfl
  | cons op ops ih =>
    change (op.perform t).bind _ = ((op.record t).bind _).bind _
    rw [Operation.perform_eq_record, Act.bind_assoc, Act.bind_assoc]
    refine Act.bind_congr _ fun r => ?_
    change (performAll r.2.2 ops).bind _ = ((recordAll r.2.2 ops).bind _).bind _
    rw [ih, Act.bind_assoc, Act.bind_assoc]
    rfl

/-! ## Answers -/

theorem insert_truthful (t : CommandTable σ) (name : String) (h : Handler σ) :
    (Outcome.inserted (t.insert name h).1).Truthful t (t.insert name h).2 := by
  unfold insert
  split
  · rfl
  · rename_i free
    exact Dict.size_insert (Bool.eq_false_iff.mpr free)

theorem remove_truthful (t : CommandTable σ) (name : String) :
    (Outcome.removed (t.remove name).1).Truthful t (t.remove name).2 := by
  unfold remove
  split
  · rename_i taken
    exact Dict.size_erase taken
  · rfl

theorem size_insertAll (t : CommandTable σ) (hs : List (String × Handler σ)) :
    (t.insertAll hs).2.size = t.size + (t.insertAll hs).1 := by
  induction hs generalizing t with
  | nil => rfl
  | cons e hs ih =>
    obtain ⟨name, h⟩ := e
    have told := t.insert_truthful name h
    rw [insertAll_cons, ih]
    cases new : (t.insert name h).1 with
    | true =>
      rw [new] at told
      rw [show (t.insert name h).2.size = t.size + 1 from told, Bool.toNat_true, Nat.add_assoc]
    | false =>
      rw [new] at told
      rw [show (t.insert name h).2 = t from told, Bool.toNat_false, Nat.zero_add]

/-- Every answer tells what has become of the table. -/
theorem Operation.perform_truthful (t : CommandTable σ) (op : Operation σ κ) :
    (op.perform t).All fun r => r.1.Truthful t r.2 := by
  have recorded : (op.record t).All fun r => r.2.1.Truthful t r.2.2 := by
    cases op with
    | insert name h => exact t.insert_truthful name h
    | remove name => exact t.remove_truthful name
    | importAll p =>
      refine Act.all_bind fun r => ?_
      cases r with
      | error e => rfl
      | ok hs => exact t.size_insertAll hs
    | scan calls root => exact Act.all_bind fun hs => t.size_insertAll hs
  rw [perform_eq_record]
  exact recorded.bind fun r told => told

/-! ## Which handler has a name -/

theorem find?_insert (t : CommandTable σ) (name other : String) (h : Handler σ) :
    (t.insert name h).2.find? other =
      if name = other then (t.find? other).or (some h) else t.find? other := by
  unfold insert
  cases taken : t.contains name with
  | true =>
    obtain ⟨h', found⟩ := Option.isSome_iff_exists.mp taken
    rw [if_pos rfl]
    split
    · rename_i same
      rw [← same, show t.find? name = some h' from found, Option.some_or]
    · rfl
  | false =>
    have free : t.find? name = none := Dict.contains_eq_false.mp taken
    rw [if_neg Bool.false_ne_true]
    refine (t.handlers.find?_insert name other h).trans ?_
    by_cases same : name = other
    · rw [if_pos same.symm, if_pos same, ← same, free, Option.none_or]
    · rw [if_neg (Ne.symm same), if_neg same]
      rfl

theorem find?_remove (t : CommandTable σ) (name other : String) :
    (t.remove name).2.find? other = if name = other then none else t.find? other := by
  unfold remove
  split
  · refine (t.handlers.find?_erase name other).trans ?_
    by_cases same : name = other
    · rw [if_pos same.symm, if_pos same]
    · rw [if_neg (Ne.symm same), if_neg same]
      rfl
  · rename_i free
    split
    · rename_i same
      exact same ▸ Dict.contains_eq_false.mp (Bool.eq_false_iff.mpr free)
    · rfl

theorem holder_offered (name other : String) (h : Handler σ) :
    holder other (notes ++ [.offered name h]) =
      if name = other then (holder other notes).or (some h) else holder other notes := by
  rw [holder, List.rtakeWhile_concat_pos _ _ _ rfl, List.findSome?_append, List.findSome?_singleton]
  by_cases same : name = other <;> simp [Note.offer?, same, holder]

theorem holder_freed (name other : String) :
    holder other (notes ++ [.freed name]) = if name = other then none else holder other notes := by
  by_cases same : name = other
  · rw [holder, List.rtakeWhile_concat_neg _ _ _ (by simp [Note.frees, same])]
    simp [same]
  · rw [holder, List.rtakeWhile_concat_pos _ _ _ (by simp [Note.frees, same]),
      List.findSome?_append, List.findSome?_singleton]
    simp [Note.offer?, same, holder]

/-- Every name has the first handler that was offered for it since it was last freed. -/
def Follows (t : CommandTable σ) (notes : List (Note σ)) : Prop :=
  ∀ name, t.find? name = holder name notes

/-- Nothing happens. -/
theorem Follows.idle (follows : t.Follows notes) : t.Follows (notes ++ []) := by
  rwa [List.append_nil]

theorem Follows.insert (follows : t.Follows notes) (name : String) (h : Handler σ) :
    (t.insert name h).2.Follows (notes ++ [.offered name h]) := by
  intro other
  rw [find?_insert, holder_offered, follows other]

theorem Follows.remove (follows : t.Follows notes) (name : String) :
    (t.remove name).2.Follows (notes ++ if (t.remove name).1 then [.freed name] else []) := by
  cases taken : (t.remove name).1 with
  | true =>
    intro other
    rw [if_pos rfl, find?_remove, holder_freed, follows other]
  | false =>
    have told := t.remove_truthful name
    rw [taken] at told
    rw [show (t.remove name).2 = t from told]
    exact follows.idle

theorem Follows.insertAll (follows : t.Follows notes) (hs : List (String × Handler σ)) :
    (t.insertAll hs).2.Follows (notes ++ offered hs) := by
  induction hs generalizing t notes with
  | nil => exact follows.idle
  | cons e hs ih =>
    obtain ⟨name, h⟩ := e
    have later := ih (follows.insert name h)
    rw [insertAll_cons]
    rwa [List.append_assoc] at later

theorem held_follows (t : CommandTable σ) : t.Follows t.held := by
  intro name
  have kept : t.held.rtakeWhile (fun n => !n.frees name) = t.held := by
    rw [List.rtakeWhile_eq_self_iff]
    intro n held
    obtain ⟨e, -, rfl⟩ := List.mem_map.mp held
    rfl
  rw [holder, kept]
  change Entries.find? name t.handlers.entries = (offered t.handlers.entries).findSome? _
  induction t.handlers.entries with
  | nil => rfl
  | cons e l ih =>
    change (if name = e.1 then some e.2 else Entries.find? name l) =
      (Note.offered e.1 e.2 :: offered l).findSome? _
    rw [ih, List.findSome?_cons, Note.offer?]
    by_cases same : name = e.1
    · rw [if_pos same, if_pos same.symm]
    · rw [if_neg same, if_neg (Ne.symm same)]

/-- Every operation keeps it so that names have the handlers that were offered first. -/
theorem Operation.record_follows (follows : t.Follows notes) (op : Operation σ κ) :
    (op.record t).All fun r => r.2.2.Follows (notes ++ r.1) := by
  cases op with
  | insert name h => exact follows.insert name h
  | remove name => exact follows.remove name
  | importAll p =>
    refine Act.all_bind fun r => ?_
    cases r with
    | error e => exact follows.idle
    | ok hs => exact follows.insertAll hs
  | scan calls root => exact Act.all_bind fun hs => follows.insertAll hs

theorem recordAll_follows (follows : t.Follows notes) (ops : List (Operation σ κ)) :
    (t.recordAll ops).All fun r => r.2.2.Follows (notes ++ r.1) := by
  induction ops generalizing t notes with
  | nil => exact follows.idle
  | cons op ops ih =>
    refine (op.record_follows follows).bind fun r step => ?_
    refine (ih step).bind fun r' run => ?_
    rwa [List.append_assoc] at run

/-- A history of a table that begins with any table: every name has the first handler that was
    offered for it since it was last freed, the handlers that the table begins with being offered
    first. Every answer tells how the table has grown or shrunk, and an operation that fails leaves
    it as it is. -/
theorem history_exact (σ κ : Type) :
    (∀ (t : CommandTable σ) (ops : List (Operation σ κ)),
      t.performAll ops = (t.recordAll ops).bind (fun r => .done r.2) ∧
      (t.recordAll ops).All fun r => ∀ name, r.2.2.find? name = holder name (t.held ++ r.1)) ∧
    ∀ (t : CommandTable σ) (op : Operation σ κ),
      (op.perform t).All fun r => r.1.Truthful t r.2 :=
  ⟨fun t ops => ⟨performAll_eq_recordAll t ops, recordAll_follows t.held_follows ops⟩,
    Operation.perform_truthful⟩

/-- A name that both maps of a provider have, and that is offered twice more after it has been
    freed. A provider that fails offers nothing. -/
theorem history_exact_freed :
    let run : ImmediateHandler Unit := fun _ => .done ()
    let hold : BlockingHandler Unit := fun _ _ => .done ()
    let both : CommandProvider Unit :=
      ⟨.done (.ok (Dict.ofList [("go", run)])),
        .done (.ok (Dict.ofList [("go", hold), ("stay", hold)]))⟩
    let failing : CommandProvider Unit :=
      ⟨.done (.ok (Dict.ofList [("rest", run)])),
        .done (.error (.returnType "scene" "blocking_command_handlers" "dictionary" "nil"))⟩
    let ops : List (Operation Unit Unit) := [.importAll both, .importAll failing]
    let later : List (Operation Unit Unit) :=
      [.remove "go", .registerBlocking "go" hold, .register "go" run]
    let holds (t : CommandTable Unit) (name : String) := (t.find? name).map Handler.isBlocking
    ((empty.performAll ops).All fun r => holds r.2 "go" = some false) ∧
      (empty.performAll (ops ++ later)).All fun r =>
        holds r.2 "go" = some true ∧ holds r.2 "stay" = some true ∧ holds r.2 "rest" = none := by
  intro run hold both failing ops later holds
  obtain ⟨kept, first⟩ := (history_exact Unit Unit).1 empty ops
  obtain ⟨kept', again⟩ := (history_exact Unit Unit).1 empty (ops ++ later)
  rw [kept, kept']
  have told (name : String) := congrArg (Option.map Handler.isBlocking) (first name)
  have toldLater (name : String) := congrArg (Option.map Handler.isBlocking) (again name)
  exact ⟨(told "go").trans (by decide +kernel), (toldLater "go").trans (by decide +kernel),
    (toldLater "stay").trans (by decide +kernel), (toldLater "rest").trans (by decide +kernel)⟩

end CommandTable

end DialogueEngine
