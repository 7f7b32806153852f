import DialogueEngine.Proofs.Bare.Deeds
import Mathlib.Data.List.Forall2

/-! # Adapted stores and stores in memory

A host object whose methods act on a dictionary is as good a store as one in memory. From the same
variables both give the same answers, whatever is done with the machine and with the variables, and
they come to the same variables.

* `Dict.find?_map`, `Dict.insert_map` — dictionaries whose values are changed.
* `HostObject.ActsOn` — the methods of an object act on a dictionary.
* `HostObject.Holds` — the dictionary holds the variables of a store in memory.
* `Bare.take_adapted`, `Bare.trace_adapted` — one deed, and any number of them.
-/

namespace DialogueEngine

/-! ## Dictionaries -/

namespace Entries

variable {κ α β : Type} [DecidableEq κ] (f : α → β) (k : κ)

theorem find?_map (l : List (κ × α)) :
    find? k (l.map fun e => (e.1, f e.2)) = (find? k l).map f := by
  induction l with
  | nil => rfl
  | cons e l ih =>
    by_cases same : k = e.1
    · simp [find?, same]
    · simp [find?, same, ih]

theorem insert_map [Key κ] (x : α) (l : List (κ × α)) :
    insert k (f x) (l.map fun e => (e.1, f e.2)) = (insert k x l).map fun e => (e.1, f e.2) := by
  induction l with
  | nil => rfl
  | cons e l ih =>
    simp only [List.map_cons, insert]
    split
    · rfl
    · split
      · rfl
      · rw [ih]
        rfl

end Entries

namespace Dict

variable {κ α β : Type} [Key κ] [DecidableEq κ] (f : α → β) (d : Dict κ α) (k : κ)

theorem find?_map : (d.map f).find? k = (d.find? k).map f := Entries.find?_map f k d.entries

theorem insert_map (x : α) : (d.map f).insert k (f x) = (d.insert k x).map f := by
  have same := Entries.insert_map f k x d.entries
  unfold insert map
  congr

end Dict

/-! ## Values -/

namespace HostValue

variable {κ : Type}

@[simp] theorem toValue?_ofValue (v : Value) : (ofValue v : HostValue κ).toValue? = some v := by
  cases v <;> rfl

@[simp] theorem isNil_ofValue (v : Value) : (ofValue v : HostValue κ).isNil = false := by
  cases v <;> rfl

end HostValue

/-! ## Objects that keep a dictionary -/

variable {σ κ : Type}

/-- The methods of an object that a store takes act on a dictionary: nil stands for a name that is
    absent, and resetting fills the dictionary from a snapshot. -/
structure HostObject.ActsOn (o : HostObject σ κ) (dict : σ → Dict String (HostValue κ))
    (snapshot : Dict String (HostValue κ)) : Prop where
  set (x : σ) (name : String) (v : HostValue κ) : ∃ answer x',
    (o.call "set_value" [.string name, v]).detached x = (.ok answer, x') ∧
      dict x' = (dict x).insert name v
  get (x : σ) (name : String) : ∃ x',
    (o.call "get_value" [.string name]).detached x =
      (.ok (((dict x).find? name).getD .nil), x') ∧ dict x' = dict x
  clear (x : σ) : ∃ answer x',
    (o.call "clear" []).detached x = (.ok answer, x') ∧ dict x' = Dict.empty
  reset (x : σ) : ∃ answer x',
    (o.call "reset_to_defaults" []).detached x = (.ok answer, x') ∧ dict x' = snapshot

/-- A dictionary of the host holds the variables of a store in memory. -/
def Holds (dict : σ → Dict String (HostValue κ)) (x : σ) (m : MemoryStore) : Prop :=
  dict x = m.current.map .ofValue

namespace Adapter

section Calls

variable {c : Capability} {a : Adapter c σ κ} {method : String} {args : List (HostValue κ)}
  {x x' : σ} {v : HostValue κ}

theorem invoke_detached (called : (a.object.call method args).detached x = (.ok v, x')) :
    (a.invoke method args).detached x = (.ok v, x') := by
  change ((a.object.call method args).bind _).detached x = _
  rw [Act.detached_bind, called]
  rfl

theorem invokeUnit_detached (called : (a.object.call method args).detached x = (.ok v, x')) :
    (a.invokeUnit method args).detached x = (.ok (), x') := by
  change ((a.invoke method args).bind _).detached x = _
  rw [Act.detached_bind, invoke_detached called]
  rfl

end Calls

variable {a : Adapter .variableStorage σ κ} {dict : σ → Dict String (HostValue κ)}
  {m : MemoryStore} {x : σ}

/-- A variable is read as from memory. -/
theorem get_adapted (acts : a.object.ActsOn dict (m.initial.map .ofValue)) (holds : Holds dict x m)
    (name : String) :
    ∃ x', (a.store.get name).detached x = (.ok (m.find? name), x') ∧ Holds dict x' m := by
  obtain ⟨x', called, same⟩ := acts.get x name
  refine ⟨x', ?_, same.trans holds⟩
  change ((a.invoke "get_value" [.string name]).bind _).detached x = _
  rw [Act.detached_bind, invoke_detached called, holds, Dict.find?_map, MemoryStore.find?]
  cases m.current.find? name with
  | none => rfl
  | some value =>
    simp only [Option.map_some, Option.getD_some, HostValue.isNil_ofValue,
      HostValue.toValue?_ofValue]
    rfl

theorem set_adapted (acts : a.object.ActsOn dict (m.initial.map .ofValue)) (holds : Holds dict x m)
    (name : String) (value : Value) :
    ∃ x', (a.store.set name value).detached x = (.ok (), x') ∧
      Holds dict x' (m.set name value) := by
  obtain ⟨answer, x', called, changed⟩ := acts.set x name (.ofValue value)
  refine ⟨x', invokeUnit_detached called, ?_⟩
  rw [Holds, changed, holds, Dict.insert_map]
  rfl

/-- The variables are changed from outside as in memory. -/
theorem change_adapted (acts : a.object.ActsOn dict (m.initial.map .ofValue))
    (holds : Holds dict x m) (change : Change) :
    ∃ x', (change.act (.host a.store)).detached x = ((.ok (), .host a.store), x') ∧
      Holds dict x' (change.onMemory m) := by
  have finish {act : Act σ (Except CapabilityError Unit)} {x'} (called : act.detached x = (.ok (), x')) :
      (act.bind fun r => .done (r, Store.host a.store)).detached x =
        ((.ok (), .host a.store), x') := by
    rw [Act.detached_bind, called]
    rfl
  cases change with
  | set name value =>
    obtain ⟨x', called, holds'⟩ := set_adapted acts holds name value
    exact ⟨x', finish called, holds'⟩
  | clear =>
    obtain ⟨answer, x', called, emptied⟩ := acts.clear x
    exact ⟨x', finish (invokeUnit_detached called), emptied⟩
  | reset =>
    obtain ⟨answer, x', called, filled⟩ := acts.reset x
    exact ⟨x', finish (invokeUnit_detached called), filled⟩

/-- A computation has the same result on the object as in memory. -/
theorem run_adapted {α : Type} (acts : a.object.ActsOn dict (m.initial.map .ofValue))
    (holds : Holds dict x m) (access : Access α) (other : σ) :
    ∃ r x' m', access.run (.host a.store) x = (r, .host a.store, x') ∧
      access.run (.memory m) other = (r, .memory m', other) ∧ m'.initial = m.initial ∧
      Holds dict x' m' := by
  induction access generalizing m x with
  | done r => exact ⟨r, x, m, rfl, rfl, rfl, holds⟩
  | read name k ih =>
    obtain ⟨x', found, holds'⟩ := get_adapted acts holds name
    obtain ⟨r, x'', m', ran, ran', kept, holds''⟩ := ih (.ok (m.find? name)) acts holds'
    refine ⟨r, x'', m', ?_, ran', kept, holds''⟩
    rw [Access.run_read, show Store.get name (.host a.store) = a.store.get name from rfl, found]
    exact ran
  | write name value k ih =>
    obtain ⟨x', written, holds'⟩ := change_adapted acts holds (.set name value)
    obtain ⟨r, x'', m', ran, ran', kept, holds''⟩ :=
      ih (.ok ()) (m := m.set name value) acts holds'
    refine ⟨r, x'', m', ?_, ran', kept, holds''⟩
    rw [Access.run_write, show Store.set name value (.host a.store) =
      (Change.set name value).act (.host a.store) from rfl, written]
    exact ran

end Adapter

/-! ## Deeds -/

/-- The deed leaves the dictionary alone, unless the store is asked. -/
def Deed.Leaves (dict : σ → Dict String (HostValue κ)) : Deed σ → Prop
  | .host f => ∀ x, dict (f x) = dict x
  | .request _ | .change _ | .read _ => True

namespace Bare

/-- The store of one bare machine is an object whose dictionary holds the variables that the other
    one has in memory; for the rest they are the same. -/
structure Adapts (a : Adapter .variableStorage σ κ) (dict : σ → Dict String (HostValue κ))
    (initial : Dict String Value) (b b' : Bare σ) : Prop where
  machine : b.machine = b'.machine
  adapted : b.store = .host a.store
  memory : ∃ m, b'.store = .memory m ∧ m.initial = initial ∧ Holds dict b.host m

variable {a : Adapter .variableStorage σ κ} {dict : σ → Dict String (HostValue κ)}
  {initial : Dict String Value} {b b' : Bare σ}

/-- One deed has the same answer. -/
theorem take_adapted (acts : a.object.ActsOn dict (initial.map .ofValue))
    (adapts : Adapts a dict initial b b') {d : Deed σ} (leaves : d.Leaves dict) :
    (b.take d).1 = (b'.take d).1 ∧ Adapts a dict initial (b.take d).2 (b'.take d).2 := by
  obtain ⟨machine, store, x⟩ := b
  obtain ⟨machine', store', other⟩ := b'
  obtain ⟨rfl, rfl, m, rfl, rfl, holds⟩ := adapts
  cases d with
  | request q =>
    obtain ⟨r, x', m', ran, ran', kept, holds'⟩ :=
      Adapter.run_adapted acts holds (machine.serve q) other
    simp only [take, run, ran, ran']
    exact ⟨trivial, rfl, rfl, m', rfl, kept, holds'⟩
  | change change =>
    obtain ⟨x', changed, holds'⟩ := Adapter.change_adapted acts holds change
    simp only [take, changed]
    cases change <;> exact ⟨rfl, rfl, rfl, _, rfl, rfl, holds'⟩
  | read name =>
    obtain ⟨x', found, holds'⟩ := Adapter.get_adapted acts holds name
    simp only [take, Store.get, found]
    exact ⟨rfl, rfl, rfl, m, rfl, rfl, holds'⟩
  | host f => exact ⟨rfl, rfl, rfl, m, rfl, rfl, (leaves x).trans holds⟩

/-- A store is a host object whose methods act on a dictionary, with a snapshot that it is reset
    to. Another one is in memory, with the same first values. From the same variables on, all that
    is done with a machine and with its variables has the same answers on both, errors included,
    and after every deed the machines are the same and so are the variables. -/
theorem trace_adapted (acts : a.object.ActsOn dict (initial.map .ofValue))
    (adapts : Adapts a dict initial b b') (deeds : List (Deed σ))
    (leave : ∀ d ∈ deeds, d.Leaves dict) :
    List.Forall₂ (fun r r' => r.1 = r'.1 ∧ Adapts a dict initial r.2 r'.2)
      (b.trace deeds) (b'.trace deeds) := by
  induction deeds generalizing b b' with
  | nil => exact .nil
  | cons d deeds ih =>
    have one := take_adapted acts adapts (leave d List.mem_cons_self)
    exact .cons one (ih one.2 fun d' h => leave d' (List.mem_cons_of_mem d h))

end Bare

/-! ## An object with a dictionary -/

/-- An object that keeps variables in a dictionary, and resets it to a snapshot. -/
def HostObject.slot (snapshot : Dict String (HostValue κ)) :
    HostObject (Dict String (HostValue κ)) κ where
  name := "save_slot"
  hasMethod := Capability.variableStorage.methods.contains
  call method args :=
    match method, args with
    | "set_value", [.string name, v] => .read fun d => .write (d.insert name v) (.done (.ok .nil))
    | "get_value", [.string name] => .read fun d => .done (.ok ((d.find? name).getD .nil))
    | "clear", [] => .write .empty (.done (.ok .nil))
    | "reset_to_defaults", [] => .write snapshot (.done (.ok .nil))
    | _, _ => .done (.error ⟨"bad args"⟩)
  methods := Capability.variableStorage.methods.map .untyped
  provider := none
  children := []

theorem HostObject.slot_acts (snapshot : Dict String (HostValue κ)) :
    (slot snapshot).ActsOn id snapshot where
  set _ _ _ := ⟨.nil, _, rfl, rfl⟩
  get x _ := ⟨x, rfl, rfl⟩
  clear _ := ⟨.nil, _, rfl, rfl⟩
  reset _ := ⟨.nil, _, rfl, rfl⟩

def Adapter.slot (snapshot : Dict String (HostValue κ)) :
    Adapter .variableStorage (Dict String (HostValue κ)) κ :=
  ⟨.slot snapshot, rfl⟩

/-- A node that sets a variable and says the value of another one, played on the object and in
    memory. -/
theorem Bare.trace_adapted_slot :
    let initial : Dict String Value := .ofList [("name", .string "Mae")]
    let a : Adapter .variableStorage (Dict String (HostValue Unit)) Unit :=
      .slot (initial.map .ofValue)
    let m : Machine := Machine.empty.load
      (.ofNode "Start" [.set "met" (.literal (.bool true)), .line "hi" [.reference "name"]])
    let deeds : List (Deed (Dict String (HostValue Unit))) :=
      [.request (.enter "Start"), .request .next, .request .next, .change .clear, .read "name"]
    List.Forall₂ (fun r r' => r.1 = r'.1 ∧ Adapts a id initial r.2 r'.2)
      (Bare.trace ⟨m, .host a.store, initial.map .ofValue⟩ deeds)
      (Bare.trace ⟨m, .memory (.ofDefaults initial), .empty⟩ deeds) := by
  intro initial a m deeds
  have adapts : Adapts a id initial ⟨m, .host a.store, initial.map .ofValue⟩
      ⟨m, .memory (.ofDefaults initial), .empty⟩ := ⟨rfl, rfl, _, rfl, rfl, rfl⟩
  exact trace_adapted (HostObject.slot_acts _) adapts deeds (by simp [deeds, Deed.Leaves])

end DialogueEngine
