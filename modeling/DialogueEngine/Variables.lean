import DialogueEngine.Dict
import DialogueEngine.Error
import DialogueEngine.Value

/-! # Variables

Where a dialogue keeps its variables.

* `MemoryStore` — variables in memory, with the values that they are reset to.
* `Access` — a computation that reads and writes variables of some store. It is the tree of its
  requests, each with what happens for every answer, so that it can be run on any store and
  reasoned about for all of them.
* `Access.onMemory` — the computation on a store in memory, which never fails.
-/

namespace DialogueEngine

/-! ## Variables in memory -/

/-- Variables in memory: their values, and the values that they are reset to. -/
structure MemoryStore where
  initial : Dict String Value
  current : Dict String Value
  deriving DecidableEq, Inhabited

namespace MemoryStore

def ofDefaults (initial : Dict String Value) : MemoryStore := ⟨initial, initial⟩

def empty : MemoryStore := ofDefaults Dict.empty

def set (s : MemoryStore) (name : String) (value : Value) : MemoryStore :=
  { s with current := s.current.insert name value }

def find? (s : MemoryStore) (name : String) : Option Value := s.current.find? name

def clear (s : MemoryStore) : MemoryStore := { s with current := Dict.empty }

/-- Gives all variables the values that they are reset to, and forgets the others. -/
def reset (s : MemoryStore) : MemoryStore := { s with current := s.initial }

/-- Changes the values that variables are reset to, but none of the present ones. -/
def withDefaults (s : MemoryStore) (initial : Dict String Value) : MemoryStore :=
  { s with initial := initial }

end MemoryStore

/-! ## Computations on a store -/

/-- A computation that reads and writes variables. -/
inductive Access (α : Type) where
  | done (a : α)
  | read (name : String) (k : Except CapabilityError (Option Value) → Access α)
  | write (name : String) (value : Value) (k : Except CapabilityError Unit → Access α)

namespace Access

variable {α β γ : Type}

def bind : Access α → (α → Access β) → Access β
  | .done a, f => f a
  | .read name k, f => .read name fun r => (k r).bind f
  | .write name value k, f => .write name value fun r => (k r).bind f

instance : Monad Access where
  pure := .done
  bind := bind

theorem bind_done (x : Access α) : x.bind .done = x := by
  induction x with
  | done a => rfl
  | read name k ih => exact congrArg (read name) (funext ih)
  | write name value k ih => exact congrArg (write name value) (funext ih)

protected theorem bind_assoc (x : Access α) (f : α → Access β) (g : β → Access γ) :
    (x.bind f).bind g = x.bind fun a => (f a).bind g := by
  induction x with
  | done a => rfl
  | read name k ih => exact congrArg (read name) (funext ih)
  | write name value k ih => exact congrArg (write name value) (funext ih)

instance : LawfulMonad Access := .mk' _ bind_done (fun _ _ => rfl) Access.bind_assoc

def onMemory : Access α → MemoryStore → α × MemoryStore
  | .done a, s => (a, s)
  | .read name k, s => (k (.ok (s.find? name))).onMemory s
  | .write name value k, s => (k (.ok ())).onMemory (s.set name value)

end Access

end DialogueEngine
