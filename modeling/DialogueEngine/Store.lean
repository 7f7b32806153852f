import DialogueEngine.Host.Adapter

/-! # Stores

The store of variables that a dialogue uses: in memory, or of the host.
-/

namespace DialogueEngine

inductive Store (σ : Type) where
  | memory (m : MemoryStore)
  | host (h : HostStore σ)

namespace Store

variable {σ α : Type}

def get (name : String) : Store σ → Act σ (Except CapabilityError (Option Value))
  | .memory m => .done (.ok (m.find? name))
  | .host h => h.get name

def set (name : String) (value : Value) : Store σ → Act σ (Except CapabilityError Unit × Store σ)
  | .memory m => .done (.ok (), .memory (m.set name value))
  | .host h => (h.set name value).bind fun r => .done (r, .host h)

def clear : Store σ → Act σ (Except CapabilityError Unit × Store σ)
  | .memory m => .done (.ok (), .memory m.clear)
  | .host h => h.clear.bind fun r => .done (r, .host h)

/-- Gives all variables their first values. -/
def reset : Store σ → Act σ (Except CapabilityError Unit × Store σ)
  | .memory m => .done (.ok (), .memory m.reset)
  | .host h => h.reset.bind fun r => .done (r, .host h)

end Store

def Access.onStore {σ α : Type} : Access α → Store σ → Act σ (α × Store σ)
  | .done a, s => .done (a, s)
  | .read name k, s => (s.get name).bind fun r => (k r).onStore s
  | .write name value k, s => (s.set name value).bind fun r => (k r.1).onStore r.2

end DialogueEngine
