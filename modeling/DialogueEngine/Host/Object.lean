import DialogueEngine.Commands.Table
import DialogueEngine.Host.Value

/-! # Host objects

Objects of the host that are called by the names of their methods.
-/

namespace DialogueEngine

/-- What is known of a method without calling it. -/
structure MethodInfo where
  name : String
  params : List HostType
  returns : HostType
  /-- The dialogue command that the method handles, if it is marked as one. -/
  command : Option String
  deriving DecidableEq, Repr

def MethodInfo.untyped (name : String) : MethodInfo := ⟨name, [], .nil, none⟩

abbrev MethodBody (σ κ : Type) := List (HostValue κ) → Act σ (Except HostError (HostValue κ))

structure HostObject (σ κ : Type) where
  name : String
  /-- Whether a method of a name can be called. -/
  hasMethod : String → Bool
  /-- Calls a method. -/
  call : String → MethodBody σ κ
  /-- The methods that are known. -/
  methods : List MethodInfo
  /-- The commands that the object provides itself. -/
  provider : Option (CommandProvider σ)
  children : List (HostObject σ κ)

namespace HostObject

variable {σ κ : Type}

/-- An object of the given methods. Of two methods of one name the later counts. -/
def ofMethods (name : String) (methods : List (MethodInfo × MethodBody σ κ))
    (children : List (HostObject σ κ)) : HostObject σ κ :=
  let table := Dict.ofList (methods.map fun m => (m.1.name, m))
  { name := name
    hasMethod := table.contains
    call := fun method args =>
      match table.find? method with
      | some m => m.2 args
      | none => .done (.error ⟨s!"对象 '{name}' 没有方法 '{method}'"⟩)
    methods := table.values.map (·.1)
    provider := none
    children := children }

mutual

def size : HostObject σ κ → Nat
  | ⟨_, _, _, _, _, children⟩ => sizes children + 1

def sizes : List (HostObject σ κ) → Nat
  | [] => 0
  | o :: rest => o.size + sizes rest

end

theorem sizes_append (os rest : List (HostObject σ κ)) :
    sizes (os ++ rest) = sizes os + sizes rest := by
  induction os with
  | nil => simp [sizes]
  | cons o os ih => simp [sizes, ih, Nat.add_assoc]

theorem size_eq (o : HostObject σ κ) : o.size = sizes o.children + 1 := by
  cases o
  simp [size]

end HostObject

end DialogueEngine
