import DialogueEngine.Host.Adapter

/-! # Commands of a tree of objects

A tree of host objects is searched for commands, an object before its children. Each object gives
its commands in one way only: as a provider of its own, as an object that has the methods of a
provider, or by methods that are marked as commands. A way that fails leaves the next one.
-/

namespace DialogueEngine

/-- The handler of a method that is marked as a command, if its signature is that of one: a list,
    with or without a callable, and no result. -/
def MethodInfo.handler? {σ κ : Type} (o : HostObject σ κ) (m : MethodInfo) :
    Option (String × Handler σ) :=
  match m.command with
  | none => none
  | some command =>
    let name := CommandTable.scopedName o.name command
    match m.params, m.returns with
    | [.array], .nil => some (name, .immediate (Adapter.immediateHandler (o.call m.name)))
    | [.array, .callable], .nil =>
      some (name, .blocking (Adapter.blockingHandler (o.call m.name)))
    | _, _ => none

namespace CommandTable

variable {σ κ : Type}

def scanMethods (t : CommandTable σ) (o : HostObject σ κ) : Nat × CommandTable σ :=
  t.insertAll (o.methods.filterMap (MethodInfo.handler? o))

/-- Inserts the handlers of a provider, unless there is none or it fails. -/
def tryImport (t : CommandTable σ) (p : Option (CommandProvider σ)) :
    Act σ (Option (Nat × CommandTable σ)) :=
  match p with
  | none => .done none
  | some p => do
    match ← t.importAll p with
    | (.ok n, t) => return some (n, t)
    -- the next way starts from the old table
    | (.error _, _) => return none

def adaptedProvider? (calls : HostCalls σ κ) (o : HostObject σ κ) : Option (CommandProvider σ) :=
  match Adapter.of .commandProvider o with
  | .ok a => some (a.provider calls)
  | .error _ => none

def scanObject (calls : HostCalls σ κ) (t : CommandTable σ) (o : HostObject σ κ) :
    Act σ (Nat × CommandTable σ) := do
  match ← t.tryImport o.provider with
  | some r => return r
  | none =>
    match ← t.tryImport (adaptedProvider? calls o) with
    | some r => return r
    | none => return t.scanMethods o

/-- Inserts the commands of the objects on a stack and of all objects below them; the children of
    an object go on top of the stack. -/
def scanStack (calls : HostCalls σ κ) (t : CommandTable σ) :
    List (HostObject σ κ) → Act σ (Nat × CommandTable σ)
  | [] => .done (0, t)
  | o :: rest =>
    (t.scanObject calls o).bind fun r =>
      (scanStack calls r.2 (o.children ++ rest)).bind fun r' => .done (r.1 + r'.1, r'.2)
  termination_by stack => HostObject.sizes stack
  decreasing_by
    rw [HostObject.sizes_append, HostObject.sizes, HostObject.size_eq]
    omega

def scan (calls : HostCalls σ κ) (t : CommandTable σ) (root : HostObject σ κ) :
    Act σ (Nat × CommandTable σ) :=
  t.scanStack calls [root]

end CommandTable

end DialogueEngine
