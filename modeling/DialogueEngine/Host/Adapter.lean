import DialogueEngine.Host.Object
import DialogueEngine.Presenter.Basic
import DialogueEngine.Variables

/-! # Host objects in the place of interfaces

A host object can be a presenter, a store of variables or a provider of commands if it has all
methods that this takes.

* `Capability` — the three things an object can be, and the methods each takes.
* `Adapter.invoke` — a call, with errors that name the object and the method.
* `Adapter.presenter`, `Adapter.store`, `Adapter.provider` — the interfaces.
-/

namespace DialogueEngine

structure HostStore (σ : Type) where
  set : String → Value → Act σ (Except CapabilityError Unit)
  get : String → Act σ (Except CapabilityError (Option Value))
  clear : Act σ (Except CapabilityError Unit)
  reset : Act σ (Except CapabilityError Unit)

inductive Capability where
  | presentation
  | variableStorage
  | commandProvider
  deriving DecidableEq, Repr

namespace Capability

def text : Capability → String
  | .presentation => "presentation"
  | .variableStorage => "variable_storage"
  | .commandProvider => "command_provider"

def methods : Capability → List String
  | .presentation =>
    ["dialogue_started", "dialogue_complete", "display_options", "display_line",
      "execute_command"]
  | .variableStorage => ["set_value", "get_value", "clear", "reset_to_defaults"]
  | .commandProvider => ["command_handlers"]

def missing? {σ κ : Type} (c : Capability) (o : HostObject σ κ) : Option String :=
  c.methods.find? fun m => !o.hasMethod m

def implementedBy {σ κ : Type} (c : Capability) (o : HostObject σ κ) : Bool :=
  c.methods.all o.hasMethod

end Capability

/-- An object that has the methods of a capability. -/
structure Adapter (c : Capability) (σ κ : Type) where
  object : HostObject σ κ
  complete : c.missing? object = none

namespace Adapter

variable {c : Capability} {σ κ : Type}

def of (c : Capability) (o : HostObject σ κ) : Except CapabilityError (Adapter c σ κ) :=
  match h : c.missing? o with
  | none => .ok ⟨o, h⟩
  | some method => .error (.missingMethod c.text o.name method)

def invoke (a : Adapter c σ κ) (method : String) (args : List (HostValue κ)) :
    Act σ (Except CapabilityError (HostValue κ)) := do
  match ← a.object.call method args with
  | .ok v => return .ok v
  | .error e => return .error (.invocation a.object.name method e.message)

def invokeUnit (a : Adapter c σ κ) (method : String) (args : List (HostValue κ)) :
    Act σ (Except CapabilityError Unit) := do
  return (← a.invoke method args).map fun _ => ()

def returnType (a : Adapter c σ κ) (method expected : String) (actual : HostValue κ) :
    CapabilityError :=
  .returnType a.object.name method expected actual.type.text

/-- The pace that a value stands for: the words, or one and zero. -/
def pace? : HostValue κ → Option Pace
  | .string s =>
    if s = Pace.proceed.text then some .proceed
    else if s = Pace.pause.text then some .pause
    else none
  | .number x => if x == 1.0 then some .proceed else if x == 0.0 then some .pause else none
  | _ => none

def invokePace (a : Adapter c σ κ) (method : String) (args : List (HostValue κ)) :
    Act σ (Except CapabilityError Pace) := do
  match ← a.invoke method args with
  | .error e => return .error e
  | .ok v =>
    match pace? v with
    | some p => return .ok p
    | none => return .error (a.returnType method "execution type" v)

def presenter (a : Adapter .presentation σ κ) : Presenter σ where
  started node := a.invokeUnit "dialogue_started" [.string node]
  completed := a.invokeUnit "dialogue_complete" []
  showChoices cs text s :=
    a.invokeUnit "display_options" [.ofChoicesWithText text cs, .callable (.selection s)]
  showLine l text c :=
    a.invokePace "display_line" [.ofLineWithText text l, .callable (.completion c)]
  runCommand cmd c :=
    a.invokePace "execute_command" [.ofCommand cmd, .callable (.completion c)]

/-- Reads a variable; nil means that there is none. -/
def getValue (a : Adapter .variableStorage σ κ) (name : String) :
    Act σ (Except CapabilityError (Option Value)) := do
  match ← a.invoke "get_value" [.string name] with
  | .error e => return .error e
  | .ok v =>
    if v.isNil then return .ok none
    else
      match v.toValue? with
      | some value => return .ok (some value)
      | none => return .error (a.returnType "get_value" "bool/number/string/nil" v)

def store (a : Adapter .variableStorage σ κ) : HostStore σ where
  set name value := a.invokeUnit "set_value" [.string name, .ofValue value]
  get name := a.getValue name
  clear := a.invokeUnit "clear" []
  reset := a.invokeUnit "reset_to_defaults" []

def callableEntries (a : Adapter .commandProvider σ κ) (method : String) :
    List (String × HostValue κ) → Except CapabilityError (List (String × Callable κ))
  | [] => .ok []
  | (name, v) :: rest =>
    match v.callable? with
    | none => .error (a.returnType method "dictionary of callables" v)
    | some f => (callableEntries a method rest).map ((name, f) :: ·)

def callables (a : Adapter .commandProvider σ κ) (method : String) :
    Act σ (Except CapabilityError (Dict String (Callable κ))) := do
  match ← a.invoke method [] with
  | .error e => return .error e
  -- one entry that is no callable spoils all of them
  | .ok (.dictionary entries) => return (a.callableEntries method entries).map Dict.ofList
  | .ok v => return .error (a.returnType method "dictionary" v)

/-- The handler that calls host code with the arguments as a list of texts; its errors are
    passed over. -/
def immediateHandler (call : MethodBody σ κ) : ImmediateHandler σ := fun args => do
  let _ ← call [.strings args]
  return ()

/-- The handler that calls host code with the arguments and the handle. If the call fails the
    handle is used, so that the dialogue goes on. -/
def blockingHandler (call : MethodBody σ κ) : BlockingHandler σ := fun args c => do
  match ← call [.strings args, .callable (.completion c)] with
  | .ok _ => return ()
  | .error _ =>
    let _ ← Act.resuming c
    return ()

/-- The commands of an object. Those that hold the dialogue are optional. -/
def provider (calls : HostCalls σ κ) (a : Adapter .commandProvider σ κ) : CommandProvider σ where
  immediate := do
    let r ← a.callables "command_handlers"
    return r.map (·.map fun f => immediateHandler fun args => f.call calls args)
  blocking := do
    if a.object.hasMethod "blocking_command_handlers" then
      let r ← a.callables "blocking_command_handlers"
      return r.map (·.map fun f => blockingHandler fun args => f.call calls args)
    else return .ok Dict.empty

end Adapter

end DialogueEngine
