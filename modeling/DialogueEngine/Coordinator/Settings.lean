import DialogueEngine.Program.Basic

/-! # Settings and events of a dialogue

* `Settings` — where a dialogue starts, and the first values of its variables.
* `Phase` — whether a dialogue is going on.
* `LifecycleEvent` — what the host is told of the nodes that a dialogue goes through.
-/

namespace DialogueEngine

/-- Where a dialogue starts, whether it does so as soon as its program is there, and the first
    values of its variables. -/
structure Settings where
  startNode : String
  startAutomatically : Bool
  initialVariables : Dict String Value
  deriving DecidableEq

def Settings.default : Settings := ⟨defaultStart, false, Dict.empty⟩

instance : Inhabited Settings := ⟨Settings.default⟩

def Settings.toJson (s : Settings) : Json :=
  .record [("start_node", .text s.startNode), ("start_automatically", .bool s.startAutomatically),
    ("initial_variables", .dict Value.toJson s.initialVariables.entries)]

def Settings.ofJson? (j : Json) : Option Settings := do
  let fields ← j.fields? ["start_node", "start_automatically", "initial_variables"]
  let startNode ← Json.fieldD? fields "start_node" defaultStart Json.text?
  let startAutomatically ← Json.fieldD? fields "start_automatically" false Json.bool?
  let initialVariables ←
    Json.fieldD? fields "initial_variables" Dict.empty (Json.dict? Value.ofJson?)
  return ⟨startNode, startAutomatically, initialVariables⟩

inductive Phase where
  | notStarted
  | running
  | completed
  deriving DecidableEq, Repr, Inhabited

def Phase.text : Phase → String
  | .notStarted => "NotStarted"
  | .running => "Running"
  | .completed => "Completed"

def Phase.toJson (p : Phase) : Json := .text p.text

def Phase.ofJson? (j : Json) : Option Phase := do
  let (name, body) ← j.variant?
  match name with
  | "NotStarted" => Json.unit? .notStarted body
  | "Running" => Json.unit? .running body
  | "Completed" => Json.unit? .completed body
  | _ => none

/-- What the host is told of the nodes that a dialogue goes through. -/
inductive LifecycleEvent where
  | nodeStart (node : String)
  | nodeComplete (node : String)
  | dialogueComplete
  deriving DecidableEq, Repr

def LifecycleEvent.toJson : LifecycleEvent → Json
  | .nodeStart node => .record [("NodeStart", .text node)]
  | .nodeComplete node => .record [("NodeComplete", .text node)]
  | .dialogueComplete => .text "DialogueComplete"

def LifecycleEvent.ofJson? (j : Json) : Option LifecycleEvent := do
  let (name, body) ← j.variant?
  match name, body with
  | "NodeStart", some node => node.text?.map .nodeStart
  | "NodeComplete", some node => node.text?.map .nodeComplete
  | "DialogueComplete", body => Json.unit? .dialogueComplete body
  | _, _ => none

end DialogueEngine
