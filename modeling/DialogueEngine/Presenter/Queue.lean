import DialogueEngine.Presenter.Basic

/-! # The queueing presenter

A presenter that shows nothing itself: it queues what is to be shown and keeps the handles, and
the host takes both when it is ready.
-/

namespace DialogueEngine

inductive PresentationEvent where
  | dialogueStarted (node : String)
  | dialogueComplete
  | displayLine (text : String)
  /-- The texts of options, by their numbers. -/
  | displayOptions (options : Dict Nat String)
  | unhandledCommand (text : String)
  deriving DecidableEq

namespace PresentationEvent

def toJson : PresentationEvent → Json
  | .dialogueStarted node =>
    .record [("DialogueStarted", .record [("node", .text node)])]
  | .dialogueComplete => .text "DialogueComplete"
  | .displayLine text => .record [("DisplayLine", .record [("text", .text text)])]
  | .displayOptions options =>
    .record [("DisplayOptions", .record
      [("options", .dict .text
        (options.entries.map fun e => (String.ofList (Nat.toDigits 10 e.1), e.2)))])]
  | .unhandledCommand text =>
    .record [("UnhandledCommand", .record [("text", .text text)])]

def keyIndex? (key : List UInt8) : Option Nat :=
  match Json.Number.ofLexeme? key with
  | some (.natural n) => some n
  | _ => none

def options? : Json → Option (Dict Nat String)
  | .object members => do
    let entries ← members.mapM fun m => do
      let id ← keyIndex? m.1
      let text ← m.2.text?
      return (id, text)
    return Dict.ofList entries
  | _ => none

def ofJson? (j : Json) : Option PresentationEvent := do
  let (name, body) ← j.variant?
  match name, body with
  | "DialogueStarted", some body => do
    let fields ← body.fields? ["node"]
    let node ← Json.field? fields "node" Json.text?
    return .dialogueStarted node
  | "DialogueComplete", body => Json.unit? .dialogueComplete body
  | "DisplayLine", some body => do
    let fields ← body.fields? ["text"]
    let text ← Json.field? fields "text" Json.text?
    return .displayLine text
  | "DisplayOptions", some body => do
    let fields ← body.fields? ["options"]
    let options ← Json.field? fields "options" options?
    return .displayOptions options
  | "UnhandledCommand", some body => do
    let fields ← body.fields? ["text"]
    let text ← Json.field? fields "text" Json.text?
    return .unhandledCommand text
  | _, _ => none

end PresentationEvent

/-- What is to be shown, and the handles of what has been handed over last. -/
structure PresentationQueue where
  events : List PresentationEvent
  continuation : Option Continuation
  selector : Option Selector
  deriving DecidableEq

namespace PresentationQueue

def empty : PresentationQueue := ⟨[], none, none⟩

instance : Inhabited PresentationQueue := ⟨empty⟩

def push (q : PresentationQueue) (e : PresentationEvent) : PresentationQueue :=
  { q with events := q.events ++ [e] }

def awaitsContinue (q : PresentationQueue) : Bool := q.continuation.isSome

def awaitsChoice (q : PresentationQueue) : Bool := q.selector.isSome

def drain (q : PresentationQueue) : List PresentationEvent × PresentationQueue :=
  (q.events, { q with events := [] })

def optionTexts (cs : Choices) (text : Line → String) : Dict Nat String :=
  Dict.ofList (cs.options.map fun c => (c.id, text c.line))

/-- The presenter that queues everything. A line and a set of options wait for their handles; a
    command that nobody handles is queued and passed over. -/
def presenter : Presenter PresentationQueue where
  started node := do
    Act.modify (·.push (.dialogueStarted node))
    return .ok ()
  completed := do
    Act.modify fun q =>
      { q with continuation := none, selector := none }.push .dialogueComplete
    return .ok ()
  showChoices cs text s := do
    Act.modify fun q => { q with selector := some s }.push (.displayOptions (optionTexts cs text))
    return .ok ()
  showLine l text c := do
    Act.modify fun q => { q with continuation := some c }.push (.displayLine (text l))
    return .ok .pause
  runCommand cmd _ := do
    Act.modify (·.push (.unhandledCommand cmd.text))
    return .ok .proceed

/-- Resumes the line that is waited for; answers whether there was one. The handle is taken out
    first, as the dialogue may hand over the next line while it is resumed. -/
def proceed : Act PresentationQueue (Except EngineError Bool) := do
  let q ← Act.state
  match q.continuation with
  | none => return .ok false
  | some c =>
    Act.modify fun q => { q with continuation := none }
    return (← Act.resuming c).map fun _ => true

def keep (s : Selector) (q : PresentationQueue) : PresentationQueue :=
  match q.selector with
  | none => { q with selector := some s }
  | some _ => q

/-- Chooses one of the options that are waited for; answers whether there were any. After the
    number of an option that is not offered the handle is kept, so that one can choose again. -/
def choose (id : Nat) : Act PresentationQueue (Except EngineError Bool) := do
  let q ← Act.state
  match q.selector with
  | none => return .ok false
  | some s =>
    Act.modify fun q => { q with selector := none }
    match ← Act.selecting s id with
    | .ok () => return .ok true
    | .error e =>
      match e with
      | .runtime (.invalidOption _) => Act.modify (keep s)
      -- after any other error the choice is lost, even if the options are still offered
      | _ => pure ()
      return .error e

end PresentationQueue

end DialogueEngine
