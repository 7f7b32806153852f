import DialogueEngine.Machine.Basic

/-! # Steps of the machine

One step runs instructions until something is to be handed out.

* `Operand.evaluate`, `Operand.texts` — operands, with the variables they read.
* `Machine.execute` — instructions from the present place to the next thing to hand out.

A step walks down the rest of the present node, so that it ends whatever the store answers.
-/

namespace DialogueEngine

def Operand.evaluate : Operand → Access (Except EngineError Value)
  | .literal value => .done (.ok value)
  | .reference name => .read name fun r =>
    match r with
    | .error e => .done (.error (.capability e))
    | .ok none => .done (.error (.runtime (.undefinedVariable name)))
    | .ok (some value) => .done (.ok value)

def Operand.texts : List Operand → Access (Except EngineError (List String))
  | [] => .done (.ok [])
  | op :: rest => op.evaluate.bind fun r =>
    match r with
    | .error e => .done (.error e)
    | .ok value => (texts rest).bind fun r =>
      match r with
      | .error e => .done (.error e)
      | .ok ts => .done (.ok (value.text :: ts))

namespace Machine

abbrev Stepped := Except EngineError Yield × Machine

def fail (m : Machine) (e : EngineError) : Access Stepped := .done (.error e, m)

def yield (m : Machine) (y : Yield) : Access Stepped := .done (.ok y, m)

/-- Hands out what is queued first; an empty queue ends the dialogue. -/
def pop (m : Machine) : Yield × Machine :=
  match m.queue with
  | [] => (.dialogueComplete, m)
  | y :: rest => (y, { m with queue := rest })

def yieldQueued (m : Machine) : Access Stepped := .done (.ok m.pop.1, m.pop.2)

def finish (m : Machine) : Machine :=
  { m with
    frame := none
    state := .stopped
    pending := []
    queue := m.queue ++ m.leaving ++ [.dialogueComplete] }

def advance (m : Machine) : Machine :=
  { m with frame := m.frame.map fun f => { f with position := f.position + 1 } }

/-- Adds an option to those shown next; options are numbered from zero. -/
def addChoice (m : Machine) (line : Line) (destination : String) : Machine :=
  { m with pending := m.pending ++ [⟨m.pending.length, line, destination⟩] }

def offer (m : Machine) : Machine :=
  { m with pending := [], offered := some ⟨m.pending⟩, state := .awaitingChoice }

def jump (m : Machine) (node : String) : Access Stepped :=
  match m.moveTo node with
  | .error e => m.fail (.runtime e)
  | .ok m => m.yieldQueued

/-- Runs instructions until something is to be handed out. -/
def execute (m : Machine) : List Instruction → Access Stepped
  | [] => m.finish.yieldQueued
  | i :: rest =>
    -- counted first, so that the next step goes on behind an instruction that fails
    let m := m.advance
    match i with
    | .line id substitutions => (Operand.texts substitutions).bind fun r =>
      match r with
      | .error e => m.fail e
      | .ok ts => m.yield (.line ⟨id, ts⟩)
    | .addOption id substitutions destination => (Operand.texts substitutions).bind fun r =>
      match r with
      | .error e => m.fail e
      | .ok ts => execute (m.addChoice ⟨id, ts⟩ destination) rest
    | .showOptions =>
      -- without options there is nothing to choose, and the machine would never go on
      if m.pending.isEmpty then execute m rest else m.offer.yield (.choices ⟨m.pending⟩)
    | .command text => m.yield (.command ⟨text⟩)
    | .set name operand => operand.evaluate.bind fun r =>
      match r with
      | .error e => m.fail e
      | .ok value => .write name value fun r =>
        match r with
        | .error e => m.fail (.capability e)
        | .ok () => execute m rest
    | .jumpIf name node => .read name fun r =>
      match r with
      | .error e => m.fail (.capability e)
      -- a variable that is missing or no truth value counts as false
      | .ok flag => if flag.bind Value.bool? = some true then m.jump node else execute m rest
    | .runNode node => m.jump node
    | .stop => m.finish.yieldQueued

def remaining (m : Machine) : Except RuntimeError (List Instruction) :=
  match m.program, m.frame with
  | none, _ => .error .noProgramLoaded
  | some _, none => .error (.invalidState "没有执行位置")
  | some p, some f =>
    match p.find? f.node with
    | none => .error (.unknownNode f.node)
    | some node => .ok (node.instructions.drop f.position)

/-- One step: hands out what is queued, and else runs instructions. -/
def next (m : Machine) : Access Stepped :=
  if m.queue.isEmpty then
    match m.state with
    | .awaitingChoice => m.fail (.runtime .awaitingSelection)
    | .stopped => m.fail (.runtime (.invalidState "VM 未在执行"))
    | .running =>
      match m.remaining with
      | .error e => m.fail (.runtime e)
      | .ok instructions => m.execute instructions
  else m.yieldQueued

end Machine

end DialogueEngine
