import DialogueEngine.Line
import DialogueEngine.Program.Basic
import DialogueEngine.Variables

/-! # The dialogue machine

The machine walks through the instructions of a program and stops at each thing to hand out. It
does not know what is done with it: whoever asks for the next one decides when to go on.

* `Machine.enter`, `Machine.choose`, `Machine.stop` — starting at a node, choosing an option,
  ending.
* `Machine.load`, `Machine.add`, `Machine.unload` — the program.
-/

namespace DialogueEngine

/-- What the machine hands out. -/
inductive Yield where
  | line (l : Line)
  | choices (cs : Choices)
  | command (c : Command)
  | nodeStart (node : String)
  | nodeComplete (node : String)
  | dialogueComplete
  deriving DecidableEq, Inhabited

inductive MachineState where
  | stopped
  | running
  | awaitingChoice
  deriving DecidableEq, Repr, Inhabited

/-- A place in a program: a node and the number of instructions already fetched from it. -/
structure Frame where
  node : String
  position : Nat
  deriving DecidableEq, Repr

structure Machine where
  program : Option Program
  frame : Option Frame
  state : MachineState
  /-- Options added but not yet shown. -/
  pending : List Choice
  /-- Options of which one has to be chosen. -/
  offered : Option Choices
  /-- What is handed out before the next instruction is fetched. -/
  queue : List Yield
  deriving DecidableEq

namespace Machine

def empty : Machine := ⟨none, none, .stopped, [], none, []⟩

instance : Inhabited Machine := ⟨empty⟩

def defines (m : Machine) (name : String) : Bool := m.program.any (·.defines name)

def tags? (m : Machine) (name : String) : Option (List String) :=
  (m.program.bind (·.find? name)).map (·.tags)

def names (m : Machine) : List String := m.program.elim [] Program.names

def currentNode (m : Machine) : Option String := m.frame.map (·.node)

/-- Ends the run and forgets what has not been handed out. -/
def stop (m : Machine) : Machine :=
  { m with frame := none, state := .stopped, pending := [], offered := none, queue := [] }

def load (m : Machine) (p : Program) : Machine := { m.stop with program := some p }

def add (m : Machine) (p : Program) : Except ProgramError Machine :=
  match m.program with
  | none => .ok { m with program := some p }
  -- a run goes on where it is, with the nodes of both
  | some old => (old.merge p).map fun q => { m with program := some q }

def unload (m : Machine) : Machine := { m.stop with program := none }

def enter (m : Machine) (name : String) : Except RuntimeError Machine :=
  match m.program with
  | none => .error .noProgramLoaded
  | some p =>
    if p.defines name then
      .ok { m.stop with frame := some ⟨name, 0⟩, state := .running, queue := [.nodeStart name] }
    else .error (.unknownNode name)

def leaving (m : Machine) : List Yield := m.frame.elim [] fun f => [.nodeComplete f.node]

/-- Leaves the present node and goes to the beginning of another. -/
def moveTo (m : Machine) (target : String) : Except RuntimeError Machine :=
  if m.defines target then
    .ok { m with
      frame := some ⟨target, 0⟩
      -- options that were added but never shown are lost
      pending := []
      queue := m.queue ++ m.leaving ++ [.nodeStart target] }
  else .error (.unknownNode target)

def choose (m : Machine) (id : Nat) : Except RuntimeError Machine :=
  if m.state = .awaitingChoice then
    match m.offered.bind (·.find? id) with
    | none => .error (.invalidOption id)
    | some c => (m.moveTo c.destination).map fun m => { m with offered := none, state := .running }
  else .error (.invalidState "没有等待中的选项")

end Machine

end DialogueEngine
