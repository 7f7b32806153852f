import DialogueEngine.Commands.Wait
import DialogueEngine.Player.Terminal
import DialogueEngine.Program.Basic
import DialogueEngine.Variables

/-! # A direct interpreter

What a playthrough shows, read off the instructions of a program one after the other. There is no
machine here that hands things out, no coordinator, no presenter and no handle: an instruction says
at once what is written, which lines are read and how long is slept.

* `Operand.valueIn`, `Operand.textsIn` — operands.
* `Interpreter` — where the interpreter is.
* `Interpreter.step` — one instruction.
* `Program.recite` — a whole playthrough, for at most a number of instructions.
-/

namespace DialogueEngine

/-! ## Operands -/

def Operand.valueIn (m : MemoryStore) : Operand → Except EngineError Value
  | .literal value => .ok value
  | .reference name =>
    match m.find? name with
    | some value => .ok value
    | none => .error (.runtime (.undefinedVariable name))

def Operand.textsIn (m : MemoryStore) (ops : List Operand) : Except EngineError (List String) :=
  ops.mapM fun op => (op.valueIn m).map Value.text

/-! ## Instructions -/

structure Interpreter where
  /-- The instructions of the node that are left. -/
  rest : List Instruction
  /-- Options added but not yet shown. -/
  options : List Choice
  memory : MemoryStore
  now : Duration
  /-- The lines of input that are left. -/
  input : List String

namespace Interpreter

/-- Why an interpreter does not come to an end. -/
inductive Halt where
  | unfinished
  | failed (e : EngineError)
  | clockOverflow
  deriving DecidableEq

inductive Step where
  | goes (trace : List TerminalEvent) (next : Interpreter)
  | ends (trace : List TerminalEvent)
  | halts (why : Halt)

/-- Writes a line and waits for any line of input. -/
def say (i : Interpreter) (text : String) : Step :=
  let said := .wrote ((if text.isEmpty then "..." else text) ++ "\n")
  match i.input with
  | [] => .ends [said]
  | line :: input =>
    if PlayerInput.ofLine line = .quit then .ends [said, .read line]
    else .goes [said, .read line] { i with input := input }

def goTo (p : Program) (i : Interpreter) (trace : List TerminalEvent) (node : String) : Step :=
  match p.find? node with
  | some n => .goes trace { i with rest := n.instructions, options := [] }
  | none => .halts (.failed (.runtime (.unknownNode node)))

/-- Asks for the number of an option until there is one, with the lines that are left then. -/
def ask (options : List Choice) :
    List String → List TerminalEvent × Option (Choice × List String)
  | [] => ([.wrote prompt], none)
  | line :: input =>
    let again (text : String) :=
      let (trace, answer) := ask options input
      (.wrote prompt :: .read line :: .wrote text :: trace, answer)
    match PlayerInput.ofLine line with
    | .quit => ([.wrote prompt, .read line], none)
    | .choice id =>
      match options.find? (·.id == id) with
      | some c => ([.wrote prompt, .read line], some (c, input))
      | none => again (notOffered id)
    | _ => again numberWanted

/-- Writes options and goes where the choice leads. -/
def offer (p : Program) (text : Line → String) (i : Interpreter) : Step :=
  let shown := .wrote (String.join (i.options.map fun c => renderOption (c.id, text c.line)))
  let (trace, answer) := ask i.options i.input
  match answer with
  | none => .ends (shown :: trace)
  | some (c, input) => { i with input := input }.goTo p (shown :: trace) c.destination

/-- Carries out a command: sleeps for a time that there is and is not zero, if it is told to wait,
    and writes any other command that has words. -/
def command (i : Interpreter) (c : Command) : Step :=
  match c.tokens with
  | [] => .goes [] i
  | name :: args =>
    if name = waitCommand then
      match Duration.parse? args with
      | none => .goes [] i
      | some d =>
        if d.isZero then .goes [] i
        else
          match i.now.add? d with
          | some now => .goes [.slept d] { i with now := now }
          | none => .halts .clockOverflow
    else .goes [.wrote s!"<<{c.text}>>\n"] i

/-- One instruction, or the end where there is none left. -/
def step (p : Program) (text : Line → String) (i : Interpreter) : Step :=
  match i.rest with
  | [] => .ends [.wrote "（完）\n"]
  | instruction :: rest =>
    let i := { i with rest := rest }
    match instruction with
    | .line id substitutions =>
      match Operand.textsIn i.memory substitutions with
      | .ok ts => i.say (text ⟨id, ts⟩)
      | .error e => .halts (.failed e)
    | .addOption id substitutions destination =>
      match Operand.textsIn i.memory substitutions with
      | .ok ts =>
        let added : Choice := ⟨i.options.length, ⟨id, ts⟩, destination⟩
        .goes [] { i with options := i.options ++ [added] }
      | .error e => .halts (.failed e)
    | .showOptions => if i.options.isEmpty then .goes [] i else i.offer p text
    | .command c => i.command ⟨c⟩
    | .set name operand =>
      match operand.valueIn i.memory with
      | .ok value => .goes [] { i with memory := i.memory.set name value }
      | .error e => .halts (.failed e)
    | .jumpIf name node =>
      if (i.memory.find? name).bind Value.bool? = some true then i.goTo p [] node else .goes [] i
    | .runNode node => i.goTo p [] node
    | .stop => .ends [.wrote "（完）\n"]

/-- Instructions, one after the other, with what happens at the terminal. -/
def run (p : Program) (text : Line → String) : Nat → Interpreter → Except Halt (List TerminalEvent)
  | 0, _ => .error .unfinished
  | fuel + 1, i =>
    match i.step p text with
    | .goes trace next => (run p text fuel next).map (trace ++ ·)
    | .ends trace => .ok trace
    | .halts why => .error why

end Interpreter

/-- What happens at the terminal from a node on, at the beginning of time. -/
def Program.recite (p : Program) (text : Line → String) (memory : MemoryStore) (node : String)
    (input : List String) (fuel : Nat) : Except Interpreter.Halt (List TerminalEvent) :=
  match p.find? node with
  | some n => Interpreter.run p text fuel ⟨n.instructions, [], memory, .zero, input⟩
  | none => .error (.failed (.runtime (.unknownNode node)))

end DialogueEngine
