import DialogueEngine.Dict
import DialogueEngine.Error
import DialogueEngine.Value

/-! # Programs

A compiled dialogue: named nodes, each with tags and a list of instructions. Programs can be put
together as long as no node is defined twice.
-/

namespace DialogueEngine

def defaultStart : String := "Start"

/-- What an instruction computes with: a value, or the value that a variable has. -/
inductive Operand where
  | literal (value : Value)
  | reference (name : String)
  deriving DecidableEq, Inhabited

inductive Instruction where
  | line (id : String) (substitutions : List Operand)
  /-- Adds an option to those that are shown next. -/
  | addOption (id : String) (substitutions : List Operand) (destination : String)
  | showOptions
  | command (text : String)
  | set (name : String) (value : Operand)
  /-- Goes to a node if a variable is true. -/
  | jumpIf (name : String) (node : String)
  | runNode (node : String)
  | stop
  deriving DecidableEq, Inhabited

def Instruction.target? : Instruction → Option String
  | .addOption _ _ destination => some destination
  | .jumpIf _ node => some node
  | .runNode node => some node
  | _ => none

structure Node where
  tags : List String
  instructions : List Instruction
  deriving DecidableEq, Inhabited

def Node.targets (n : Node) : List String := n.instructions.filterMap Instruction.target?

structure Program where
  name : String
  nodes : Dict String Node
  deriving DecidableEq, Inhabited

namespace Program

def empty : Program := ⟨"", Dict.empty⟩

def find? (p : Program) (name : String) : Option Node := p.nodes.find? name

def defines (p : Program) (name : String) : Bool := p.nodes.contains name

def names (p : Program) : List String := p.nodes.keys

def size (p : Program) : Nat := p.nodes.size

def isEmpty (p : Program) : Bool := p.nodes.isEmpty

def withNode (p : Program) (name : String) (node : Node) : Program :=
  { p with nodes := p.nodes.insert name node }

/-- Takes the nodes of another program in. A name that both define is an error, and the first such
    name is told. -/
def merge (p other : Program) : Except ProgramError Program :=
  match other.names.find? p.defines with
  | some node => .error (.nodeConflict node)
  | none => .ok { p with nodes := p.nodes.insertAll other.nodes.entries }

/-- Puts programs together; the names of those that have one are joined. -/
def combine (programs : List Program) : Except ProgramError Program :=
  -- merging keeps the first name, here that of the empty program
  (programs.foldlM merge empty).map fun p =>
    { p with name := "+".intercalate ((programs.map (·.name)).filter (· ≠ "")) }

def targets (p : Program) : List String :=
  (Dict.ofList ((p.nodes.values.flatMap Node.targets).map (·, ()))).keys

end Program

end DialogueEngine
