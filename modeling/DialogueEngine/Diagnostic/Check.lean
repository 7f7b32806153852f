import DialogueEngine.Diagnostic.Basic
import DialogueEngine.Program.Description
import DialogueEngine.Program.Reachable
import DialogueEngine.StringTable

/-! # Checks of programs

Checks that need no run of the program.

* `Program.check` — the start node, targets that do not exist, sets of options that are empty,
  and nodes that cannot be reached.
* `Program.checkLines` — keys of lines and options that a string table lacks.
* `Program.checkWith` — both.
-/

namespace DialogueEngine.Program

def checkTarget (p : Program) (node : String) (index : Nat) (i : Instruction) : Report :=
  match i.target? with
  | some target =>
    if p.defines target then []
    else
      [((Diagnostic.ofProgram .error p.name s!"跳转目标不存在: {target}").at' node
        (some index)).withDetail i.describe]
  | none => []

def checkOptions (p : Program) (node : String) (index added : Nat) (i : Instruction) : Report :=
  if i = .showOptions ∧ added = 0 then
    [(Diagnostic.ofProgram .warn p.name "显示选项前没有添加任何选项").at' node (some index)]
  else []

/-- The number of options added so far, after one more instruction. -/
def addedAfter (added : Nat) : Instruction → Nat
  | .addOption .. => added + 1
  | .showOptions => 0
  | .runNode _ => 0
  | .stop => 0
  | _ => added

def checkInstructions (p : Program) (node : String) (index added : Nat) :
    List Instruction → Report
  | [] => []
  | i :: rest =>
    p.checkTarget node index i ++ p.checkOptions node index added i ++
      checkInstructions p node (index + 1) (addedAfter added i) rest

/-- Reports the nodes that cannot be reached, if the start node exists. -/
def checkReachable (p : Program) (start : String) : Report :=
  if p.defines start then
    let found := p.reachable start
    (p.names.filter fun name => decide (name ∉ found)).map fun name =>
      (Diagnostic.ofProgram .warn p.name s!"节点不可达: {name}").at' name none
  else []

def checkStart (p : Program) (start : String) : Report :=
  if p.defines start then [] else [.ofProgram .error p.name s!"起始节点不存在: {start}"]

def check (p : Program) (start : String) : Report :=
  p.checkStart start ++
    p.nodes.entries.flatMap (fun e => p.checkInstructions e.1 0 0 e.2.instructions) ++
    p.checkReachable start

def lineId? : Instruction → Option String
  | .line id _ => some id
  | .addOption id _ _ => some id
  | _ => none

def checkLine (p : Program) (t : StringTable) (node : String) (index : Nat) (i : Instruction) :
    Report :=
  match lineId? i with
  | some id =>
    if t.contains id then []
    else [(Diagnostic.ofProgram .warn p.name s!"字符串表缺少: {id}").at' node (some index)]
  | none => []

def checkLines (p : Program) (t : StringTable) : Report :=
  p.nodes.entries.flatMap fun e =>
    (e.2.instructions.mapIdx fun index i => p.checkLine t e.1 index i).flatten

/-- Both checks together; a table without texts is not compared with. -/
def checkWith (p : Program) (start : String) (t : StringTable) : Report :=
  p.check start ++ (if t.isEmpty then [] else p.checkLines t)

end DialogueEngine.Program
