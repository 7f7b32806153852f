import DialogueEngine.Json.Parser
import DialogueEngine.Json.Printer
import DialogueEngine.Program.Basic

/-! # Programs as documents

A compiled program is stored as a JSON document. An instruction is a record whose member `op`
names it; unknown members are passed over.

* `Instruction.ofJson?` — instructions are read whole before their name is known, so that also
  the members passed over have to be sound and must not nest too deep.
-/

namespace DialogueEngine

/-! ## Writing -/

def Operand.toJson : Operand → Json
  | .literal value => .record [("literal", value.toJson)]
  | .reference name => .record [("variable", .text name)]

def Instruction.toJson : Instruction → Json
  | .line id substitutions =>
    .record [("op", .text "line"), ("id", .text id),
      ("substitutions", .list Operand.toJson substitutions)]
  | .addOption id substitutions destination =>
    .record [("op", .text "add_option"), ("id", .text id),
      ("substitutions", .list Operand.toJson substitutions), ("destination", .text destination)]
  | .showOptions => .record [("op", .text "show_options")]
  | .command text => .record [("op", .text "command"), ("text", .text text)]
  | .set name value =>
    .record [("op", .text "set"), ("variable", .text name), ("value", value.toJson)]
  | .jumpIf name node =>
    .record [("op", .text "jump_if"), ("variable", .text name), ("node", .text node)]
  | .runNode node => .record [("op", .text "run_node"), ("node", .text node)]
  | .stop => .record [("op", .text "stop")]

def Node.toJson (n : Node) : Json :=
  .record [("tags", .list .text n.tags), ("instructions", .list Instruction.toJson n.instructions)]

def Program.toJson (p : Program) : Json :=
  .record [("name", .text p.name), ("nodes", .dict Node.toJson p.nodes.entries)]

def Program.encode (p : Program) : List UInt8 := p.toJson.write

/-! ## Reading -/

/-- Containers may nest to this depth where a document is read as a whole. -/
def Json.depthLimit : Nat := 127

def Operand.ofJson? (j : Json) : Option Operand :=
  match j.variant? with
  | some ("literal", some value) => (Value.ofJson? value).map .literal
  | some ("variable", some name) => name.text?.map .reference
  | _ => none

namespace Instruction

/-- The name of an instruction and the record of its other members: an object with a member `op`,
    or an array that starts with the name. -/
def split? : Json → Option (String × Json)
  | .object members =>
    let isOp := fun m : List UInt8 × Json => Json.textOf? m.1 == some "op"
    match members.filter isOp with
    | [(_, op)] => op.text?.map (·, .object (members.filter fun m => !isOp m))
    | _ => none
  | .array (op :: fields) => op.text?.map (·, .array fields)
  | _ => none

def substitutions? (fields : List (String × Json)) : Option (List Operand) :=
  Json.fieldD? fields "substitutions" [] (Json.items? Operand.ofJson?)

def ofParts? (op : String) (body : Json) : Option Instruction :=
  match op with
  | "line" => do
    let fields ← body.fields? ["id", "substitutions"]
    let id ← Json.field? fields "id" Json.text?
    let substitutions ← substitutions? fields
    return .line id substitutions
  | "add_option" => do
    let fields ← body.fields? ["id", "substitutions", "destination"]
    let id ← Json.field? fields "id" Json.text?
    let substitutions ← substitutions? fields
    let destination ← Json.field? fields "destination" Json.text?
    return .addOption id substitutions destination
  | "show_options" => (body.fields? []).map fun _ => .showOptions
  | "command" => do
    let fields ← body.fields? ["text"]
    let text ← Json.field? fields "text" Json.text?
    return .command text
  | "set" => do
    let fields ← body.fields? ["variable", "value"]
    let name ← Json.field? fields "variable" Json.text?
    let value ← Json.field? fields "value" Operand.ofJson?
    return .set name value
  | "jump_if" => do
    let fields ← body.fields? ["variable", "node"]
    let name ← Json.field? fields "variable" Json.text?
    let node ← Json.field? fields "node" Json.text?
    return .jumpIf name node
  | "run_node" => do
    let fields ← body.fields? ["node"]
    let node ← Json.field? fields "node" Json.text?
    return .runNode node
  | "stop" => (body.fields? []).map fun _ => .stop
  | _ => none

def ofJson? (level : Nat) (j : Json) : Option Instruction :=
  -- the record is read whole before its name is looked at
  if j.isSound && level + j.depth ≤ Json.depthLimit then
    (split? j).bind fun (op, body) => ofParts? op body
  else none

end Instruction

def Node.ofJson? (level : Nat) (j : Json) : Option Node := do
  let fields ← j.fields? ["tags", "instructions"]
  let tags ← Json.fieldD? fields "tags" [] (Json.items? Json.text?)
  let instructions ←
    Json.fieldD? fields "instructions" [] (Json.items? (Instruction.ofJson? (level + 2)))
  return ⟨tags, instructions⟩

def Program.ofJson? (j : Json) : Option Program := do
  let fields ← j.fields? ["name", "nodes"]
  let name ← Json.fieldD? fields "name" "" Json.text?
  let nodes ← Json.field? fields "nodes" (Json.dict? (Node.ofJson? 2))
  return ⟨name, nodes⟩

def Program.decode? (bytes : List UInt8) : Option Program :=
  (Json.parse? bytes).bind Program.ofJson?

def Program.decode (bytes : List UInt8) : Except ProgramError Program :=
  match Program.decode? bytes with
  | some p => .ok p
  | none => .error .undecodable

end DialogueEngine
