import DialogueEngine.Program.Basic
import DialogueEngine.Text.Quoted

/-! # Descriptions of instructions

An instruction on one line, with its parts named, as reports show it.
-/

namespace DialogueEngine

def describeRecord (name : String) (parts : List (String × String)) : String :=
  name ++ " \x7b " ++ ", ".intercalate (parts.map fun p => p.1 ++ ": " ++ p.2) ++ " \x7d"

def describeList (items : List String) : String := "[" ++ ", ".intercalate items ++ "]"

def Value.describe : Value → String
  | .bool b => "Bool(" ++ (if b then "true" else "false") ++ ")"
  | .number x => "Number(" ++ Decimal.describe x ++ ")"
  | .string s => "String(" ++ Text.quoted s ++ ")"

def Operand.describe : Operand → String
  | .literal value => "Literal(" ++ value.describe ++ ")"
  | .reference name => "Variable(" ++ Text.quoted name ++ ")"

def Instruction.describe : Instruction → String
  | .line id substitutions =>
    describeRecord "Line"
      [("id", Text.quoted id),
        ("substitutions", describeList (substitutions.map Operand.describe))]
  | .addOption id substitutions destination =>
    describeRecord "AddOption"
      [("id", Text.quoted id),
        ("substitutions", describeList (substitutions.map Operand.describe)),
        ("destination", Text.quoted destination)]
  | .showOptions => "ShowOptions"
  | .command text => describeRecord "Command" [("text", Text.quoted text)]
  | .set name value =>
    describeRecord "Set" [("variable", Text.quoted name), ("value", value.describe)]
  | .jumpIf name node =>
    describeRecord "JumpIf" [("variable", Text.quoted name), ("node", Text.quoted node)]
  | .runNode node => describeRecord "RunNode" [("node", Text.quoted node)]
  | .stop => "Stop"

end DialogueEngine
