import DialogueEngine.Decimal.Layout
import DialogueEngine.Json.Decode

/-! # Values of dialogue variables

A variable holds a truth value, a number or a text, and nothing is converted silently.
-/

namespace DialogueEngine

inductive Value where
  | bool (b : Bool)
  | number (x : Float)
  | string (s : String)
  deriving DecidableEq, Inhabited

namespace Value

def typeName : Value → String
  | .bool _ => "bool"
  | .number _ => "number"
  | .string _ => "string"

def bool? : Value → Option Bool
  | .bool b => some b
  | _ => none

def number? : Value → Option Float
  | .number x => some x
  | _ => none

def string? : Value → Option String
  | .string s => some s
  | _ => none

/-- The value as it appears in a line. -/
def text : Value → String
  | .bool b => if b then "true" else "false"
  | .number x => Decimal.display x
  | .string s => s

def ofFloat32 (x : Float32) : Value := .number x.toFloat

def toJson : Value → Json
  | .bool b => .bool b
  | .number x => .float x
  | .string s => .text s

def ofJson? : Json → Option Value
  | .bool b => some (.bool b)
  | .number lexeme => (Json.Number.ofLexeme? lexeme).map (.number ·.toFloat)
  | .string lexeme => (Json.textOf? lexeme).map .string
  | _ => none

end Value

end DialogueEngine
