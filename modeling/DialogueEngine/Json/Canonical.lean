import DialogueEngine.Dict
import DialogueEngine.Json.Basic

/-! # Canonical documents

One document for each value that documents write.
-/

namespace DialogueEngine.Json

def ofNumber : Number → Json
  | .natural n => .natural n
  | .negative n => .number (ascii '-' :: (Nat.toDigits 10 n).map ascii)
  | .real x => .float x

mutual

/-- The same value with numbers and texts written in one way, and with the members of an object
    in the order of their keys; of two members with one key the later counts. -/
def canonical : Json → Json
  | .null => .null
  | .bool b => .bool b
  | .number lexeme => (Number.ofLexeme? lexeme).elim .null ofNumber
  | .string lexeme => .text ((textOf? lexeme).getD "")
  | .array items => .array (canonicalItems items)
  | .object members => .record (Dict.ofList (canonicalMembers members)).entries

def canonicalItems : List Json → List Json
  | [] => []
  | j :: rest => j.canonical :: canonicalItems rest

def canonicalMembers : List (List UInt8 × Json) → List (String × Json)
  | [] => []
  | (key, j) :: rest => ((textOf? key).getD "", j.canonical) :: canonicalMembers rest

end

end DialogueEngine.Json
