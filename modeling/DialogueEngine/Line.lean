import DialogueEngine.Json.Decode
import DialogueEngine.Text.Blank

/-! # What a dialogue hands out

Lines, choices and commands, as they leave the machine.
-/

namespace DialogueEngine

/-- A line of dialogue: a key into the string table, and the texts for its placeholders. -/
structure Line where
  id : String
  substitutions : List String
  deriving DecidableEq, Inhabited

structure Choice where
  id : Nat
  line : Line
  destination : String
  deriving DecidableEq, Inhabited

structure Choices where
  options : List Choice
  deriving DecidableEq, Inhabited

structure Command where
  text : String
  deriving DecidableEq, Inhabited

namespace Choices

def ids (cs : Choices) : List Nat := cs.options.map (·.id)

/-- The first option with a number. -/
def find? (cs : Choices) (id : Nat) : Option Choice := cs.options.find? (·.id == id)

def contains (cs : Choices) (id : Nat) : Bool := (cs.find? id).isSome

def size (cs : Choices) : Nat := cs.options.length

def isEmpty (cs : Choices) : Bool := cs.options.isEmpty

end Choices

/-- The words of a command: its name and its arguments. -/
def Command.tokens (c : Command) : List String := Text.words c.text

/-! ## In documents -/

def Line.toJson (l : Line) : Json :=
  .record [("id", .text l.id), ("substitutions", .list .text l.substitutions)]

def Line.ofJson? (j : Json) : Option Line := do
  let fields ← j.fields? ["id", "substitutions"]
  let id ← Json.field? fields "id" Json.text?
  let substitutions ← Json.fieldD? fields "substitutions" [] (Json.items? Json.text?)
  return ⟨id, substitutions⟩

def Choice.toJson (c : Choice) : Json :=
  .record [("id", .natural c.id), ("line", c.line.toJson), ("destination", .text c.destination)]

def Choice.ofJson? (j : Json) : Option Choice := do
  let fields ← j.fields? ["id", "line", "destination"]
  let id ← Json.field? fields "id" Json.index?
  let line ← Json.field? fields "line" Line.ofJson?
  let destination ← Json.field? fields "destination" Json.text?
  return ⟨id, line, destination⟩

def Choices.toJson (cs : Choices) : Json := .record [("options", .list Choice.toJson cs.options)]

def Choices.ofJson? (j : Json) : Option Choices := do
  let fields ← j.fields? ["options"]
  let options ← Json.field? fields "options" (Json.items? Choice.ofJson?)
  return ⟨options⟩

def Command.toJson (c : Command) : Json := .record [("text", .text c.text)]

def Command.ofJson? (j : Json) : Option Command := do
  let fields ← j.fields? ["text"]
  let text ← Json.field? fields "text" Json.text?
  return ⟨text⟩

end DialogueEngine
