import DialogueEngine.Json.Text

/-! # Documents

The syntax tree of a JSON document. Numbers and strings are kept as they are written, so that a
part of a document that nobody reads may hold a number too large for a double, or a string that
is no text.

* `Json.depth`, `Json.isSound` — nesting, and whether every leaf has a value.
* `Json.text`, `Json.float` and their like — documents of values.
-/

namespace DialogueEngine

/-- A JSON document, with the lexemes of its leaves. -/
inductive Json where
  | null
  | bool (b : Bool)
  | number (lexeme : List UInt8)
  | string (lexeme : List UInt8)
  | array (items : List Json)
  | object (members : List (List UInt8 × Json))

namespace Json

instance : Inhabited Json := ⟨.null⟩

mutual

/-- The number of containers around the innermost leaf. -/
def depth : Json → Nat
  | .array items => depthItems items + 1
  | .object members => depthMembers members + 1
  | _ => 0

def depthItems : List Json → Nat
  | [] => 0
  | j :: rest => max j.depth (depthItems rest)

def depthMembers : List (List UInt8 × Json) → Nat
  | [] => 0
  | (_, j) :: rest => max j.depth (depthMembers rest)

end

mutual

/-- Whether every number has a value and every string is a text. -/
def isSound : Json → Bool
  | .null => true
  | .bool _ => true
  | .number lexeme => (Number.ofLexeme? lexeme).isSome
  | .string lexeme => (textOf? lexeme).isSome
  | .array items => areSound items
  | .object members => areSoundMembers members

def areSound : List Json → Bool
  | [] => true
  | j :: rest => j.isSound && areSound rest

def areSoundMembers : List (List UInt8 × Json) → Bool
  | [] => true
  | (key, j) :: rest => (textOf? key).isSome && j.isSound && areSoundMembers rest

end

def text (s : String) : Json := .string (lexemeOf s)

/-- The document of a double; what is not finite is written as null. -/
def float (x : Float) : Json := (ofFloat? x).elim .null .number

def natural (n : Nat) : Json := .number ((Nat.toDigits 10 n).map ascii)

def list {α : Type} (f : α → Json) (xs : List α) : Json := .array (xs.map f)

def record (members : List (String × Json)) : Json :=
  .object (members.map fun m => (lexemeOf m.1, m.2))

def dict {α : Type} (f : α → Json) (entries : List (String × α)) : Json :=
  record (entries.map fun e => (e.1, f e.2))

end Json

end DialogueEngine
