import DialogueEngine.Dict
import DialogueEngine.Json.Basic

/-! # Values of documents

Readers for the shapes that programs, tables and settings are made of. Every reader gives none
where the document has another shape.

* `text?`, `bool?`, `float?`, `index?` — leaves.
* `items?`, `dict?` — lists and dictionaries; of two members with one key the later counts.
* `fields?` — records, as objects or as arrays of the fields in order; `field?` and `fieldD?` take
  one field, required or with a default.
* `variant?`, `unit?` — one of several cases, named by a text or by the key of an object.
-/

namespace DialogueEngine.Json

variable {α : Type}

def text? : Json → Option String
  | .string lexeme => textOf? lexeme
  | _ => none

def bool? : Json → Option Bool
  | .bool b => some b
  | _ => none

def number? : Json → Option Number
  | .number lexeme => Number.ofLexeme? lexeme
  | _ => none

def float? (j : Json) : Option Float := j.number?.map Number.toFloat

/-- A natural number of 64 bits, written as a whole number. -/
def index? (j : Json) : Option Nat :=
  match j.number? with
  | some (.natural n) => some n
  | _ => none

def items? (f : Json → Option α) : Json → Option (List α)
  | .array items => items.mapM f
  | _ => none

def dict? (f : Json → Option α) : Json → Option (Dict String α)
  | .object members => do
    let entries ← members.mapM fun m => do
      let key ← textOf? m.1
      let x ← f m.2
      return (key, x)
    return Dict.ofList entries
  | _ => none

/-- The members of an object under the given names; all keys have to be texts, and none of the
    names may occur twice. -/
def namedFields? (names : List String) :
    List (List UInt8 × Json) → List (String × Json) → Option (List (String × Json))
  | [], found => some found
  | (k, j) :: rest, found => do
    let key ← textOf? k
    if key ∈ names then
      if (Entries.find? key found).isSome then none
      else namedFields? names rest ((key, j) :: found)
    else namedFields? names rest found

/-- The fields of a record that are there, under their names. An array gives them in the order of
    the names, and the last ones may be left out. -/
def fields? (names : List String) : Json → Option (List (String × Json))
  | .object members => namedFields? names members []
  | .array items => if items.length ≤ names.length then some (names.zip items) else none
  | _ => none

def field? (fields : List (String × Json)) (name : String) (f : Json → Option α) : Option α :=
  (Entries.find? name fields).bind f

def fieldD? (fields : List (String × Json)) (name : String) (default : α) (f : Json → Option α) :
    Option α :=
  match Entries.find? name fields with
  | some j => f j
  | none => some default

/-- The name of a case and what it carries: a text alone, or an object with one member. -/
def variant? : Json → Option (String × Option Json)
  | .string lexeme => (textOf? lexeme).map (·, none)
  | .object [(k, j)] => (textOf? k).map (·, some j)
  | _ => none

/-- A case that carries nothing, or null. -/
def unit? (x : α) : Option Json → Option α
  | none => some x
  | some .null => some x
  | some _ => none

end DialogueEngine.Json
