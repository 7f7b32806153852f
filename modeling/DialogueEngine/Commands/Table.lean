import DialogueEngine.Act
import DialogueEngine.Dict

/-! # Command tables

Which code of the host handles which command. A command is found under its first word, or, if it
has at least two arguments, under `object::command` with its second word as the object.

* `Handler` — code that runs and is done, or that holds the dialogue until its handle is used.
* `CommandTable.insert`, `CommandTable.remove` — a name is given to a handler only while it is free.
* `CommandTable.resolve` — look-up.
* `CommandProvider`, `CommandTable.importAll` — many handlers at once.
-/

namespace DialogueEngine

abbrev ImmediateHandler (σ : Type) := List String → Act σ Unit

/-- Code that holds the dialogue until its handle is used. -/
abbrev BlockingHandler (σ : Type) := List String → Continuation → Act σ Unit

inductive Handler (σ : Type) where
  | immediate (run : ImmediateHandler σ)
  | blocking (run : BlockingHandler σ)

def Handler.isBlocking {σ : Type} : Handler σ → Bool
  | .immediate _ => false
  | .blocking _ => true

structure CommandProvider (σ : Type) where
  immediate : Act σ (Except CapabilityError (Dict String (ImmediateHandler σ)))
  blocking : Act σ (Except CapabilityError (Dict String (BlockingHandler σ)))

/-- A command that has been found: the name it was found under, and what is left as arguments. -/
structure Resolved (σ : Type) where
  name : String
  handler : Handler σ
  args : List String

structure CommandTable (σ : Type) where
  handlers : Dict String (Handler σ)

namespace CommandTable

variable {σ : Type}

def empty : CommandTable σ := ⟨Dict.empty⟩

instance : Inhabited (CommandTable σ) := ⟨empty⟩

def find? (t : CommandTable σ) (name : String) : Option (Handler σ) := t.handlers.find? name

def contains (t : CommandTable σ) (name : String) : Bool := t.handlers.contains name

def names (t : CommandTable σ) : List String := t.handlers.keys

def size (t : CommandTable σ) : Nat := t.handlers.size

def isEmpty (t : CommandTable σ) : Bool := t.handlers.isEmpty

def insert (t : CommandTable σ) (name : String) (h : Handler σ) : Bool × CommandTable σ :=
  if t.contains name then (false, t) else (true, ⟨t.handlers.insert name h⟩)

def remove (t : CommandTable σ) (name : String) : Bool × CommandTable σ :=
  if t.contains name then (true, ⟨t.handlers.erase name⟩) else (false, t)

/-- Inserts handlers one after the other and counts those whose names were free. -/
def insertAll (t : CommandTable σ) (hs : List (String × Handler σ)) : Nat × CommandTable σ :=
  hs.foldl (fun (added, t) (name, h) =>
    let (new, t) := t.insert name h
    (if new then added + 1 else added, t)) (0, t)

def scopedName (object command : String) : String := object ++ "::" ++ command

def resolve (t : CommandTable σ) : List String → Option (Resolved σ)
  | [] => none
  | name :: args =>
    match t.find? name with
    | some h => some ⟨name, h, args⟩
    | none =>
      match args with
      -- an object alone, without an argument, is no scoped command
      | object :: arg :: rest =>
        (t.find? (scopedName object name)).map fun h => ⟨scopedName object name, h, arg :: rest⟩
      | _ => none

/-- Inserts all handlers of a provider, those that hold the dialogue last, and tells how many
    names were free. If the provider fails nothing is inserted. -/
def importAll (t : CommandTable σ) (p : CommandProvider σ) :
    Act σ (Except CapabilityError Nat × CommandTable σ) := do
  match ← p.immediate with
  | .error e => return (.error e, t)
  | .ok immediate =>
    match ← p.blocking with
    | .error e => return (.error e, t)
    | .ok blocking =>
      let (n, t) := t.insertAll (immediate.entries.map fun e => (e.1, .immediate e.2))
      let (m, t) := t.insertAll (blocking.entries.map fun e => (e.1, .blocking e.2))
      return (.ok (n + m), t)

end CommandTable

end DialogueEngine
