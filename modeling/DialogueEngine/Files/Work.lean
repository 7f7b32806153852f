import DialogueEngine.Files.Working

/-! # Work with files

A `FileWork` is a computation that asks for files. It is the tree of its requests, each with what
happens for every answer, so that it can be done on a real disk and reasoned about in a folder
that is a value.
-/

namespace DialogueEngine

/-- A computation that asks for files. -/
inductive FileWork (α : Type) where
  | done (a : α)
  /-- Asks whether there is a file or a folder. -/
  | present (path : String) (k : Bool → FileWork α)
  | read (path : String) (k : Option (List UInt8) → FileWork α)
  /-- Lists all files below a folder, folder by folder in the order of their names; a file is
      below itself. If the path of a folder is too long, it is the answer instead. -/
  | walk (path : String) (k : Except String (List String) → FileWork α)
  /-- Writes a file and tells whether that was possible. -/
  | save (path : String) (bytes : List UInt8) (k : Bool → FileWork α)

namespace FileWork

variable {α β γ : Type}

def bind : FileWork α → (α → FileWork β) → FileWork β
  | .done a, f => f a
  | .present path k, f => .present path fun r => (k r).bind f
  | .read path k, f => .read path fun r => (k r).bind f
  | .walk path k, f => .walk path fun r => (k r).bind f
  | .save path bytes k, f => .save path bytes fun r => (k r).bind f

instance : Monad FileWork where
  pure := .done
  bind := bind

theorem bind_done (x : FileWork α) : x.bind .done = x := by
  induction x with
  | done a => rfl
  | present path k ih => exact congrArg (present path) (funext ih)
  | read path k ih => exact congrArg (read path) (funext ih)
  | walk path k ih => exact congrArg (walk path) (funext ih)
  | save path bytes k ih => exact congrArg (save path bytes) (funext ih)

protected theorem bind_assoc (x : FileWork α) (f : α → FileWork β) (g : β → FileWork γ) :
    (x.bind f).bind g = x.bind fun a => (f a).bind g := by
  induction x with
  | done a => rfl
  | present path k ih => exact congrArg (present path) (funext ih)
  | read path k ih => exact congrArg (read path) (funext ih)
  | walk path k ih => exact congrArg (walk path) (funext ih)
  | save path bytes k ih => exact congrArg (save path bytes) (funext ih)

instance : LawfulMonad FileWork := .mk' _ bind_done (fun _ _ => rfl) FileWork.bind_assoc

def isPresent (path : String) : FileWork Bool := .present path .done

def bytesOf (path : String) : FileWork (Option (List UInt8)) := .read path .done

def filesBelow (path : String) : FileWork (Except String (List String)) := .walk path .done

/-- Runs a computation in a working folder. -/
def within : FileWork α → WorkingFolder → α × WorkingFolder
  | .done a, w => (a, w)
  | .present path k, w => (k (w.lookup? path).isSome).within w
  | .read path k, w => (k (w.read? path)).within w
  -- nothing is below a path that leads nowhere
  | .walk path k, w => (k ((w.walk? path).getD (.ok []))).within w
  | .save path bytes k, w =>
    match w.save? path bytes with
    | none => (k false).within w
    | some w => (k true).within w

end FileWork

end DialogueEngine
