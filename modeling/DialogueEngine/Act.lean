import DialogueEngine.Duration
import DialogueEngine.Error

/-! # Acts of the host

Presenters, command handlers and stores belong to the host. What the engine knows of such code is
what it asks for while it runs: its own state, and the handles of suspended dialogues. An `Act` is
the tree of these requests, each with what happens for every answer.

* `Continuation`, `Selector` — handles, known by the number of the suspension they belong to.
* `Act σ α` — host code over a state `σ` with a result in `α`.
* `Act.focus` — the same code over a larger state.
* `Act.detached` — the code without any dialogue: its handles do nothing.
-/

namespace DialogueEngine

/-- A handle that resumes a dialogue after a line or a command. -/
structure Continuation where
  generation : Nat
  deriving DecidableEq, Repr

/-- A handle that resumes a dialogue with a choice. -/
structure Selector where
  generation : Nat
  deriving DecidableEq, Repr

/-- Host code: a tree of requests. -/
inductive Act (σ α : Type) where
  | done (a : α)
  | read (k : σ → Act σ α)
  | write (s : σ) (k : Act σ α)
  | resume (c : Continuation) (k : Except EngineError Unit → Act σ α)
  | resumeAfter (c : Continuation) (d : Duration) (k : Except EngineError Unit → Act σ α)
  | select (s : Selector) (id : Nat) (k : Except EngineError Unit → Act σ α)
  /-- Asks whether a handle has become void. -/
  | isStale (c : Continuation) (k : Bool → Act σ α)

namespace Act

variable {σ τ α β γ : Type}

def bind : Act σ α → (α → Act σ β) → Act σ β
  | .done a, f => f a
  | .read k, f => .read fun s => (k s).bind f
  | .write s k, f => .write s (k.bind f)
  | .resume c k, f => .resume c fun r => (k r).bind f
  | .resumeAfter c d k, f => .resumeAfter c d fun r => (k r).bind f
  | .select s id k, f => .select s id fun r => (k r).bind f
  | .isStale c k, f => .isStale c fun r => (k r).bind f

instance : Monad (Act σ) where
  pure := .done
  bind := bind

theorem bind_done (x : Act σ α) : x.bind .done = x := by
  induction x with
  | done a => rfl
  | write s k ih => exact congrArg (write s) ih
  | read k ih => exact congrArg read (funext ih)
  | resume c k ih => exact congrArg (resume c) (funext ih)
  | resumeAfter c d k ih => exact congrArg (resumeAfter c d) (funext ih)
  | select s id k ih => exact congrArg (select s id) (funext ih)
  | isStale c k ih => exact congrArg (isStale c) (funext ih)

protected theorem bind_assoc (x : Act σ α) (f : α → Act σ β) (g : β → Act σ γ) :
    (x.bind f).bind g = x.bind fun a => (f a).bind g := by
  induction x with
  | done a => rfl
  | write s k ih => exact congrArg (write s) ih
  | read k ih => exact congrArg read (funext ih)
  | resume c k ih => exact congrArg (resume c) (funext ih)
  | resumeAfter c d k ih => exact congrArg (resumeAfter c d) (funext ih)
  | select s id k ih => exact congrArg (select s id) (funext ih)
  | isStale c k ih => exact congrArg (isStale c) (funext ih)

instance : LawfulMonad (Act σ) := .mk' _ bind_done (fun _ _ => rfl) Act.bind_assoc

def state : Act σ σ := .read .done

def modify (f : σ → σ) : Act σ Unit := .read fun s => .write (f s) (.done ())

def resuming (c : Continuation) : Act σ (Except EngineError Unit) := .resume c .done

def resumingAfter (c : Continuation) (d : Duration) : Act σ (Except EngineError Unit) :=
  .resumeAfter c d .done

def selecting (s : Selector) (id : Nat) : Act σ (Except EngineError Unit) := .select s id .done

def staleness (c : Continuation) : Act σ Bool := .isStale c .done

/-- The same code on a part of a larger state. -/
def focus (get : τ → σ) (put : σ → τ → τ) : Act σ α → Act τ α
  | .done a => .done a
  | .read k => .read fun t => (k (get t)).focus get put
  -- the rest of the larger state may have changed since the last read
  | .write s k => .read fun t => .write (put s t) (k.focus get put)
  | .resume c k => .resume c fun r => (k r).focus get put
  | .resumeAfter c d k => .resumeAfter c d fun r => (k r).focus get put
  | .select s id k => .select s id fun r => (k r).focus get put
  | .isStale c k => .isStale c fun r => (k r).focus get put

/-- Runs host code where no dialogue exists any more: handles do nothing, and all are void. -/
def detached : Act σ α → σ → α × σ
  | .done a, s => (a, s)
  | .read k, s => (k s).detached s
  | .write s k, _ => k.detached s
  | .resume _ k, s => (k (.ok ())).detached s
  | .resumeAfter _ _ k, s => (k (.ok ())).detached s
  | .select _ _ k, s => (k (.ok ())).detached s
  | .isStale _ k, s => (k true).detached s

end Act

end DialogueEngine
