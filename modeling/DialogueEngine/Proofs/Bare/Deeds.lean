import DialogueEngine.Proofs.Machine.Representation
import DialogueEngine.Proofs.Session.Replay

/-! # What is done with a bare machine

A machine on its store, with everything that can be done with it from outside: it is asked for
something, its variables are changed and read, and the host changes its own state. Every answer is
kept, also those that are errors.

* `Access.run`, `Bare.run` — a computation on a store, without any dialogue.
* `Deed`, `Feedback` — what is done, and the answer.
* `Bare.take`, `Bare.after`, `Bare.trace` — one deed, all of them, and all answers with the states
  after them.
-/

namespace DialogueEngine

variable {σ α β : Type}

/-! ## Computations on a store -/

theorem Act.detached_bind (x : Act σ α) (f : α → Act σ β) (s : σ) :
    (x.bind f).detached s = (f (x.detached s).1).detached (x.detached s).2 := by
  induction x generalizing s with
  | done a => rfl
  | write x k ih => exact ih x
  | read k ih => exact ih s s
  | resume c k ih => exact ih (.ok ()) s
  | resumeAfter c d k ih => exact ih (.ok ()) s
  | select c id k ih => exact ih (.ok ()) s
  | isStale c k ih => exact ih true s

namespace Access

/-- The result of a computation on a store, with the store and the state of the host afterwards. -/
def run (x : Access α) (store : Store σ) (host : σ) : α × Store σ × σ :=
  let r := (x.onStore store).detached host
  (r.1.1, r.1.2, r.2)

theorem run_read (name : String) (k : Except CapabilityError (Option Value) → Access α)
    (store : Store σ) (host : σ) :
    (read name k).run store host =
      (k ((store.get name).detached host).1).run store ((store.get name).detached host).2 := by
  simp only [run, onStore, Act.detached_bind]

theorem run_write (name : String) (value : Value) (k : Except CapabilityError Unit → Access α)
    (store : Store σ) (host : σ) :
    (write name value k).run store host =
      (k ((store.set name value).detached host).1.1).run ((store.set name value).detached host).1.2
        ((store.set name value).detached host).2 := by
  simp only [run, onStore, Act.detached_bind]

theorem run_bind (x : Access α) (f : α → Access β) (store : Store σ) (host : σ) :
    (x.bind f).run store host =
      (f (x.run store host).1).run (x.run store host).2.1 (x.run store host).2.2 := by
  induction x generalizing store host with
  | done a => rfl
  | read name k ih =>
    rw [run_read, ← ih]
    exact run_read name _ store host
  | write name value k ih =>
    rw [run_write, ← ih]
    exact run_write name value _ store host

/-- What holds of every result holds of the one on this store. -/
theorem All.run {P : α → Prop} {x : Access α} (all : x.All P) (store : Store σ) (host : σ) :
    P (x.run store host).1 := by
  induction x generalizing store host with
  | done a => exact all
  | read name k ih =>
    rw [run_read]
    exact ih _ (all _) _ _
  | write name value k ih =>
    rw [run_write]
    exact ih _ (all _) _ _

end Access

/-! ## Deeds -/

/-- Something that is done with a bare machine. -/
inductive Deed (σ : Type) where
  | request (q : Machine.Request)
  /-- The variables are changed from outside. -/
  | change (change : Change)
  /-- A variable is read from outside. -/
  | read (name : String)
  /-- The host changes its state. -/
  | host (f : σ → σ)

inductive Feedback where
  | machine (reply : Machine.Reply)
  | changed (r : Except CapabilityError Unit)
  | found (r : Except CapabilityError (Option Value))
  | silent

namespace Bare

/-- Runs a computation that has a machine as its result besides an answer. -/
def run (b : Bare σ) (x : Access (α × Machine)) : α × Bare σ :=
  let r := x.run b.store b.host
  (r.1.1, ⟨r.1.2, r.2.1, r.2.2⟩)

theorem run_bind (b : Bare σ) (x : Access (α × Machine)) (f : α × Machine → Access (β × Machine)) :
    b.run (x.bind f) = (b.run x).2.run (f ((b.run x).1, (b.run x).2.machine)) := by
  simp only [run, Access.run_bind]

def take (b : Bare σ) : Deed σ → Feedback × Bare σ
  | .request q =>
    let r := b.run (b.machine.serve q)
    (.machine r.1, r.2)
  | .change change =>
    let r := (change.act b.store).detached b.host
    (.changed r.1.1, ⟨b.machine, r.1.2, r.2⟩)
  | .read name =>
    let r := (b.store.get name).detached b.host
    (.found r.1, ⟨b.machine, b.store, r.2⟩)
  | .host f => (.silent, ⟨b.machine, b.store, f b.host⟩)

def after (b : Bare σ) (deeds : List (Deed σ)) : Bare σ :=
  deeds.foldl (fun b d => (b.take d).2) b

/-- The answers to deeds, each with the bare machine after it. -/
def trace (b : Bare σ) : List (Deed σ) → List (Feedback × Bare σ)
  | [] => []
  | d :: deeds => b.take d :: (b.take d).2.trace deeds

theorem trace_append (b : Bare σ) (deeds more : List (Deed σ)) :
    b.trace (deeds ++ more) = b.trace deeds ++ (b.after deeds).trace more := by
  induction deeds generalizing b with
  | nil => rfl
  | cons d deeds ih => simp only [List.cons_append, trace, ih, after, List.foldl_cons]

end Bare

end DialogueEngine
