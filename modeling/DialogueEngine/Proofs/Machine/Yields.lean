import DialogueEngine.Coordinator.Drive

/-! # What the machine hands out

In which state the machine is when it has handed something out, whatever the store answers.

* `Access.All`, `Act.All` — a property of all results that a computation can have.
* `Machine.Idle`, `Machine.Ready`, `Machine.Offers`, `Machine.Moving` — states of the machine.
* `Machine.Carries` — the state that belongs to a yield.
* `Machine.pop_carries` — what is queued is handed out in the state that belongs to it.
-/

namespace DialogueEngine

variable {σ α β : Type}

/-! ## All results of a computation -/

namespace Access

/-- Every result that the computation can have, whatever the store answers, has a property. -/
def All (P : α → Prop) : Access α → Prop
  | .done a => P a
  | .read _ k => ∀ r, (k r).All P
  | .write _ _ k => ∀ r, (k r).All P

theorem All.imp {P Q : α → Prop} (h : ∀ a, P a → Q a) {x : Access α} (all : x.All P) :
    x.All Q := by
  induction x with
  | done a => exact h a all
  | read name k ih => exact fun r => ih r (all r)
  | write name value k ih => exact fun r => ih r (all r)

theorem All.bind {P : α → Prop} {Q : β → Prop} {x : Access α} {f : α → Access β} (h : x.All P)
    (next : ∀ a, P a → (f a).All Q) : (x.bind f).All Q := by
  induction x with
  | done a => exact next a h
  | read name k ih => exact fun r => ih r (h r)
  | write name value k ih => exact fun r => ih r (h r)

end Access

namespace Act

/-- Every result that the host code can have, whatever it is answered, has a property. -/
def All (P : α → Prop) : Act σ α → Prop
  | .done a => P a
  | .read k => ∀ s, (k s).All P
  | .write _ k => k.All P
  | .resume _ k => ∀ r, (k r).All P
  | .resumeAfter _ _ k => ∀ r, (k r).All P
  | .select _ _ k => ∀ r, (k r).All P
  | .isStale _ k => ∀ b, (k b).All P

theorem All.bind {P : α → Prop} {Q : β → Prop} {x : Act σ α} {f : α → Act σ β} (h : x.All P)
    (next : ∀ a, P a → (f a).All Q) : (x.bind f).All Q := by
  induction x with
  | done a => exact next a h
  | write s k ih => exact ih h
  | read k ih | resume c k ih | resumeAfter c d k ih | select s id k ih | isStale c k ih =>
    exact fun r => ih r (h r)

theorem all_trivial (x : Act σ α) : x.All fun _ => True := by
  induction x with
  | done a => trivial
  | write s k ih => exact ih
  | read k ih | resume c k ih | resumeAfter c d k ih | select s id k ih | isStale c k ih => exact ih

theorem all_bind {P : β → Prop} {x : Act σ α} {f : α → Act σ β} (h : ∀ a, (f a).All P) :
    (x.bind f).All P :=
  x.all_trivial.bind fun a _ => h a

/-- Host code inside an operation has one of its results. -/
theorem All.within {P : α → Prop} {act : Act σ α} (h : act.All P) {place : Place}
    {s s' : Session σ} {a : α} (ran : act.within place s = .ok (a, s')) : P a := by
  induction act generalizing s with
  | done b =>
    cases ran
    exact h
  | read k ih => exact ih s.host (h s.host) ran
  | write x k ih => exact ih h ran
  | resume c k ih =>
    simp only [Act.within] at ran
    split at ran
    · cases ran
    · exact ih _ (h _) ran
  | resumeAfter c d k ih =>
    simp only [Act.within] at ran
    split at ran
    · cases ran
    · exact ih _ (h _) ran
  | select c id k ih =>
    simp only [Act.within] at ran
    split at ran
    · cases ran
    · exact ih _ (h _) ran
  | isStale c k ih => exact ih _ (h _) ran

/-- Host code between operations has one of its results. -/
theorem All.between {P : α → Prop} {act : Act σ α} (h : act.All P) {limit : Nat}
    {s s' : Session σ} {a : α} (ran : act.between limit s = .ok (a, s')) : P a := by
  induction act generalizing s with
  | done b =>
    cases ran
    exact h
  | read k ih => exact ih s.host (h s.host) ran
  | write x k ih => exact ih h ran
  | resume c k ih =>
    simp only [Act.between] at ran
    split at ran
    · cases ran
    · exact ih _ (h _) ran
  | resumeAfter c d k ih =>
    simp only [Act.between] at ran
    split at ran
    · cases ran
    · exact ih _ (h _) ran
  | select c id k ih =>
    simp only [Act.between] at ran
    split at ran
    · cases ran
    · exact ih _ (h _) ran
  | isStale c k ih => exact ih _ (h _) ran

end Act

/-- A store only decides between the results that a computation can have. -/
theorem Access.All.onStore {P : α → Prop} {x : Access α} (h : x.All P) (store : Store σ) :
    (x.onStore store).All fun r => P r.1 := by
  induction x generalizing store with
  | done a => exact h
  | read name k ih => exact Act.all_bind fun r => ih r (h r) store
  | write name value k ih => exact Act.all_bind fun r => ih r.1 (h r.1) r.2

/-- On variables in memory a store asks nothing of the host. -/
theorem Access.onStore_done (x : Access α) (m : MemoryStore) :
    x.onStore (σ := σ) (.memory m) = .done ((x.onMemory m).1, .memory (x.onMemory m).2) := by
  induction x generalizing m with
  | done a => rfl
  | read name k ih => exact ih _ m
  | write name value k ih => exact ih _ (m.set name value)

/-! ## Errors -/

/-- The state of the dialogue does not allow what has been asked for. -/
def EngineError.IsRefusal : EngineError → Prop
  | .runtime .notRunning => True
  | .runtime (.invalidOption _) => True
  | .runtime (.dialogueActive _) => True
  | .runtime .awaitingSelection => True
  | _ => False

/-- A result, or an error that is no refusal. -/
def Unrefused (r : Except EngineError α) : Prop := ∀ e, r = .error e → ¬ e.IsRefusal

theorem unrefused_ok (a : α) : Unrefused (.ok a) := nofun

theorem unrefused_error {e : EngineError} (h : ¬ e.IsRefusal) :
    Unrefused (.error e : Except EngineError α) :=
  fun _ he => by cases he; exact h

/-! ## States of the machine -/

/-- A yield that only says where the dialogue is. -/
inductive Yield.IsMark : Yield → Prop
  | nodeStart (node : String) : IsMark (.nodeStart node)
  | nodeComplete (node : String) : IsMark (.nodeComplete node)

namespace Machine

structure Idle (m : Machine) : Prop where
  state : m.state = .stopped
  frame : m.frame = none
  queue : m.queue = []

/-- The machine goes on with an instruction. -/
structure Ready (m : Machine) : Prop where
  state : m.state = .running
  queue : m.queue = []

/-- The machine waits for a choice. -/
structure Offers (m : Machine) (cs : Choices) : Prop where
  state : m.state = .awaitingChoice
  queue : m.queue = []
  offered : m.offered = some cs

/-- The machine goes on, with marks before the next instruction or before the end. -/
inductive Moving (m : Machine) : Prop
  | running (state : m.state = .running) (marks : ∀ y ∈ m.queue, y.IsMark)
  | finishing {q : List Yield} (state : m.state = .stopped) (frame : m.frame = none)
      (queue : m.queue = q ++ [.dialogueComplete]) (marks : ∀ y ∈ q, y.IsMark)

/-- The state that belongs to a yield. -/
def Carries (m : Machine) : Yield → Prop
  | .line _ => m.Ready
  | .choices cs => m.Offers cs
  | .command _ => m.Ready
  | .nodeStart _ => m.Moving
  | .nodeComplete _ => m.Moving
  | .dialogueComplete => m.Idle

theorem Ready.moving {m : Machine} (h : m.Ready) : m.Moving :=
  .running h.state fun y hy => by
    rw [h.queue] at hy
    cases hy

theorem Moving.not_awaiting {m : Machine} (h : m.Moving) : m.state ≠ .awaitingChoice := by
  cases h with
  | running state _ => rw [state]; decide
  | finishing state _ _ _ => rw [state]; decide

theorem idle_stop (m : Machine) : m.stop.Idle := ⟨rfl, rfl, rfl⟩

theorem Carries.of_mark {m : Machine} {y : Yield} (mark : y.IsMark) (h : m.Moving) :
    m.Carries y := by
  cases mark with
  | nodeStart node => exact h
  | nodeComplete node => exact h

theorem leaving_marks (m : Machine) : ∀ y ∈ m.leaving, y.IsMark := by
  intro y hy
  unfold leaving at hy
  cases hf : m.frame with
  | none =>
    rw [hf] at hy
    cases hy
  | some f =>
    rw [hf] at hy
    obtain rfl := List.mem_singleton.mp hy
    exact .nodeComplete f.node

/-! ## Steps between states -/

theorem enter_eq {m m' : Machine} {node : String} (h : m.enter node = .ok m') :
    m.defines node = true ∧ m' = { m.stop with
      frame := some ⟨node, 0⟩
      state := .running
      queue := [.nodeStart node] } := by
  unfold enter at h
  split at h
  · cases h
  · rename_i p program
    split at h
    · rename_i defined
      cases h
      exact ⟨by simp [defines, program, defined], rfl⟩
    · cases h

theorem enter_moving {m m' : Machine} {node : String} (h : m.enter node = .ok m') :
    m'.Moving := by
  obtain ⟨_, rfl⟩ := enter_eq h
  refine .running rfl fun y hy => ?_
  obtain rfl := List.mem_singleton.mp hy
  exact .nodeStart node

theorem moveTo_eq {m m' : Machine} {target : String} (h : m.moveTo target = .ok m') :
    m' = { m with
      frame := some ⟨target, 0⟩
      pending := []
      queue := m.queue ++ m.leaving ++ [.nodeStart target] } := by
  unfold moveTo at h
  split at h
  · cases h
    rfl
  · cases h

theorem moveTo_marks {m m' : Machine} {target : String} (h : m.moveTo target = .ok m')
    (queue : m.queue = []) : m'.queue ≠ [] ∧ ∀ y ∈ m'.queue, y.IsMark := by
  cases moveTo_eq h
  rw [queue]
  refine ⟨by simp, fun y hy => ?_⟩
  rcases List.mem_append.mp hy with hy | hy
  · exact m.leaving_marks y hy
  · obtain rfl := List.mem_singleton.mp hy
    exact .nodeStart target

theorem choose_eq {m m' : Machine} {id : Nat} (h : m.choose id = .ok m') :
    ∃ c m₁, m.moveTo c = .ok m₁ ∧ m' = { m₁ with offered := none, state := .running } := by
  unfold choose at h
  split at h
  · split at h
    · cases h
    · rename_i c _
      cases moved : m.moveTo c.destination with
      | error e =>
        rw [moved] at h
        cases h
      | ok m₁ =>
        rw [moved] at h
        cases h
        exact ⟨c.destination, m₁, moved, rfl⟩
  · cases h

theorem choose_moving {m m' : Machine} {cs : Choices} {id : Nat} (offers : m.Offers cs)
    (h : m.choose id = .ok m') : m'.Moving := by
  obtain ⟨c, m₁, moved, rfl⟩ := choose_eq h
  exact .running rfl (moveTo_marks moved offers.queue).2

theorem add_eq {m m' : Machine} {p : Program} (h : m.add p = .ok m') :
    m' = { m with program := m'.program } := by
  unfold add at h
  split at h
  · cases h
    rfl
  · rename_i old _
    cases merged : old.merge p with
    | error e =>
      rw [merged] at h
      cases h
    | ok q =>
      rw [merged] at h
      cases h
      rfl

theorem finish_moving {m : Machine} (queue : m.queue = []) :
    m.finish.Moving ∧ m.finish.queue ≠ [] := by
  have hq : m.finish.queue = m.leaving ++ [.dialogueComplete] := by simp [finish, queue]
  exact ⟨.finishing rfl rfl hq m.leaving_marks, by rw [hq]; simp⟩

/-- What is queued is handed out in the state that belongs to it. -/
theorem pop_carries {m : Machine} (h : m.Moving) (waiting : m.queue ≠ []) :
    m.pop.2.Carries m.pop.1 := by
  unfold pop
  cases hq : m.queue with
  | nil => exact absurd hq waiting
  | cons y rest =>
    cases h with
    | running state marks =>
      rw [hq] at marks
      exact .of_mark (marks y List.mem_cons_self)
        (.running state fun z hz => marks z (List.mem_cons_of_mem y hz))
    | @finishing q state frame queue marks =>
      rw [hq] at queue
      cases q with
      | nil =>
        cases queue
        exact ⟨state, frame, rfl⟩
      | cons z q =>
        cases queue
        exact .of_mark (marks y List.mem_cons_self)
          (.finishing state frame rfl fun z hz => marks z (List.mem_cons_of_mem y hz))

theorem remaining_error {m : Machine} {e : RuntimeError} (h : m.remaining = .error e) :
    ¬ (EngineError.runtime e).IsRefusal := by
  unfold remaining at h
  split at h
  · cases h
    exact id
  · cases h
    exact id
  · split at h
    · cases h
      exact id
    · cases h

theorem enter_error {m : Machine} {node : String} {e : RuntimeError}
    (h : m.enter node = .error e) : ¬ (EngineError.runtime e).IsRefusal := by
  unfold enter at h
  split at h
  · cases h
    exact id
  · split at h
    · cases h
    · cases h
      exact id

end Machine

end DialogueEngine
