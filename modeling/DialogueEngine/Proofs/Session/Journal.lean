import DialogueEngine.Proofs.Session.Lifecycle

/-! # Journals of a presenter

A presenter can write the calls that it gets into a journal in the state of the host. Nothing else
that the host does need touch the journal.

* `PresenterCall`, `Hears` — the calls that belong to a record.
* `Act.Writes`, `Act.Keeps` — what host code does to a journal.
* `Session.Journals` — the presenter writes a journal that no other host code touches.
-/

namespace DialogueEngine

variable {σ α β : Type}

inductive PresenterCall where
  | started (node : String)
  | line (l : Line)
  | choices (cs : Choices)
  | command (cmd : Command)
  | completed
  deriving DecidableEq

/-- The calls that belong to something that happens. A command goes to the presenter unless there
    is a handler for it. -/
inductive Happening.Heard : Happening σ → List PresenterCall → Prop
  | started (node : String) : Heard (.entered node) [.started node]
  | line (l : Line) (h : Option Handle) : Heard (.delivered (.line l) h) [.line l]
  | choices (cs : Choices) (h : Option Handle) : Heard (.delivered (.choices cs) h) [.choices cs]
  | command (cmd : Command) (h : Option Handle) :
    Heard (.delivered (.command cmd) h) [.command cmd]
  | handled (cmd : Command) (h : Option Handle) : Heard (.delivered (.command cmd) h) []
  | nodeStart (node : String) (h : Option Handle) : Heard (.delivered (.nodeStart node) h) []
  | nodeComplete (node : String) (h : Option Handle) : Heard (.delivered (.nodeComplete node) h) []
  | completed (h : Option Handle) : Heard (.delivered .dialogueComplete h) [.completed]
  | silent {a : Happening σ} (unstarted : ¬ a.IsStart) (undelivered : a.yield? = none) : Heard a []

/-- The calls that belong to a record. -/
inductive Hears : List (Happening σ) → List PresenterCall → Prop
  | nil : Hears [] []
  | cons {a : Happening σ} {t : List (Happening σ)} {calls more : List PresenterCall}
      (heard : a.Heard calls) (hears : Hears t more) : Hears (a :: t) (calls ++ more)

namespace Hears

variable {t t' : List (Happening σ)} {calls more : List PresenterCall}

theorem one {a : Happening σ} (heard : a.Heard calls) : Hears [a] calls := by
  have hears := cons heard nil
  rw [List.append_nil] at hears
  exact hears

theorem append (hears : Hears t calls) (hears' : Hears t' more) :
    Hears (t ++ t') (calls ++ more) := by
  induction hears with
  | nil => exact hears'
  | cons heard _ ih =>
    rw [List.append_assoc]
    exact .cons heard ih

end Hears

/-- Neither the presenter nor the host is told. -/
def Happening.Silent (a : Happening σ) : Prop := ¬ a.IsStart ∧ a.yield? = none

/-- The host is told nothing. -/
def Silence (t : List (Happening σ)) : Prop := ∀ a ∈ t, a.Silent

namespace Silence

variable {t t' : List (Happening σ)}

theorem nil : Silence ([] : List (Happening σ)) := fun _ ha => absurd ha List.not_mem_nil

theorem cons {a : Happening σ} (silent : a.Silent) (silence : Silence t) : Silence (a :: t) := by
  intro b hb
  rcases List.mem_cons.mp hb with rfl | hb
  · exact silent
  · exact silence b hb

theorem append (silence : Silence t) (silence' : Silence t') : Silence (t ++ t') := by
  intro a ha
  rcases List.mem_append.mp ha with ha | ha
  · exact silence a ha
  · exact silence' a ha

theorem one {a : Happening σ} (silent : a.Silent) : Silence [a] := .cons silent nil

theorem moment (s : Session σ) : Silence [Happening.moment s] := one ⟨id, rfl⟩

theorem used (h : Handle) : Silence [(.used h : Happening σ)] := one ⟨id, rfl⟩

theorem picked (id : Nat) : Silence [(.picked id : Happening σ)] := one ⟨fun starts => starts, rfl⟩

theorem wrote (x : σ) : Silence [Happening.wrote x] := one ⟨id, rfl⟩

theorem writes (e : Errand) (x : σ) : Silence (e.writes x) := by
  cases e with
  | machine => exact nil
  | handover => exact .wrote x
  | client => exact .wrote x

theorem hears (silence : Silence t) : Hears t [] := by
  induction t with
  | nil => exact .nil
  | cons a t ih =>
    obtain ⟨unstarted, undelivered⟩ := silence a List.mem_cons_self
    exact .cons (.silent unstarted undelivered)
      (ih fun b hb => silence b (List.mem_cons_of_mem a hb))

theorem told (silence : Silence t) : told t = [] := by
  have none : deliveries t = [] := List.filterMap_eq_nil_iff.mpr fun a ha => (silence a ha).2
  exact told_nil_of none

end Silence

/-! ## Host code inside an operation -/

/-- Nothing happens that the host is told of. -/
def Recorded.Quiet (x : Recorded σ α) : Prop := Silence x.happenings

namespace Recorded.Quiet

theorem bind {x : Recorded σ α} {f : α → Recorded σ β} (hx : x.Quiet) (hf : ∀ a, (f a).Quiet) :
    (x >>= f).Quiet := by
  cases h : x.outcome with
  | error e =>
    rw [Quiet, bind_fault h]
    exact hx
  | ok a =>
    rw [Quiet, happenings_bind h]
    exact hx.append (hf a)

theorem note {l : List (Happening σ)} {f : Unit → Recorded σ β} (silence : Silence l)
    (hf : (f ()).Quiet) : (Recorded.note l >>= f).Quiet :=
  bind (x := Recorded.note l) silence fun _ => hf

theorem wake {place : Place} {s : Session σ} {used more : List (Happening σ)}
    {use : Coordinator.Use σ} (silence : Silence used) (silence' : Silence more) :
    (Recorded.wake place s used more use).Quiet := by
  cases use with
  | ignored => exact silence
  | refused e => exact silence
  | failed e =>
    cases place with
    | handover => exact silence
    | store => exact silence
  | resumed c =>
    cases place with
    | handover => exact silence.append silence'
    | store => exact silence

theorem within (e : Errand) (act : Act σ α) (s : Session σ) :
    (Recorded.within e act s).Quiet := by
  induction act generalizing s with
  | done a => exact note (.moment s) .nil
  | read k ih => exact note (.moment s) (ih s.host s)
  | write x k ih => exact note (.append (.moment s) (.writes e x)) (ih _)
  | resume h k ih => exact note (.moment s) (bind (wake (.used _) .nil) fun r => ih r.1 r.2)
  | resumeAfter h d k ih =>
    refine note (.moment s) (bind ?_ fun r => ih r.1 r.2)
    unfold Recorded.delay
    split
    · exact wake (.used _) .nil
    · split
      · exact .used _
      · exact .used _
  | select h id k ih =>
    exact note (.moment s) (bind (wake (.used _) (.picked id)) fun r => ih r.1 r.2)
  | isStale h k ih => exact note (.moment s) (ih _ s)

end Recorded.Quiet

namespace Act

variable {log : σ → List PresenterCall}

/-- Inside an operation host code takes a journal from one state to another. -/
def Writes (log : σ → List PresenterCall) : Act σ α → List PresenterCall → List PresenterCall → Prop
  | .done _, l, l' => l' = l
  | .read k, l, l' => ∀ x, log x = l → (k x).Writes log l l'
  | .write x k, _, l' => k.Writes log (log x) l'
  | .resume _ k, l, l' => ∀ r, (k r).Writes log l l'
  | .resumeAfter _ _ k, l, l' => ∀ r, (k r).Writes log l l'
  | .select _ _ k, l, l' => ∀ r, (k r).Writes log l l'
  | .isStale _ k, l, l' => ∀ b, (k b).Writes log l l'

/-- Host code never changes a journal. A handle that it uses may do so. -/
def Keeps (log : σ → List PresenterCall) : Act σ α → List PresenterCall → Prop
  | .done _, _ => True
  | .read k, l => ∀ x, log x = l → (k x).Keeps log l
  | .write x k, l => log x = l ∧ k.Keeps log l
  | .resume _ k, _ => ∀ r l, (k r).Keeps log l
  | .resumeAfter _ _ k, _ => ∀ r l, (k r).Keeps log l
  | .select _ _ k, _ => ∀ r l, (k r).Keeps log l
  | .isStale _ k, l => ∀ b, (k b).Keeps log l

/-- Host code that never looks after the journal of a session. -/
def Apart (log : σ → List PresenterCall) (act : Act σ α) : Prop := ∀ l, act.Writes log l l

theorem Writes.bind_all {P : α → Prop} {x : Act σ α} {f : α → Act σ β}
    {l l' l'' : List PresenterCall}
    (hx : x.Writes log l l') (all : x.All P) (hf : ∀ a, P a → (f a).Writes log l' l'') :
    (x.bind f).Writes log l l'' := by
  induction x generalizing l with
  | done a =>
    cases hx
    exact hf a all
  | read k ih => exact fun y hy => ih y (hx y hy) (all y)
  | write y k ih => exact ih hx all
  | resume h k ih => exact fun r => ih r (hx r) (all r)
  | resumeAfter h d k ih => exact fun r => ih r (hx r) (all r)
  | select h id k ih => exact fun r => ih r (hx r) (all r)
  | isStale h k ih => exact fun b => ih b (hx b) (all b)

theorem Writes.bind {x : Act σ α} {f : α → Act σ β} {l l' l'' : List PresenterCall}
    (hx : x.Writes log l l') (hf : ∀ a, (f a).Writes log l' l'') : (x.bind f).Writes log l l'' :=
  hx.bind_all x.all_trivial fun a _ => hf a

theorem Writes.within {act : Act σ α} {place : Place} {s s' : Session σ} {a : α}
    {l' : List PresenterCall} (writes : act.Writes log (log s.host) l')
    (ran : act.within place s = .ok (a, s')) : log s'.host = l' := by
  induction act generalizing s with
  | done b =>
    cases ran
    exact writes.symm
  | read k ih => exact ih s.host (writes s.host rfl) ran
  | write x k ih => exact ih (s := { s with host := x }) writes ran
  | resume h k ih =>
    simp only [Act.within] at ran
    split at ran
    · cases ran
    · rename_i woke
      have same := (Session.wake_keeps (fun _ => Coordinator.useContinuation_keeps) woke).2
      exact ih _ (same ▸ writes _) ran
  | resumeAfter h d k ih =>
    simp only [Act.within] at ran
    split at ran
    · cases ran
    · rename_i delayed
      have same := (Session.delay_keeps delayed).2
      exact ih _ (same ▸ writes _) ran
  | select h id k ih =>
    simp only [Act.within] at ran
    split at ran
    · cases ran
    · rename_i woke
      have same := (Session.wake_keeps (fun _ => Coordinator.useSelector_keeps) woke).2
      exact ih _ (same ▸ writes _) ran
  | isStale h k ih => exact ih _ (writes _) ran

end Act

/-! ## Journals -/

/-- A presenter writes every call that it gets into a journal, and nothing else. -/
structure Presenter.Journals (log : σ → List PresenterCall) (p : Presenter σ) : Prop where
  started : ∀ node l, (p.started node).Writes log l (l ++ [.started node])
  completed : ∀ l, p.completed.Writes log l (l ++ [.completed])
  choices : ∀ cs text h l, (p.showChoices cs text h).Writes log l (l ++ [.choices cs])
  line : ∀ x text k l, (p.showLine x text k).Writes log l (l ++ [.line x])
  command : ∀ cmd k l, (p.runCommand cmd k).Writes log l (l ++ [.command cmd])

structure HostStore.Apart (log : σ → List PresenterCall) (h : HostStore σ) : Prop where
  set : ∀ name value, (h.set name value).Apart log
  get : ∀ name, (h.get name).Apart log
  clear : h.clear.Apart log
  reset : h.reset.Apart log

def Store.Apart (log : σ → List PresenterCall) : Store σ → Prop
  | .memory _ => True
  | .host h => h.Apart log

def Handler.Apart (log : σ → List PresenterCall) : Handler σ → Prop
  | .immediate run => ∀ args, (run args).Apart log
  | .blocking run => ∀ args k, (run args k).Apart log

def CommandTable.Apart (log : σ → List PresenterCall) (t : CommandTable σ) : Prop :=
  ∀ name h, t.find? name = some h → h.Apart log

def Operation.Apart (log : σ → List PresenterCall) : Operation σ → Prop
  | .host act => ∀ l, act.Keeps log l
  | .register _ h => h.Apart log
  | .equip act => ∀ t : CommandTable σ, t.Apart log →
    (∀ l, (act t).Keeps log l) ∧ (act t).All fun r => r.2.Apart log
  | _ => True

/-- The presenter of a session writes a journal that no other code of the host touches. -/
structure Session.Journals (log : σ → List PresenterCall) (s : Session σ) : Prop where
  presenter : s.coordinator.presenter.Journals log
  store : s.coordinator.store.Apart log
  commands : s.coordinator.commands.Apart log

section Journals

variable {log : σ → List PresenterCall}

theorem Session.Journals.kept {s s' : Session σ} (journals : s.Journals log)
    (keeps : s.coordinator.Keeps s'.coordinator) : s'.Journals log where
  presenter := keeps.presenter ▸ journals.presenter
  store := keeps.store ▸ journals.store
  commands := keeps.commands ▸ journals.commands

namespace Store

variable {store : Store σ}

theorem get_apart (apart : store.Apart log) (name : String) : (store.get name).Apart log := by
  intro l
  cases store with
  | memory m => exact rfl
  | host h => exact HostStore.Apart.get apart name l

theorem set_apart (apart : store.Apart log) (name : String) (value : Value) :
    (store.set name value).Apart log := by
  intro l
  cases store with
  | memory m => exact rfl
  | host h => exact (HostStore.Apart.set apart name value l).bind fun _ => rfl

theorem set_all (apart : store.Apart log) (name : String) (value : Value) :
    (store.set name value).All fun r => r.2.Apart log := by
  cases store with
  | memory m => exact trivial
  | host h => exact Act.all_bind fun r => apart

end Store

theorem Change.act_apart (change : Change) {store : Store σ} (apart : store.Apart log) :
    (change.act store).Apart log := by
  intro l
  cases store with
  | memory m => cases change <;> exact rfl
  | host h =>
    cases change with
    | set name value => exact (HostStore.Apart.set apart name value l).bind fun _ => rfl
    | clear => exact (HostStore.Apart.clear apart l).bind fun _ => rfl
    | reset => exact (HostStore.Apart.reset apart l).bind fun _ => rfl

theorem Change.onStore_apart (change : Change) {store : Store σ} (apart : store.Apart log) :
    (change.onStore store).Apart log := by
  cases store with
  | memory m => trivial
  | host h => exact apart

namespace Access

theorem onStore_apart (x : Access α) {store : Store σ} (apart : store.Apart log) :
    (x.onStore store).Apart log := by
  intro l
  induction x generalizing store with
  | done a => exact rfl
  | read name k ih => exact (store.get_apart apart name l).bind fun r => ih r apart
  | write name value k ih =>
    exact (store.set_apart apart name value l).bind_all (store.set_all apart name value)
      fun r kept => ih r.1 kept

theorem onStore_all (x : Access α) {store : Store σ} (apart : store.Apart log) :
    (x.onStore store).All fun r => r.2.Apart log := by
  induction x generalizing store with
  | done a => exact apart
  | read name k ih => exact Act.all_bind fun r => ih r apart
  | write name value k ih =>
    exact (store.set_all apart name value).bind fun r kept => ih r.1 kept

end Access

theorem CommandTable.resolve_apart {t : CommandTable σ} (apart : t.Apart log) {words : List String}
    {r : Resolved σ} (resolved : t.resolve words = some r) : r.handler.Apart log := by
  obtain ⟨name, found⟩ := find?_of_resolve resolved
  exact apart name r.handler found

theorem CommandTable.empty_apart : (CommandTable.empty : CommandTable σ).Apart log :=
  fun _ _ found => by cases found

theorem CommandTable.insert_apart {t : CommandTable σ} (apart : t.Apart log) {name : String}
    {h : Handler σ} (also : h.Apart log) : (t.insert name h).2.Apart log := by
  intro name' h' found
  rcases find?_of_insert found with rfl | found
  · exact also
  · exact apart name' h' found

theorem CommandTable.remove_apart {t : CommandTable σ} (apart : t.Apart log) (name : String) :
    (t.remove name).2.Apart log :=
  fun name' h' found => apart name' h' (find?_of_remove found)

end Journals

end DialogueEngine
