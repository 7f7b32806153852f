import DialogueEngine.Proofs.Coordinator.Deadlines
import DialogueEngine.Proofs.Coordinator.Suspension
import DialogueEngine.Proofs.Machine.Yields
import DialogueEngine.Proofs.Session.Replay
import Mathlib.Data.List.Forall2

/-! # A session beside a new one

A session that has run dialogues before and one that has not, with the same program and the same
variables. They differ in the numbers of their handles, in the time on their clocks and in what is
left of the machine, and the host of the first may still have handles of earlier dialogues.

* `Pairing` — what such a pair of sessions is compared by.
* `Pairing.Acts` — host code on both sides, step by step. Handles of earlier dialogues are used on
  one side only.
* `Pairing.Coordinators`, `Pairing.Sessions` — what both sides have in common.
* `Pairing.Uses` — the use of a handle comes to the same on both sides.
-/

namespace DialogueEngine

variable {σ τ α β α' β' : Type}

/-- How a session is compared with a new one. -/
structure Pairing (σ τ : Type) where
  /-- By how much the numbers of the first session's handles are larger. -/
  offset : Nat
  /-- What the states of the hosts have in common. -/
  hosts : σ → τ → Prop
  /-- Whether waits are left of earlier dialogues. -/
  left : Prop
  /-- Whether handles of earlier dialogues are made to wait. -/
  waits : Prop

namespace Pairing

variable (P : Pairing σ τ)

/-- Handles of the same suspension on both sides. -/
def Handles (n n' : Nat) : Prop := n = n' + P.offset ∧ 0 < n'

/-- A handle of an earlier dialogue. -/
def Old (n : Nat) : Prop := n ≤ P.offset

/-! ## Host code -/

/-- Host code does the same on both sides. What it does besides with handles of earlier dialogues
    is answered as if they were void. -/
inductive Acts (R : α → β → Prop) : Act σ α → Act τ β → Prop
  | done {a : α} {b : β} (result : R a b) : Acts R (.done a) (.done b)
  | read {k : σ → Act σ α} {k' : τ → Act τ β}
      (next : ∀ x y, P.hosts x y → Acts R (k x) (k' y)) : Acts R (.read k) (.read k')
  | write {x : σ} {y : τ} {k : Act σ α} {k' : Act τ β} (hosts : P.hosts x y)
      (next : Acts R k k') : Acts R (.write x k) (.write y k')
  | resume {c c' : Continuation} {k : Except EngineError Unit → Act σ α}
      {k' : Except EngineError Unit → Act τ β} (handles : P.Handles c.generation c'.generation)
      (next : ∀ r, Acts R (k r) (k' r)) : Acts R (.resume c k) (.resume c' k')
  | resumeAfter {c c' : Continuation} {d : Duration} {k : Except EngineError Unit → Act σ α}
      {k' : Except EngineError Unit → Act τ β} (handles : P.Handles c.generation c'.generation)
      (next : ∀ r, Acts R (k r) (k' r)) : Acts R (.resumeAfter c d k) (.resumeAfter c' d k')
  | select {h h' : Selector} {id : Nat} {k : Except EngineError Unit → Act σ α}
      {k' : Except EngineError Unit → Act τ β} (handles : P.Handles h.generation h'.generation)
      (next : ∀ r, Acts R (k r) (k' r)) : Acts R (.select h id k) (.select h' id k')
  | isStale {c c' : Continuation} {k : Bool → Act σ α} {k' : Bool → Act τ β}
      (handles : P.Handles c.generation c'.generation) (next : ∀ b, Acts R (k b) (k' b)) :
      Acts R (.isStale c k) (.isStale c' k')
  | lateResume {c : Continuation} {k : Except EngineError Unit → Act σ α} {act : Act τ β}
      (old : P.Old c.generation) (next : Acts R (k (.ok ())) act) : Acts R (.resume c k) act
  | lateResumeAfter {c : Continuation} {d : Duration} {k : Except EngineError Unit → Act σ α}
      {act : Act τ β} (old : P.Old c.generation) (allowed : d.isZero = true ∨ P.waits)
      (next : Acts R (k (.ok ())) act) : Acts R (.resumeAfter c d k) act
  | lateSelect {h : Selector} {id : Nat} {k : Except EngineError Unit → Act σ α} {act : Act τ β}
      (old : P.Old h.generation) (next : Acts R (k (.ok ())) act) : Acts R (.select h id k) act
  | lateIsStale {c : Continuation} {k : Bool → Act σ α} {act : Act τ β}
      (old : P.Old c.generation) (next : Acts R (k true) act) : Acts R (.isStale c k) act

theorem Acts.bind {P : Pairing σ τ} {R : α → β → Prop} {R' : α' → β' → Prop} {x : Act σ α}
    {y : Act τ β} {f : α → Act σ α'} {g : β → Act τ β'} (acts : P.Acts R x y)
    (next : ∀ a b, R a b → P.Acts R' (f a) (g b)) : P.Acts R' (x.bind f) (y.bind g) := by
  induction acts with
  | done result => exact next _ _ result
  | read _ ih => exact .read ih
  | write hosts _ ih => exact .write hosts ih
  | resume handles _ ih => exact .resume handles ih
  | resumeAfter handles _ ih => exact .resumeAfter handles ih
  | select handles _ ih => exact .select handles ih
  | isStale handles _ ih => exact .isStale handles ih
  | lateResume old _ ih => exact .lateResume old ih
  | lateResumeAfter old allowed _ ih => exact .lateResumeAfter old allowed ih
  | lateSelect old _ ih => exact .lateSelect old ih
  | lateIsStale old _ ih => exact .lateIsStale old ih

structure Presenters (p : Presenter σ) (p' : Presenter τ) : Prop where
  started : ∀ node, P.Acts Eq (p.started node) (p'.started node)
  completed : P.Acts Eq p.completed p'.completed
  choices : ∀ cs text n n', P.Handles n n' →
    P.Acts Eq (p.showChoices cs text ⟨n⟩) (p'.showChoices cs text ⟨n'⟩)
  line : ∀ l text n n', P.Handles n n' →
    P.Acts Eq (p.showLine l text ⟨n⟩) (p'.showLine l text ⟨n'⟩)
  command : ∀ cmd n n', P.Handles n n' →
    P.Acts Eq (p.runCommand cmd ⟨n⟩) (p'.runCommand cmd ⟨n'⟩)

structure HostStores (h : HostStore σ) (h' : HostStore τ) : Prop where
  set : ∀ name value, P.Acts Eq (h.set name value) (h'.set name value)
  get : ∀ name, P.Acts Eq (h.get name) (h'.get name)
  clear : P.Acts Eq h.clear h'.clear
  reset : P.Acts Eq h.reset h'.reset

inductive Stores : Store σ → Store τ → Prop
  | memory (m : MemoryStore) : Stores (.memory m) (.memory m)
  | host {h : HostStore σ} {h' : HostStore τ} (same : P.HostStores h h') :
    Stores (.host h) (.host h')

inductive Handlers : Handler σ → Handler τ → Prop
  | immediate {run : ImmediateHandler σ} {run' : ImmediateHandler τ}
      (same : ∀ args, P.Acts Eq (run args) (run' args)) :
      Handlers (.immediate run) (.immediate run')
  | blocking {run : BlockingHandler σ} {run' : BlockingHandler τ}
      (same : ∀ args n n', P.Handles n n' → P.Acts Eq (run args ⟨n⟩) (run' args ⟨n'⟩)) :
      Handlers (.blocking run) (.blocking run')

/-- The same names, with handlers that do the same. -/
def Tables (t : CommandTable σ) (t' : CommandTable τ) : Prop :=
  ∀ name, Option.Rel P.Handlers (t.find? name) (t'.find? name)

/-- The same answer, with command tables that do the same. -/
def Returns (r : α × CommandTable σ) (r' : α × CommandTable τ) : Prop :=
  r.1 = r'.1 ∧ P.Tables r.2 r'.2

/-- The same operation on both sides. -/
inductive Operations : Operation σ → Operation τ → Prop
  | prepare (programs : List Program) : Operations (.prepare programs) (.prepare programs)
  | load (programs : List Program) : Operations (.load programs) (.load programs)
  | add (p : Program) : Operations (.add p) (.add p)
  | start : Operations .start .start
  | startAt (node : String) : Operations (.startAt node) (.startAt node)
  | proceed : Operations .proceed .proceed
  | choose (id : Nat) : Operations (.choose id) (.choose id)
  | stop : Operations .stop .stop
  | reset : Operations .reset .reset
  | clear : Operations .clear .clear
  | update (delta : Duration) : Operations (.update delta) (.update delta)
  | host {act : Act σ Unit} {act' : Act τ Unit} (same : P.Acts Eq act act') :
    Operations (.host act) (.host act')
  | readVariable (name : String) : Operations (.readVariable name) (.readVariable name)
  | writeVariable (name : String) (value : Value) :
    Operations (.writeVariable name value) (.writeVariable name value)
  | clearVariables : Operations .clearVariables .clearVariables
  | resetVariables : Operations .resetVariables .resetVariables
  | setText (text : Line → String) : Operations (.setText text) (.setText text)
  | register (name : String) {h : Handler σ} {h' : Handler τ} (same : P.Handlers h h') :
    Operations (.register name h) (.register name h')
  | unregister (name : String) : Operations (.unregister name) (.unregister name)
  | equip {act : CommandTable σ → Act σ (Except CapabilityError Unit × CommandTable σ)}
      {act' : CommandTable τ → Act τ (Except CapabilityError Unit × CommandTable τ)}
      (same : ∀ t t', P.Tables t t' → P.Acts P.Returns (act t) (act' t')) :
    Operations (.equip act) (.equip act')
  | drainEvents : Operations .drainEvents .drainEvents

/-! ## Sessions -/

/-- Whether a timer is not of an earlier dialogue. -/
def isNew (e : Timer) : Bool := P.offset < e.continuation.generation

structure Entries (ahead : Nat) (e e' : Timer) : Prop where
  deadline : e.deadline.nanos = e'.deadline.nanos + ahead
  handles : P.Handles e.continuation.generation e'.continuation.generation

/-- The same waits, but for those of earlier dialogues, which are gone after a start unless their
    handles are made to wait once more. -/
structure Clocks (begun : Prop) (t t' : Timers) : Prop where
  entries : ∃ ahead, t.now.nanos = t'.now.nanos + ahead ∧
    List.Forall₂ (P.Entries ahead) (t.entries.filter P.isNew) t'.entries
  own : begun ∨ ¬ P.left → ¬ P.waits → ∀ e ∈ t.entries, P.isNew e = true

/-- What two coordinators have in common. Before a dialogue has begun in the new session the other
    may have something left of earlier ones. -/
structure Coordinators (begun : Prop) (c : Coordinator σ) (c' : Coordinator τ) : Prop where
  program : c.machine.program = c'.machine.program
  store : P.Stores c.store c'.store
  settings : c.settings = c'.settings
  presenter : P.Presenters c.presenter c'.presenter
  text : c.text = c'.text
  commands : P.Tables c.commands c'.commands
  lent : c.lent = c'.lent
  timers : P.Clocks begun c.timers c'.timers
  generation : c.generation = c'.generation + P.offset
  suspension : c.suspension = c'.suspension
  woken : c.woken = c'.woken
  idle : ¬ begun → c.phase ≠ .running ∧ c'.phase ≠ .running ∧ c'.suspension = none
  begun : begun → 0 < c'.generation ∧ c.phase = c'.phase ∧ c.machine = c'.machine

structure Sessions (begun : Prop) (s : Session σ) (s' : Session τ) : Prop where
  coordinator : P.Coordinators begun s.coordinator s'.coordinator
  host : P.hosts s.host s'.host

variable {P} {begun : Prop} {c : Coordinator σ} {c' : Coordinator τ}

/-! ## Stores and commands -/

/-- The same answer, with stores that do the same. -/
def Answers (P : Pairing σ τ) (r : α × Store σ) (r' : α × Store τ) : Prop :=
  r.1 = r'.1 ∧ P.Stores r.2 r'.2

namespace Stores

variable {store : Store σ} {store' : Store τ} (same : P.Stores store store')
include same

theorem get (name : String) : P.Acts Eq (store.get name) (store'.get name) := by
  cases same with
  | memory m => exact .done rfl
  | host agree => exact agree.get name

theorem set (name : String) (value : Value) :
    P.Acts P.Answers (store.set name value) (store'.set name value) := by
  cases same with
  | memory m => exact .done ⟨rfl, .memory _⟩
  | host agree =>
    exact (agree.set name value).bind fun r r' answer => .done ⟨answer, .host agree⟩

theorem change (change : Change) : P.Acts P.Answers (change.act store) (change.act store') := by
  cases change with
  | set name value => exact same.set name value
  | clear =>
    cases same with
    | memory m => exact .done ⟨rfl, .memory _⟩
    | host agree => exact agree.clear.bind fun r r' answer => .done ⟨answer, .host agree⟩
  | reset =>
    cases same with
    | memory m => exact .done ⟨rfl, .memory _⟩
    | host agree => exact agree.reset.bind fun r r' answer => .done ⟨answer, .host agree⟩

/-- A computation on the variables. -/
theorem access (x : Access α) : P.Acts P.Answers (x.onStore store) (x.onStore store') := by
  induction x generalizing store store' with
  | done a => exact .done ⟨rfl, same⟩
  | read name k ih =>
    refine (same.get name).bind fun r r' answer => ?_
    rw [answer]
    exact ih r' same
  | write name value k ih =>
    refine (same.set name value).bind fun r r' answers => ?_
    rw [answers.1]
    exact ih r'.1 answers.2

end Stores

namespace Tables

variable {t : CommandTable σ} {t' : CommandTable τ}

theorem contains (same : P.Tables t t') (name : String) : t.contains name = t'.contains name := by
  have found := same name
  change (t.find? name).isSome = (t'.find? name).isSome
  generalize t.find? name = h, t'.find? name = h' at found
  cases found <;> rfl

/-- A command that is found on both sides. -/
structure Founds (P : Pairing σ τ) (r : Resolved σ) (r' : Resolved τ) : Prop where
  handler : P.Handlers r.handler r'.handler
  args : r.args = r'.args

theorem resolve (same : P.Tables t t') (words : List String) :
    Option.Rel (Founds P) (t.resolve words) (t'.resolve words) := by
  cases words with
  | nil => exact .none
  | cons name args =>
    have found := same name
    dsimp only [CommandTable.resolve]
    generalize t.find? name = h, t'.find? name = h' at found
    cases found with
    | some handlers => exact .some ⟨handlers, rfl⟩
    | none =>
      rcases args with _ | ⟨object, _ | ⟨arg, rest⟩⟩
      · exact .none
      · exact .none
      · have also := same (CommandTable.scopedName object name)
        dsimp only
        generalize t.find? (CommandTable.scopedName object name) = h,
          t'.find? (CommandTable.scopedName object name) = h' at also
        cases also with
        | some handlers => exact .some ⟨handlers, rfl⟩
        | none => exact .none

theorem insert (same : P.Tables t t') (name : String) {h : Handler σ} {h' : Handler τ}
    (handlers : P.Handlers h h') : (t.insert name h).1 = (t'.insert name h').1 ∧
      P.Tables (t.insert name h).2 (t'.insert name h').2 := by
  unfold CommandTable.insert
  rw [same.contains name]
  split
  · exact ⟨rfl, same⟩
  · refine ⟨rfl, fun other => ?_⟩
    change Option.Rel _ ((t.handlers.insert name h).find? other)
      ((t'.handlers.insert name h').find? other)
    rw [Dict.find?_insert, Dict.find?_insert]
    split
    · exact .some handlers
    · exact same other

theorem remove (same : P.Tables t t') (name : String) : (t.remove name).1 = (t'.remove name).1 ∧
    P.Tables (t.remove name).2 (t'.remove name).2 := by
  unfold CommandTable.remove
  rw [same.contains name]
  split
  · refine ⟨rfl, fun other => ?_⟩
    change Option.Rel _ ((t.handlers.erase name).find? other) ((t'.handlers.erase name).find? other)
    rw [Dict.find?_erase, Dict.find?_erase]
    split
    · exact .none
    · exact same other
  · exact ⟨rfl, same⟩

end Tables

/-! ## Time -/

/-- A later time comes to its end first. -/
theorem add?_ahead {now now' : Duration} {ahead : Nat} (later : now.nanos = now'.nanos + ahead)
    (d : Duration) : now.add? d = none ∨
      ∃ x x', now.add? d = some x ∧ now'.add? d = some x' ∧ x.nanos = x'.nanos + ahead := by
  unfold Duration.add? Duration.ofNanos?
  split
  · rename_i within
    have within' : now'.nanos + d.nanos < Duration.bound := by omega
    rw [dif_pos within']
    exact .inr ⟨_, _, rfl, rfl, by simp only; omega⟩
  · exact .inl rfl

namespace Clocks

variable {t t' : Timers}

theorem schedule (clocks : P.Clocks begun t t') {k k' : Continuation}
    (handles : P.Handles k.generation k'.generation) (d : Duration) : t.schedule? d k = none ∨
      ∃ u u', t.schedule? d k = some u ∧ t'.schedule? d k' = some u' ∧ P.Clocks begun u u' := by
  obtain ⟨ahead, now, entries⟩ := clocks.entries
  unfold Timers.schedule?
  rcases add?_ahead now d with beyond | ⟨x, x', added, added', deadlines⟩
  · exact .inl (by rw [beyond]; rfl)
  · rw [added, added']
    have new : P.isNew ⟨x, k⟩ = true := by
      obtain ⟨first, second⟩ := handles
      simp only [isNew, decide_eq_true_eq]
      omega
    refine .inr ⟨_, _, rfl, rfl, ⟨ahead, now, ?_⟩, fun begins patient e he => ?_⟩
    · rw [List.filter_append, List.filter_cons_of_pos new]
      exact List.rel_append entries (.cons ⟨deadlines, handles⟩ .nil)
    · rcases List.mem_append.mp he with he | he
      · exact clocks.own begins patient e he
      · rw [List.mem_singleton.mp he]
        exact new

theorem schedule_old (clocks : P.Clocks begun t t') {k : Continuation}
    (old : P.Old k.generation) (waits : P.waits) (d : Duration) : t.schedule? d k = none ∨
      ∃ u, t.schedule? d k = some u ∧ P.Clocks begun u t' := by
  obtain ⟨ahead, now, entries⟩ := clocks.entries
  unfold Timers.schedule?
  cases added : t.now.add? d with
  | none => exact .inl rfl
  | some x =>
    -- the other side has no timer like it: only those of the new dialogue are compared
    have dropped : ¬ P.isNew ⟨x, k⟩ = true := by
      unfold Old at old
      simp only [isNew, decide_eq_true_eq]
      omega
    refine .inr ⟨_, rfl, ⟨ahead, now, ?_⟩, fun _ patient => absurd waits patient⟩
    rw [List.filter_append, List.filter_cons_of_neg dropped, List.filter_nil, List.append_nil]
    exact entries

theorem sortByDeadline {ahead : Nat} {es es' : List Timer}
    (same : List.Forall₂ (P.Entries ahead) es es') :
    List.Forall₂ (P.Entries ahead) (Timers.sortByDeadline es) (Timers.sortByDeadline es') := by
  have inserted {e e' : Timer} (entries : P.Entries ahead e e') {es es' : List Timer}
      (same : List.Forall₂ (P.Entries ahead) es es') : List.Forall₂ (P.Entries ahead)
        (Timers.insertByDeadline e es) (Timers.insertByDeadline e' es') := by
    induction same with
    | nil => exact .cons entries .nil
    | @cons x x' es es' first rest ih =>
      -- all deadlines are ahead by the same amount, so they come in the same order
      have order : e.deadline.nanos ≤ x.deadline.nanos ↔ e'.deadline.nanos ≤ x'.deadline.nanos := by
        have left := entries.deadline
        have right := first.deadline
        omega
      simp only [Timers.insertByDeadline, order]
      split
      · exact .cons entries (.cons first rest)
      · exact .cons first ih
  induction same with
  | nil => exact .nil
  | cons first _ ih => exact inserted first ih

/-- Time passes on both sides, and the same handles are due, but for those of earlier dialogues. -/
theorem advance (clocks : P.Clocks begun t t') (delta : Duration) : t.advance? delta = none ∨
    ∃ due u due' u', t.advance? delta = some (due, u) ∧ t'.advance? delta = some (due', u') ∧
      P.Clocks begun u u' ∧
      List.Forall₂ (fun k k' => P.Handles k.generation k'.generation)
        (due.filter fun k => P.offset < k.generation) due' := by
  obtain ⟨ahead, now, entries⟩ := clocks.entries
  unfold Timers.advance?
  rcases add?_ahead now delta with beyond | ⟨x, x', added, added', later⟩
  · exact .inl (by rw [beyond]; rfl)
  · rw [added, added']
    have due {e e' : Timer} (same : P.Entries ahead e e') :
        Timers.isDue x e = Timers.isDue x' e' := by
      have order : e.deadline.nanos ≤ x.nanos ↔ e'.deadline.nanos ≤ x'.nanos := by
        have deadline := same.deadline
        omega
      simp only [Timers.isDue, order]
    -- which timers are due, and which belong to the new dialogue, are asked in either order
    have commuted (p : Timer → Bool) :
        (t.entries.filter p).filter P.isNew = (t.entries.filter P.isNew).filter p := by
      rw [List.filter_filter, List.filter_filter]
      simp only [Bool.and_comm]
    refine .inr ⟨_, _, _, _, rfl, rfl, ⟨⟨ahead, later, ?_⟩, fun begins patient e he => ?_⟩, ?_⟩
    · rw [commuted]
      refine List.rel_filter (fun e e' same => ?_) entries
      dsimp only
      rw [due same]
    · exact clocks.own begins patient e (List.mem_filter.mp he).1
    · rw [List.filter_map]
      have kept := Timers.filter_sortByDeadline P.isNew (t.entries.filter (Timers.isDue x))
      rw [commuted] at kept
      change List.Forall₂ _ (((Timers.sortByDeadline _).filter P.isNew).map _) _
      rw [kept]
      have filtered : List.Forall₂ (P.Entries ahead)
          ((t.entries.filter P.isNew).filter (Timers.isDue x))
          (t'.entries.filter (Timers.isDue x')) := by
        refine List.rel_filter (fun e e' same => ?_) entries
        dsimp only
        rw [due same]
      exact List.rel_map (fun e e' same => same.handles) (sortByDeadline filtered)

/-- Without waits of earlier dialogues the next deadline is equally far away. -/
theorem nextWake (clocks : P.Clocks begun t t') (own : ∀ e ∈ t.entries, P.isNew e = true) :
    t.nextWake = t'.nextWake := by
  obtain ⟨ahead, now, entries⟩ := clocks.entries
  rw [List.filter_eq_self.mpr own] at entries
  have distance {e e' : Timer} (same : P.Entries ahead e e') :
      e.deadline.sub t.now = e'.deadline.sub t'.now := by
    have deadline := same.deadline
    unfold Duration.sub
    congr 1
    omega
  unfold Timers.nextWake
  refine List.rel_foldr (fun e e' same next next' agree => ?_) (Eq.refl none) entries
  rw [distance same, agree]

end Clocks

namespace Coordinators

variable (same : P.Coordinators begun c c')
include same

theorem running_iff : c.phase = .running ↔ c'.phase = .running := by
  by_cases begins : begun
  · rw [(same.begun begins).2.1]
  · have idle := same.idle begins
    exact ⟨fun running => absurd running idle.1, fun running => absurd running idle.2.1⟩

theorem isRunning : c.isRunning = c'.isRunning := by
  have running := same.running_iff
  simp only [Coordinator.isRunning, running]

theorem of_running (running : c'.phase = .running) : begun :=
  Classical.by_contradiction fun idle => (same.idle idle).2.1 running

theorem of_suspended (suspended : c'.suspension ≠ none) : begun :=
  Classical.by_contradiction fun idle => suspended (same.idle idle).2.2

theorem isLive {n n' : Nat} (handles : P.Handles n n') : c.isLive n = c'.isLive n' := by
  have generations : c.generation = n ↔ c'.generation = n' := by
    have first := same.generation
    have second := handles.1
    omega
  simp only [Coordinator.isLive, generations, same.suspension]

theorem isLive_old {n : Nat} (old : P.Old n) : c.isLive n = false := by
  by_cases begins : begun
  -- once a dialogue has begun the count has gone past every older handle
  · have other : c.generation ≠ n := by
      have generation := same.generation
      have positive := (same.begun begins).1
      unfold Old at old
      omega
    simp only [Coordinator.isLive, other, decide_false, Bool.false_and]
  · have free := (same.idle begins).2.2
    rw [← same.suspension] at free
    exact Coordinator.isLive_of_suspension_none free n

/-- A suspension has ended on both sides. -/
theorem invalidate (begins : begun) : P.Coordinators begun c.invalidate c'.invalidate := by
  obtain ⟨_, phase, machine⟩ := same.begun begins
  obtain ⟨ahead, now, _⟩ := same.timers.entries
  refine { same with
    timers := ⟨⟨ahead, now, ?_⟩, fun _ _ e he => ?_⟩
    generation := ?_
    suspension := rfl
    idle := fun idle => absurd begins idle
    begun := fun _ => ⟨Nat.succ_pos _, phase, machine⟩ }
  · rw [Coordinator.invalidate_entries, Coordinator.invalidate_entries]
    exact .nil
  · rw [Coordinator.invalidate_entries] at he
    cases he
  · have generation := same.generation
    simp only [Coordinator.invalidate_generation]
    omega

theorem withMachine {m m' : Machine} (program : m.program = m'.program)
    (machines : begun → m = m') :
    P.Coordinators begun { c with machine := m } { c' with machine := m' } :=
  { same with
    program := program
    begun := fun begins => ⟨(same.begun begins).1, (same.begun begins).2.1, machines begins⟩ }

theorem withStore {store : Store σ} {store' : Store τ} (stores : P.Stores store store') :
    P.Coordinators begun { c with store := store } { c' with store := store' } :=
  { same with store := stores }

theorem withCommands {t : CommandTable σ} {t' : CommandTable τ} (tables : P.Tables t t')
    (lent : Bool) : P.Coordinators begun { c with commands := t, lent := lent }
      { c' with commands := t', lent := lent } :=
  { same with commands := tables, lent := rfl }

theorem withWoken (woken : Bool) :
    P.Coordinators begun { c with woken := woken } { c' with woken := woken } :=
  { same with woken := rfl }

theorem emit (event : LifecycleEvent) :
    P.Coordinators begun (c.emit event) (c'.emit event) :=
  { same with }

theorem withTimers {t t' : Timers} (timers : P.Clocks begun t t') :
    P.Coordinators begun { c with timers := t } { c' with timers := t' } :=
  { same with timers := timers }

theorem suspend (begins : begun) (w : Suspension) :
    P.Coordinators begun (c.suspend w) (c'.suspend w) := by
  have generation := same.generation
  refine { same with
    generation := ?_
    suspension := rfl
    idle := fun idle => absurd begins idle
    begun := fun _ => ⟨Nat.succ_pos _, (same.begun begins).2⟩ }
  simp only [Coordinator.suspend]
  omega

/-- A dialogue has begun on both sides, or has been ended at once: nothing is left of what was
    before. -/
theorem renewed {m m' : Machine} (machines : m = m') (phase : Phase) :
    let n := { c with machine := m, phase := phase }.invalidate
    let n' := { c' with machine := m', phase := phase }.invalidate
    P.Coordinators True { n with timers := n.timers.clear }
      { n' with timers := n'.timers.clear } := by
  intro n n'
  obtain ⟨ahead, now, _⟩ := same.timers.entries
  exact {
    program := congrArg _ machines
    store := same.store
    settings := same.settings
    presenter := same.presenter
    text := same.text
    commands := same.commands
    lent := same.lent
    timers := ⟨⟨ahead, now, .nil⟩, fun _ _ e he => by cases he⟩
    generation := by
      have generation := same.generation
      simp only [n, n', Coordinator.invalidate_generation]
      omega
    suspension := rfl
    woken := same.woken
    idle := fun idle => absurd trivial idle
    begun := fun _ => ⟨Nat.succ_pos _, rfl, machines⟩ }

theorem halt : P.Coordinators True c.halt c'.halt := by
  have machines : c.machine.stop = c'.machine.stop := by
    simp only [Machine.stop, same.program]
  exact same.renewed machines .completed

end Coordinators

/-! ## Handles -/

/-- The use of a handle comes to the same. -/
inductive Uses (P : Pairing σ τ) (begun : Prop) : Coordinator.Use σ → Coordinator.Use τ → Prop
  | ignored : Uses P begun .ignored .ignored
  | refused (e : EngineError) : Uses P begun (.refused e) (.refused e)
  | failed (e : EngineError) : Uses P begun (.failed e) (.failed e)
  | resumed {c : Coordinator σ} {c' : Coordinator τ} (begins : begun)
      (same : P.Coordinators begun c c') : Uses P begun (.resumed c) (.resumed c')

namespace Coordinators

variable (same : P.Coordinators begun c c')
include same

theorem useContinuation {k k' : Continuation} (handles : P.Handles k.generation k'.generation) :
    P.Uses begun (c.useContinuation k) (c'.useContinuation k') := by
  unfold Coordinator.useContinuation
  rw [same.isLive handles, same.isRunning]
  split
  · rename_i live
    rw [Bool.and_eq_true, Coordinator.isRunning_iff] at live
    have begins := same.of_running live.2
    exact .resumed begins (same.invalidate begins)
  · exact .ignored

theorem pick (id : Nat) : P.Uses begun (c.pick id) (c'.pick id) := by
  unfold Coordinator.pick
  rw [same.suspension]
  split
  · rename_i ids suspended
    have begins : begun := same.of_suspended (by rw [suspended]; nofun)
    rw [(same.begun begins).2.2]
    split
    · split
      · exact .resumed begins ((same.withMachine rfl fun _ => rfl).invalidate begins)
      · exact .failed _
    · exact .refused _
  · exact .refused _

theorem useSelector {h h' : Selector} (handles : P.Handles h.generation h'.generation)
    (id : Nat) : P.Uses begun (c.useSelector h id) (c'.useSelector h' id) := by
  unfold Coordinator.useSelector
  rw [same.isLive handles]
  split
  · exact same.pick id
  · exact .ignored

/-- A wait on both sides. The first clock is ahead and may be at its end. -/
theorem schedule {k k' : Continuation} (handles : P.Handles k.generation k'.generation)
    (d : Duration) : c.schedule? d k = none ∨
      ∃ n n', c.schedule? d k = some n ∧ c'.schedule? d k' = some n' ∧
        P.Coordinators begun n n' := by
  unfold Coordinator.schedule?
  rcases same.timers.schedule handles d with beyond | ⟨u, u', first, second, clocks⟩
  · exact .inl (by rw [beyond]; rfl)
  · rw [first, second]
    exact .inr ⟨_, _, rfl, rfl, same.withTimers clocks⟩

theorem schedule_old {k : Continuation} (old : P.Old k.generation) (allowed : P.waits)
    (d : Duration) : c.schedule? d k = none ∨
      ∃ n, c.schedule? d k = some n ∧ P.Coordinators begun n c' := by
  unfold Coordinator.schedule?
  rcases same.timers.schedule_old old allowed d with beyond | ⟨u, first, clocks⟩
  · exact .inl (by rw [beyond]; rfl)
  · rw [first]
    exact .inr ⟨_, rfl, same.withTimers clocks⟩

end Coordinators

end Pairing

end DialogueEngine
