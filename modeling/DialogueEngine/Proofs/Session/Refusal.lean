import DialogueEngine.Proofs.Session.Fairness
import DialogueEngine.Proofs.Session.Replay

/-! # Refused operations

An operation that the state of the dialogue does not allow answers with an error that says so. Under
a fair host such an error never comes out of a drive, so the operation has been refused before it
did anything. The exception is `prepare`: it gives the variables their first values before it is
refused.

* `Recorded.Refuses` — an operation that answers with a refusal leaves a given session.
* `Operation.afterRefusal` — what a refused operation leaves.
* `Session.store_initial`, `Session.store_native` — variables in memory stay there.
* `Session.refused_unchanged_iff` — when it leaves the session as it is.
-/

namespace DialogueEngine

variable {σ α β : Type}

namespace Recorded

/-- Whatever refuses the operation leaves a session, or it has ended a drive. -/
def Refuses (after : Session σ) (x : Recorded σ (Answer σ Unit)) : Prop :=
  ∀ e s, x.outcome = .ok (.error e, s) → e.IsRefusal →
    .halted (some e) ∈ x.happenings ∨ s = after

namespace Refuses

variable {s after : Session σ}

theorem bind {x : Recorded σ α} {f : α → Recorded σ (Answer σ Unit)}
    (h : ∀ a, x.outcome = .ok a → Refuses after (f a)) : Refuses after (x >>= f) := by
  intro e s he refused
  cases hx : x.outcome with
  | error fault =>
    rw [outcome_bind, hx] at he
    cases he
  | ok a =>
    rw [outcome_bind, hx] at he
    rw [happenings_bind hx]
    exact (h a hx e s he refused).imp_left (List.mem_append_right _)

theorem done {t : List (Happening σ)} {s : Session σ} : Refuses after ⟨t, .ok (.ok (), s)⟩ :=
  fun _ _ he _ => by cases he

theorem fault {t : List (Happening σ)} {f : Fault} : Refuses after ⟨t, .error f⟩ :=
  fun _ _ he _ => by cases he

theorem at_once {t : List (Happening σ)} {e : EngineError} : Refuses s ⟨t, .ok (.error e, s)⟩ :=
  fun _ _ he _ => by cases he; exact .inr rfl

theorem other {t : List (Happening σ)} {e : EngineError} (h : ¬ e.IsRefusal) :
    Refuses after ⟨t, .ok (.error e, s)⟩ :=
  fun _ _ he refused => by cases he; exact absurd refused h

/-- A drive that fails ends the dialogue. -/
theorem run (limit : Nat) (s : Session σ) : Refuses after (run limit s) := by
  induction limit generalizing s with
  | zero => exact fault
  | succ limit ih =>
    refine bind fun r _ => ?_
    obtain ⟨_ | _ | e, s'⟩ := r
    · exact ih s'
    · exact done
    · intro e' s'' he _
      cases he
      exact .inl List.mem_cons_self

theorem follow (limit : Nat) (s : Session σ) (used more : List (Happening σ))
    (use : Coordinator.Use σ) : Refuses s (follow limit s used more use) := by
  cases use with
  | ignored => exact done
  | refused e => exact at_once
  | failed e => exact at_once
  | resumed c => exact bind fun _ _ => run limit _

/-- A start is refused only while a dialogue goes on. -/
theorem startAt (limit : Nat) (s : Session σ) (node : String)
    (busy : s.coordinator.isRunning = true → s = after) :
    Refuses after (startAt limit s node) := by
  unfold Recorded.startAt
  split
  · rename_i running
    rw [← busy running]
    exact at_once
  · cases entered : s.coordinator.machine.enter node with
    | error e => exact other (Machine.enter_error entered)
    | ok m =>
      refine bind fun _ _ => bind fun r _ => ?_
      obtain ⟨e | ⟨⟩, s'⟩ := r
      · exact bind fun _ _ => other id
      · exact run limit _

theorem load (s : Session σ) (programs : List Program) : Refuses s (load s programs) := by
  unfold Recorded.load Session.load
  split
  · exact at_once
  · cases Program.combine programs with
    | error e => exact other id
    | ok p => exact done

theorem clear (s : Session σ) : Refuses s (clear s) := by
  unfold Recorded.clear Session.clear
  split
  · exact at_once
  · exact done

theorem proceed (limit : Nat) (s : Session σ) : Refuses s (proceed limit s) := by
  unfold Recorded.proceed
  split
  · split
    · exact at_once
    · exact run limit _
  · exact at_once

theorem choose (limit : Nat) (s : Session σ) (id : Nat) : Refuses s (choose limit s id) := by
  unfold Recorded.choose
  split
  · exact follow limit s _ _ _
  · exact at_once

end Refuses

/-- Programs are replaced only while no dialogue goes on. -/
theorem loadSome_outcome {s s' : Session σ} {programs : List Program}
    {r : Except EngineError Unit} (h : (loadSome s programs).outcome = .ok (r, s')) :
    s' = s ∨ r = .ok () ∧ s'.coordinator.isRunning = false := by
  unfold loadSome at h
  split at h
  · cases h
    exact .inl rfl
  · rw [outcome_load] at h
    unfold Session.load at h
    split at h
    · cases h
      exact .inl rfl
    · rename_i idle
      cases hc : Program.combine programs with
      | error e =>
        rw [hc] at h
        cases h
        exact .inl rfl
      | ok p =>
        rw [hc] at h
        cases h
        exact .inr ⟨rfl, eq_false_of_ne_true idle⟩

theorem Refuses.startIfSet (limit : Nat) {s after : Session σ}
    (busy : s.coordinator.isRunning = true → s = after) : Refuses after (startIfSet limit s) := by
  unfold Recorded.startIfSet
  split
  · exact Refuses.startAt limit s _ busy
  · exact Refuses.done

/-- The first values are given to variables in memory at once. -/
theorem changeStore_reset {s : Session σ} {m : MemoryStore}
    (native : s.coordinator.store = .memory m) :
    (changeStore s .reset).outcome =
      .ok (.ok (), s.withCoordinator { s.coordinator with store := .memory m.reset }) := by
  rw [outcome_changeStore, native]
  rfl

theorem Refuses.prepare (limit : Nat) {s : Session σ} {m : MemoryStore}
    (native : s.coordinator.store = .memory m) (programs : List Program) :
    Refuses (s.withCoordinator { s.coordinator with store := .memory m.reset })
      (prepare limit s programs) := by
  refine Refuses.bind fun r hr => ?_
  rw [changeStore_reset native] at hr
  cases hr
  refine Refuses.bind fun r hr => ?_
  obtain ⟨e | ⟨⟩, s'⟩ := r
  · rcases loadSome_outcome hr with rfl | ⟨he, _⟩
    · exact Refuses.at_once
    · cases he
  · refine Refuses.startIfSet limit fun busy => ?_
    rcases loadSome_outcome hr with rfl | ⟨_, idle⟩
    · rfl
    · rw [busy] at idle
      cases idle

end Recorded

namespace Operation

/-- The operations that the state of a dialogue may not allow. -/
def MayRefuse : Operation σ → Prop
  | .prepare _ => True
  | .load _ => True
  | .start => True
  | .startAt _ => True
  | .proceed => True
  | .choose _ => True
  | .clear => True
  | _ => False

/-- What a refused operation leaves. -/
def afterRefusal (s : Session σ) : Operation σ → Session σ
  | .prepare _ =>
    s.withCoordinator
      { s.coordinator with store := Change.reset.onStore s.coordinator.store }
  | _ => s

end Operation

theorem Recorded.Refuses.perform (limit : Nat) {s : Session σ} {m : MemoryStore}
    (native : s.coordinator.store = .memory m) {op : Operation σ} (call : op.MayRefuse) :
    Refuses (op.afterRefusal s) (perform limit s op) := by
  cases op with
  | prepare programs =>
    have refuses := Refuses.prepare limit native programs
    unfold Operation.afterRefusal
    rw [native]
    exact refuses
  | load programs => exact Refuses.load s programs
  | start => exact Refuses.startAt limit s _ fun _ => rfl
  | startAt node => exact Refuses.startAt limit s node fun _ => rfl
  | proceed => exact Refuses.proceed limit s
  | choose id => exact Refuses.choose limit s id
  | clear => exact Refuses.clear s
  | _ => cases call

/-! ## Variables in memory -/

theorem MemoryStore.reset_eq_iff {m : MemoryStore} : m.reset = m ↔ m.current = m.initial := by
  constructor
  · intro same
    have values := congrArg MemoryStore.current same
    exact values.symm
  · intro values
    cases m
    cases values
    rfl

theorem Operation.afterRefusal_eq_iff {s : Session σ} {m : MemoryStore}
    (native : s.coordinator.store = .memory m) (op : Operation σ) :
    op.afterRefusal s = s ↔ ∀ programs m', op = .prepare programs →
      s.coordinator.store = .memory m' → m'.current = m'.initial := by
  cases op with
  | prepare programs =>
    have after : Operation.afterRefusal s (.prepare programs) =
        s.withCoordinator { s.coordinator with store := .memory m.reset } := by
      rw [Operation.afterRefusal, native]
      rfl
    rw [after]
    constructor
    · intro same _ m' _ hm
      have stores := congrArg (·.coordinator.store) same
      change Store.memory m.reset = s.coordinator.store at stores
      rw [hm] at native stores
      cases native
      exact MemoryStore.reset_eq_iff.mp (Store.memory.inj stores)
    · intro first
      have same := MemoryStore.reset_eq_iff.mpr (first programs m rfl native)
      change s.withCoordinator { s.coordinator with store := .memory m.reset } = s
      rw [same, ← native]
      rfl
  | _ => exact ⟨fun _ _ _ h => (by cases h), fun _ => rfl⟩

theorem Access.onMemory_initial (x : Access α) (m : MemoryStore) :
    (x.onMemory m).2.initial = m.initial := by
  induction x generalizing m with
  | done a => rfl
  | read name k ih => exact ih _ m
  | write name value k ih => exact ih _ (m.set name value)

namespace Bare

/-- The variables are in memory, with the given first values. -/
def Native (b : Bare σ) (initial : Dict String Value) : Prop :=
  ∃ m, b.store = .memory m ∧ m.initial = initial

variable {b : Bare σ} {initial : Dict String Value}

theorem Native.next (native : b.Native initial) : b.next.2.Native initial := by
  obtain ⟨m, hm, first⟩ := native
  simp only [Bare.next, hm, Access.onStore_memory]
  exact ⟨_, rfl, (Access.onMemory_initial _ m).trans first⟩

theorem Native.attempt {ε : Type} (native : b.Native initial) (r : Except ε Machine) :
    (b.attempt r).Native initial := by
  cases r with
  | error e => exact native
  | ok m => exact native

theorem Native.obey (native : b.Native initial) (cue : Cue σ) :
    (b.obey cue).2.Native initial := by
  cases cue with
  | next =>
    have after := native.next
    unfold Bare.obey
    dsimp only
    split
    · rename_i h
      rw [h] at after
      exact after
    · rename_i h
      rw [h] at after
      exact after
  | choose id => exact native.attempt _
  | enter node => exact native.attempt _
  | add p => exact native.attempt _
  | change change =>
    obtain ⟨m, hm, first⟩ := native
    refine ⟨change.onMemory m, ?_, ?_⟩
    · change change.onStore b.store = _
      rw [hm]
      rfl
    · cases change <;> exact first
  | _ => exact native

theorem Native.drive (native : b.Native initial) (cues : List (Cue σ)) :
    (Bare.drive cues b).2.Native initial := by
  induction cues generalizing b with
  | nil => exact native
  | cons cue cues ih => exact ih (native.obey cue)

end Bare

/-! ## Histories that end with an operation -/

theorem Recorded.mem_history {limit : Nat} {ops : List (Operation σ)} {s s' : Session σ}
    {op : Operation σ} (done : s.performAll limit ops = .ok s') {a : Happening σ}
    (ha : a ∈ (perform limit s' op).happenings) :
    a ∈ (history limit (ops ++ [op]) s).happenings := by
  induction ops generalizing s with
  | nil =>
    cases done
    have performed := happenings_before_bind (perform limit s' op) fun r => history limit [] r.2
    exact List.mem_cons_of_mem _ (performed.subset ha)
  | cons first ops ih =>
    unfold Session.performAll at done
    cases h : first.perform limit s with
    | error fault =>
      rw [h] at done
      cases done
    | ok r =>
      rw [h] at done
      rw [← outcome_perform] at h
      have later := happenings_bind h fun r => history limit (ops ++ [op]) r.2
      have mem := List.mem_append_right (perform limit s first).happenings (ih done)
      rw [← later] at mem
      exact List.mem_cons_of_mem _ mem

namespace Session

variable (presenter : Presenter σ) (vars : MemoryStore) (settings : Settings)
  (text : Line → String) (commands : CommandTable σ) (host : σ)

theorem opening_clear (store : Store σ) : Moment.Clear
    ⟨.resting, [], opening presenter store settings text commands host⟩ [] :=
  ⟨nofun, nofun, trivial⟩

/-- Variables in memory stay there, and keep their first values. -/
theorem store_initial {limit : Nat} {ops : List (Operation σ)} {s : Session σ}
    (reached : (opening presenter (.memory vars) settings text commands host).performAll limit ops =
      .ok s) : ∃ m, s.coordinator.store = .memory m ∧ m.initial = vars.initial := by
  have sound := opening_sound presenter (.memory vars) settings text commands host
  obtain ⟨ys, driven, _⟩ := (Course.of_performAll reached).replays sound
  have start : (opening presenter (.memory vars) settings text commands host).bare.Native
      vars.initial := ⟨vars, rfl, rfl⟩
  have after := start.drive (cues (Recorded.history limit ops
    (opening presenter (.memory vars) settings text commands host)).happenings)
  have ended := congrArg (fun r => r.2.store) driven
  exact after.imp fun m hm => ⟨ended.symm.trans hm.1, hm.2⟩

theorem store_native {limit : Nat} {ops : List (Operation σ)} {s : Session σ}
    (reached : (opening presenter (.memory vars) settings text commands host).performAll limit ops =
      .ok s) : ∃ m, s.coordinator.store = .memory m :=
  (store_initial presenter vars settings text commands host reached).imp fun _ native => native.1

/-- A session has its variables in memory, and its host uses only handles that it has been given.
    If an operation is refused then the session is left as it is, but that `prepare` has given the
    variables their first values. So the session is changed exactly by a refused `prepare`, and if
    some variable does not have its first value. -/
theorem refused_unchanged_iff (limit : Nat) (ops : List (Operation σ)) {s s' : Session σ}
    {op : Operation σ} {e : EngineError}
    (reached : (opening presenter (.memory vars) settings text commands host).performAll limit ops =
      .ok s)
    (fair : Fair (Recorded.history limit (ops ++ [op])
      (opening presenter (.memory vars) settings text commands host)).happenings)
    (call : op.MayRefuse) (answer : op.perform limit s = .ok (.error e, s'))
    (refused : e.IsRefusal) :
    s' = op.afterRefusal s ∧
    (s' = s ↔ ∀ programs m, op = .prepare programs → s.coordinator.store = .memory m →
      m.current = m.initial) := by
  obtain ⟨m, native⟩ := store_native presenter vars settings text commands host reached
  -- the refusal does not come out of a drive
  obtain ⟨_, course, _⟩ := Leads.history limit (ops ++ [op])
    (opening presenter (.memory vars) settings text commands host)
  have sound := opening_sound presenter (.memory vars) settings text commands host
  have unrefused := (course.clear sound
    (opening_clear presenter settings text commands host (.memory vars)) fair).2
  rw [← Recorded.outcome_perform] at answer
  have left : s' = op.afterRefusal s := by
    rcases Recorded.Refuses.perform limit native call e s' answer refused with halted | left
    · exact absurd refused (unrefused e (Recorded.mem_history reached halted))
    · exact left
  refine ⟨left, ?_⟩
  rw [left]
  exact Operation.afterRefusal_eq_iff native op

/-- A variable is written while options are offered, and a refused `prepare` takes the write
    back. -/
theorem refused_unchanged_iff_written :
    ∃ s s', (plain (.waiting : Presenter Unit) ()).performAll 9
        (Operation.offering ++ [.writeVariable "x" (.bool true)]) = .ok s ∧
      (Operation.prepare [.ofNode "Start" []]).perform 9 s =
        .ok (.error (.runtime (.dialogueActive "load")), s') ∧
      s' ≠ s := by
  refine ⟨_, _, rfl, rfl, fun same => ?_⟩
  have call : (Operation.prepare [.ofNode "Start" []] : Operation Unit).MayRefuse := trivial
  have refused : (EngineError.runtime (.dialogueActive "load")).IsRefusal := trivial
  have unchanged := refused_unchanged_iff .waiting .empty .default (fun l => l.id) .empty () 9
    (Operation.offering ++ [.writeVariable "x" (.bool true)]) rfl (fair_of_unused rfl) call rfl
    refused
  have values := unchanged.2.mp same _ _ rfl rfl
  cases values

end Session

end DialogueEngine
