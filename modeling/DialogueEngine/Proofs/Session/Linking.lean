import DialogueEngine.Proofs.Machine.Linking
import DialogueEngine.Proofs.Session.Lifting

/-! # Sessions in a linked program

What the check of a program says of all runs of the dialogue.

* `Machine.inside_kept` — requests keep a machine inside a linked program.
* `Session.Finds` — no operation of a run tells that a node is unknown.
* `Program.check_clean_finds` — a check without errors, and the runs that begin after it.
-/

namespace DialogueEngine

variable {σ : Type}

theorem Machine.inside_kept {q : Program} (linked : q.Linked) :
    Machine.Kept (Inside q) fun e => ¬ e.IsLost where
  next inside := (next_inside inside linked).imp fun _ lands => ⟨lands.2, lands.1⟩
  choose := choose_inside
  choose_error := choose_found
  add := Inside.add
  load p _ := .of_rest rfl rfl rfl rfl
  unload _ := .of_rest rfl rfl rfl rfl
  stop _ := .of_rest rfl rfl rfl rfl
  program e := id
  capability e := id
  refusal {e} refusal lost := by
    cases e with
    | program e => cases lost
    | capability e => cases lost
    | runtime e =>
      cases e with
      | unknownNode node => cases refusal
      | _ => cases lost

namespace Session

/-- What a session tells until a dialogue is started anew: no operation, and no use of a handle,
    tells that a node is unknown. -/
structure Finds (limit : Nat) (s : Session σ) : Prop where
  operation {ops : List (Operation σ)} {op : Operation σ} (same : ∀ op' ∈ ops, ¬ op'.Starts) :
    ¬ op.Starts →
    Ensures (s.performAll limit ops) fun s' => Ensures (op.perform limit s') fun r => Found r.1
  handle {ops : List (Operation σ)} {act : Act σ (Except EngineError Unit)}
    (same : ∀ op' ∈ ops, ¬ op'.Starts) : act.Uses →
    Ensures (s.performAll limit ops) fun s' => Ensures (act.between limit s') fun r => Found r.1

variable {q : Program} {s : Session σ}

theorem finds_of_inside (limit : Nat) (linked : q.Linked) (inside : s.Has (Machine.Inside q)) :
    s.Finds limit := by
  have kept := Machine.inside_kept linked
  constructor
  · intro ops op same starts
    refine (performAll_has kept limit same inside).imp fun s' inside => ?_
    exact (Operation.perform_tells kept limit starts inside).imp fun r tells => tells.error
  · intro ops act same uses
    refine (performAll_has kept limit same inside).imp fun s' inside => ?_
    exact (Act.Uses.between_tells kept limit uses inside).imp fun r tells => tells.error

/-- Starting at a node succeeds, and until the next start neither the start itself nor an operation
    or a handle tells that a node is unknown. -/
structure StartsFinding (limit : Nat) (s : Session σ) (start : String) : Prop where
  entered : ∃ m, s.coordinator.machine.enter start = .ok m
  told : Ensures (s.startAt limit start) fun r => Found r.1 ∧ r.2.Finds limit

end Session

namespace Machine

/-- Starting at a node succeeds, and until the next start no answer tells that a node is unknown. -/
def StartsFinding (m : Machine) (start : String) : Prop :=
  ∃ m', m.enter start = .ok m' ∧ ∀ requests : List Request, (∀ q ∈ requests, ¬ q.IsEnter) →
    (m'.serveAll requests).All fun r => ∀ a ∈ r.1, Found a

variable {p : Program} {start : String}

theorem enter_load (defined : p.defines start = true) (m : Machine) :
    ∃ m', (m.load p).enter start = .ok m' ∧ m'.Inside p := by
  have entered : (m.load p).enter start = .ok _ := if_pos defined
  exact ⟨_, entered, inside_enter rfl entered⟩

end Machine

/-- Programs are put together. If the check reports no error then they can be loaded and started,
    into a machine and into a session where no dialogue goes on, and whatever is asked of these
    until the next start, no answer tells that a node is unknown. And if the start node exists then
    the check reports an error just where the program leads to a name without node. -/
theorem Program.check_clean_finds {programs : List Program} {p : Program}
    (combined : Program.combine programs = .ok p) (start : String) :
    ((p.check start).hasErrors = false →
      (∀ m : Machine, (m.load p).StartsFinding start) ∧
      ∀ (limit : Nat) (s : Session σ), s.coordinator.isRunning = false →
        ∃ s', s.load programs = .ok (.ok (), s') ∧ s'.StartsFinding limit start) ∧
    (p.defines start = true →
      ((p.check start).hasErrors = true ↔ ∃ target ∈ p.targets, p.defines target = false)) := by
  refine ⟨fun clean => ?_, fun defined => ?_⟩
  · obtain ⟨defined, linked⟩ := check_clean clean
    refine ⟨fun m => ?_, fun limit s idle => ?_⟩
    · obtain ⟨m', entered, inside⟩ := Machine.enter_load defined m
      refine ⟨m', entered, fun requests same => ?_⟩
      exact (Machine.serveAll_inside linked inside requests same).imp fun r served => served.1
    · obtain ⟨m', entered, inside⟩ := Machine.enter_load defined s.coordinator.machine
      let loaded := { s.coordinator with machine := s.coordinator.machine.load p }
      refine ⟨s.withCoordinator loaded, by simp [Session.load, idle, combined, loaded],
        ⟨m', entered⟩, ?_⟩
      have tells := Session.startAt_tells (Machine.inside_kept linked) limit
        (s := s.withCoordinator loaded) idle entered inside
      exact tells.imp fun r tells =>
        ⟨tells.error, Session.finds_of_inside limit linked tells.has⟩
  · rw [check_hasErrors, defined]
    simp

/-- A node that leads back to itself, at once or by an option. -/
def Program.roundabout : Program :=
  .ofNode "Start" [.jumpIf "done" "Start", .addOption "again" [] "Start", .showOptions]

/-- The check of a node that leads back to itself reports no error, and a session finds it. -/
theorem Program.check_clean_finds_roundabout :
    combine [roundabout] = .ok roundabout ∧ (roundabout.check "Start").hasErrors = false ∧
      ∃ s', (Session.plain (.waiting : Presenter Unit) ()).load [roundabout] = .ok (.ok (), s') ∧
        s'.StartsFinding 9 "Start" := by
  have combined : combine [roundabout] = .ok roundabout := rfl
  have targets : roundabout.targets = ["Start"] := rfl
  have defined : roundabout.defines "Start" = true := rfl
  obtain ⟨clean, faulty⟩ := check_clean_finds (σ := Unit) combined "Start"
  have sound : (roundabout.check "Start").hasErrors = false := by
    rw [Bool.eq_false_iff, ne_eq, faulty defined, targets]
    simp [defined]
  exact ⟨combined, sound, (clean sound).2 9 _ rfl⟩

end DialogueEngine
