import DialogueEngine.Proofs.Session.Coherence

/-! # A session hands over what its machine yields

A machine that is driven without a coordinator, by what a session has done with its own, yields
what the session has handed over, and both come to the same variables. So every way of going on
after a hand-over takes exactly one step of the machine.

* `Bare` — a machine with its store.
* `Cue`, `Bare.obey`, `Bare.drive` — what is done with it, and what it yields.
* `cues`, `deliveries` — what a session has done with its machine, and what it has handed over.
* `Move.replays` — one move, on both sides.
* `Session.deliveries_replay` — from a start on.
-/

namespace DialogueEngine

variable {σ α β : Type}

/-! ## A machine without a coordinator -/

/-- A machine with its store. A store of the host keeps its variables in the state of the host. -/
structure Bare (σ : Type) where
  machine : Machine
  store : Store σ
  host : σ

/-- What is done with a bare machine. -/
inductive Cue (σ : Type) where
  | next
  | choose (id : Nat)
  | enter (node : String)
  | stop
  | load (p : Program)
  | unload
  | add (p : Program)
  /-- The variables are changed from outside. -/
  | change (change : Change)
  /-- The host changes its state. -/
  | host (x : σ)

namespace Bare

def next (b : Bare σ) : Except EngineError Yield × Bare σ :=
  let (((r, m), store), host) := (b.machine.next.onStore b.store).detached b.host
  (r, ⟨m, store, host⟩)

/-- The bare machine after an operation, or as it is if the operation fails. -/
def attempt {ε : Type} (b : Bare σ) (m : Except ε Machine) : Bare σ :=
  match m with
  | .ok m => { b with machine := m }
  | .error _ => b

/-- One cue, with what is yielded. -/
def obey (b : Bare σ) : Cue σ → List Yield × Bare σ
  | .next =>
    match b.next with
    | (.ok y, b) => ([y], b)
    | (.error _, b) => ([], b)
  | .choose id => ([], b.attempt (b.machine.choose id))
  | .enter node => ([], b.attempt (b.machine.enter node))
  | .stop => ([], { b with machine := b.machine.stop })
  | .load p => ([], { b with machine := b.machine.load p })
  | .unload => ([], { b with machine := b.machine.unload })
  | .add p => ([], b.attempt (b.machine.add p))
  | .change change => ([], { b with store := change.onStore b.store })
  | .host x => ([], { b with host := x })

/-- Cues, one after the other, with everything that is yielded. -/
def drive : List (Cue σ) → Bare σ → List Yield × Bare σ
  | [], b => ([], b)
  | cue :: cues, b =>
    let (ys, b) := b.obey cue
    let (more, b) := drive cues b
    (ys ++ more, b)

theorem drive_append (cues more : List (Cue σ)) (b : Bare σ) :
    drive (cues ++ more) b =
      ((drive cues b).1 ++ (drive more (drive cues b).2).1, (drive more (drive cues b).2).2) := by
  induction cues generalizing b with
  | nil => rfl
  | cons cue cues ih => simp only [List.cons_append, drive, ih, List.append_assoc]

theorem drive_one (cue : Cue σ) (b : Bare σ) : drive [cue] b = b.obey cue := by
  simp only [drive, List.append_nil]

end Bare

/-- On variables in memory a step needs nothing of the host. -/
theorem Access.onStore_memory (x : Access α) (m : MemoryStore) (host : σ) :
    (x.onStore (.memory m)).detached host = (((x.onMemory m).1, .memory (x.onMemory m).2), host) := by
  rw [onStore_done]
  rfl

/-! ## What a session does with its machine -/

def Happening.cue? : Happening σ → Option (Cue σ)
  | .stepped _ => some .next
  | .picked id => some (.choose id)
  | .entered node => some (.enter node)
  | .halted _ => some .stop
  | .loaded p => some (.load p)
  | .unloaded => some .unload
  | .added p => some (.add p)
  | .changed change => some (.change change)
  | .wrote x => some (.host x)
  | _ => none

def Happening.yield? : Happening σ → Option Yield
  | .delivered y _ => some y
  | _ => none

def cues (t : List (Happening σ)) : List (Cue σ) := t.filterMap Happening.cue?

def deliveries (t : List (Happening σ)) : List Yield := t.filterMap Happening.yield?

theorem cues_append (t l : List (Happening σ)) : cues (t ++ l) = cues t ++ cues l :=
  List.filterMap_append

theorem deliveries_append (t l : List (Happening σ)) :
    deliveries (t ++ l) = deliveries t ++ deliveries l :=
  List.filterMap_append

/-! ## Moves on both sides -/

def Session.bare (s : Session σ) : Bare σ := ⟨s.coordinator.machine, s.coordinator.store, s.host⟩

/-- The machine of a session with its store. While the store is being asked they are as they were
    before. -/
def Moment.bare (m : Moment σ) : Bare σ :=
  match m.mode with
  | .asking s => s.bare
  | _ => m.session.bare

/-- What has left the machine but is still to be handed over. -/
def Moment.undelivered (m : Moment σ) : List Yield :=
  match m.mode with
  | .carrying y => [y].filter Yield.isDelivered
  | _ => []

theorem Moment.undelivered_le (m : Moment σ) : m.undelivered.length ≤ 1 := by
  unfold undelivered
  split
  · exact List.length_filter_le _ _
  · exact Nat.zero_le 1

/-- What happens takes the bare machine from one moment to the next, and what it yields on the way
    is handed over, but for commands without words. -/
def Moment.Replays (m : Moment σ) (t : List (Happening σ)) (m' : Moment σ) : Prop :=
  ∃ ys, Bare.drive (cues t) m.bare = (ys, m'.bare) ∧
    m.undelivered ++ ys.filter Yield.isDelivered = deliveries t ++ m'.undelivered

namespace Moment.Replays

variable {m m' m'' : Moment σ} {t l : List (Happening σ)}

theorem silent (idle : cues l = []) (bare : m'.bare = m.bare) (none : deliveries l = [])
    (same : m'.undelivered = m.undelivered) : m.Replays l m' := by
  refine ⟨[], ?_, ?_⟩
  · rw [idle, bare]
    rfl
  · rw [none, same, List.filter_nil, List.append_nil, List.nil_append]

theorem obeys {cue : Cue σ} (one : cues l = [cue]) (obeyed : m.bare.obey cue = ([], m'.bare))
    (none : deliveries l = []) (same : m'.undelivered = m.undelivered) : m.Replays l m' := by
  refine ⟨[], ?_, ?_⟩
  · rw [one, Bare.drive_one, obeyed]
  · rw [none, same, List.filter_nil, List.append_nil, List.nil_append]

theorem hands {y : Yield} (given : y.isDelivered = true) (idle : cues l = [])
    (bare : m'.bare = m.bare) (carried : m.undelivered = [y].filter Yield.isDelivered)
    (handed : deliveries l = [y]) (emptied : m'.undelivered = []) : m.Replays l m' := by
  refine ⟨[], ?_, ?_⟩
  · rw [idle, bare]
    rfl
  · rw [carried, handed, emptied, List.filter_cons_of_pos given]
    rfl

theorem trans (h : m.Replays t m') (h' : m'.Replays l m'') : m.Replays (t ++ l) m'' := by
  obtain ⟨ys, driven, same⟩ := h
  obtain ⟨ys', driven', same'⟩ := h'
  refine ⟨ys ++ ys', ?_, ?_⟩
  · rw [cues_append, Bare.drive_append, driven, driven']
  · rw [deliveries_append, List.filter_append, ← List.append_assoc, same, List.append_assoc, same',
      List.append_assoc]

end Moment.Replays

/-- What the machine answers to a session it answers without a dialogue. -/
theorem Bare.next_eq {s s' : Session σ} {r : Except EngineError Yield} {m : Machine}
    {store : Store σ} (free : s.coordinator.suspension = none)
    (answered : (s.coordinator.machine.next.onStore s.coordinator.store).within .store s =
      .ok (((r, m), store), s')) : s.bare.next = (r, ⟨m, store, s'.host⟩) := by
  have detached := Act.within_detached free answered
  simp only [Bare.next, Session.bare, detached]

/-- An option that resumes is chosen on the bare machine as well. -/
theorem Bare.obey_choose {s : Session σ} {c : Coordinator σ} {id : Nat}
    (picked : s.coordinator.pick id = .resumed c) :
    s.bare.obey (.choose id) = ([], ⟨c.machine, c.store, s.host⟩) := by
  obtain ⟨ids, m, _, chosen, rfl⟩ := Coordinator.pick_resumed picked
  simp only [Bare.obey, Bare.attempt, Session.bare, chosen]
  rfl

/-- What a session is busy with does not matter to its machine and store. -/
theorem Moment.bare_congr {mode : Mode σ} {due : List Continuation} {s s' : Session σ}
    (same : s'.bare = s.bare) :
    Moment.bare ⟨mode, due, s'⟩ = Moment.bare ⟨mode, due, s⟩ := by
  cases mode with
  | asking s₀ => rfl
  | _ => exact same

theorem Move.write_replays {mode : Mode σ} {due : List Continuation} {s : Session σ} {e : Errand}
    (x : σ) (runs : mode.Runs e) :
    Moment.Replays ⟨mode, due, s⟩ (e.writes x) ⟨mode, due, { s with host := x }⟩ := by
  -- what a store does in answer to the machine belongs to the step that asks
  cases e with
  | machine =>
    cases mode with
    | asking s₀ => exact .silent rfl rfl rfl rfl
    | _ => cases runs
  | handover =>
    cases mode with
    | asking s₀ => cases runs
    | _ => exact .obeys rfl rfl rfl rfl
  | client =>
    cases mode with
    | asking s₀ => cases runs
    | _ => exact .obeys rfl rfl rfl rfl

theorem Move.answer_replays {due : List Continuation} {s s' : Session σ}
    {r : Except EngineError Yield} {m : Machine} {store : Store σ}
    (free : s.coordinator.suspension = none)
    (answered : (s.coordinator.machine.next.onStore s.coordinator.store).within .store s =
      .ok (((r, m), store), s')) :
    Moment.Replays ⟨.asking s, due, s'⟩ [.stepped r]
      ⟨.ofAnswer r, due,
        s'.withCoordinator { s'.coordinator with machine := m, store := store }⟩ := by
  have next := Bare.next_eq free answered
  have driven : Bare.drive [.next] s.bare = s.bare.obey .next := Bare.drive_one _ _
  simp only [Bare.obey, next] at driven
  cases r with
  | error e => exact ⟨[], driven, rfl⟩
  | ok y => exact ⟨[y], driven, rfl⟩

/-- Every move of a session is one of its bare machine. -/
theorem Move.replays {m m' : Moment σ} {l : List (Happening σ)} (move : Move m l m')
    (sound : m.Sound) : m.Replays l m' := by
  -- a machine that has changed in a way that can fail
  have attempted {s : Session σ} {ε : Type} {r : Except ε Machine} {m : Machine}
      (h : r = .ok m) : s.bare.attempt r = { s.bare with machine := m } := by
    rw [h]
    rfl
  cases move with
  -- host code
  | see runs => exact .silent rfl rfl rfl rfl
  | write x runs => exact Move.write_replays x runs
  | use h runs => exact .silent rfl rfl rfl rfl
  | wait runs scheduled =>
    refine .silent rfl (Moment.bare_congr ?_) rfl rfl
    rw [Coordinator.schedule?_eq scheduled]
    rfl
  | @wake mode due s k c runs resumed =>
    obtain ⟨_, _, rfl⟩ := Coordinator.useContinuation_resumed resumed
    exact .silent rfl (Moment.bare_congr rfl) rfl rfl
  | @pick mode due s id c runs picked =>
    have obeyed := Bare.obey_choose picked
    cases mode with
    | asking s₀ => cases runs
    | _ => exact .obeys rfl obeyed rfl rfl
  -- handles while no drive goes on
  | resume resumed =>
    obtain ⟨_, _, rfl⟩ := Coordinator.useContinuation_resumed resumed
    exact .silent rfl rfl rfl rfl
  | choose picked =>
    have obeyed := Bare.obey_choose picked
    exact .obeys rfl obeyed rfl rfl
  | fire resumed =>
    obtain ⟨_, _, rfl⟩ := Coordinator.useContinuation_resumed resumed
    exact .silent rfl rfl rfl rfl
  -- turns of the drive
  | answer answered => exact Move.answer_replays (Coordinator.Flows.toFree sound).suspension answered
  | @announce due s y event told =>
    refine .hands ?_ rfl rfl rfl rfl rfl
    cases y with
    | command cmd => cases told
    | _ => rfl
  | hand given suspends => exact .hands given rfl rfl rfl rfl rfl
  | pass given => exact .hands given rfl rfl rfl rfl rfl
  | skip blank =>
    have none := List.filter_cons_of_neg (l := []) (ne_true_of_eq_false blank)
    exact .silent rfl rfl rfl none.symm
  | complete => exact .hands rfl rfl rfl rfl rfl rfl
  -- the end of a hand-over, and of the drive
  | awaken handed woken =>
    rcases handed with rfl | ⟨w, rfl⟩
    · exact .silent rfl rfl rfl rfl
    · exact .silent rfl rfl rfl rfl
  | goOn handed asleep =>
    rcases handed with rfl | rfl | rfl
    · exact .silent rfl rfl rfl rfl
    · exact .silent rfl rfl rfl rfl
    · exact .silent rfl rfl rfl rfl
  | fail handed =>
    rcases handed with rfl | ⟨w, rfl⟩
    · exact .silent rfl rfl rfl rfl
    · exact .silent rfl rfl rfl rfl
  | halt => exact .obeys rfl rfl rfl rfl
  -- operations
  | enter notRunning entered => exact .obeys rfl (congrArg _ (attempted entered)) rfl rfl
  | abort => exact .obeys rfl rfl rfl rfl
  | stop => exact .obeys rfl rfl rfl rfl
  | load notRunning => exact .obeys rfl rfl rfl rfl
  | unload notRunning => exact .obeys rfl rfl rfl rfl
  | add added => exact .obeys rfl (congrArg _ (attempted added)) rfl rfl
  | change change => exact .obeys rfl rfl rfl rfl
  | _ => exact .silent rfl rfl rfl rfl

theorem Course.replays {m m' : Moment σ} {t : List (Happening σ)} (course : Course m t m')
    (sound : m.Sound) : m.Replays t m' := by
  induction course with
  | nil => exact .silent rfl rfl rfl rfl
  | snoc before move ih => exact ih.trans (move.replays (before.sound sound))

/-! ## From a start on -/

namespace Recorded

theorem history_startAt_prefix (limit : Nat) (ops : List (Operation σ)) {s : Session σ}
    {node : String} {m : Machine} (idle : s.coordinator.isRunning = false)
    (entered : s.coordinator.machine.enter node = .ok m) :
    [.moment s, .entered node] <+: (history limit (.startAt node :: ops) s).happenings := by
  have started : [.entered node] <+: (startAt limit s node).happenings := by
    unfold startAt
    rw [if_neg (ne_true_of_eq_false idle), entered]
    exact happenings_before_bind (note [.entered node]) _
  have performed := started.trans (happenings_before_bind (perform limit s (.startAt node))
    fun r => history limit ops r.2)
  exact (List.prefix_cons_inj _).mpr performed

end Recorded

namespace Machine

/-- A start depends on nothing but the program. -/
theorem enter_congr {m m' : Machine} (same : m.program = m'.program) (node : String) :
    m.enter node = m'.enter node := by
  unfold enter stop
  rw [same]

end Machine

namespace Session

variable (presenter : Presenter σ) (store : Store σ) (settings : Settings) (text : Line → String)
  (commands : CommandTable σ) (host : σ)

/-- A dialogue is started in any state that a session can come to, and goes on with anything that
    the host does. Then a new machine with the same program that is started at the same node, and
    asked, given the choices and had its variables changed as the session's machine, yields what is
    handed over, and besides only commands without words, and it comes to the state and the
    variables that the session's machine comes to. Where the session breaks off there may be one
    more yield than has been handed over. -/
theorem deliveries_replay (limit : Nat) (before : List (Operation σ)) {s : Session σ}
    (reached : (opening presenter store settings text commands host).performAll limit before =
      .ok s)
    (idle : s.coordinator.isRunning = false) {p : Program}
    (loaded : s.coordinator.machine.program = some p) {node : String}
    (defined : p.defines node = true) (ops : List (Operation σ)) :
    let t := (Recorded.history limit (.startAt node :: ops) s).happenings
    let bare := Bare.drive (cues t) ⟨Machine.empty.load p, s.coordinator.store, s.host⟩
    (∃ rest, cues t = .enter node :: rest) ∧
    (∃ rest, bare.1.filter Yield.isDelivered = deliveries t ++ rest ∧ rest.length ≤ 1) ∧
    ∀ s', s.performAll limit (.startAt node :: ops) = .ok s' →
      bare.1.filter Yield.isDelivered = deliveries t ∧ bare.2 = s'.bare := by
  intro t bare
  have sound := (Course.of_performAll reached).sound
    (opening_sound presenter store settings text commands host)
  obtain ⟨m', course, ends⟩ := Leads.history limit (.startAt node :: ops) s
  obtain ⟨ys, driven, same⟩ := course.replays sound
  -- the start forgets all of the machine but its program
  obtain ⟨m, entered⟩ : ∃ m, s.coordinator.machine.enter node = .ok m := by
    unfold Machine.enter
    rw [loaded]
    exact ⟨_, if_pos defined⟩
  have fresh : (Machine.empty.load p).enter node = .ok m := by
    rw [← entered]
    exact Machine.enter_congr loaded.symm node
  obtain ⟨rest, hrest⟩ := Recorded.history_startAt_prefix limit ops idle entered
  have hcues : cues t = .enter node :: cues rest := by
    change cues (Recorded.history limit (.startAt node :: ops) s).happenings = _
    rw [← hrest]
    rfl
  have agrees : bare = Bare.drive (cues t) s.bare := by
    change Bare.drive (cues t) _ = _
    rw [hcues]
    simp only [Bare.drive, Bare.obey, Bare.attempt, Session.bare, entered, fresh]
  have yields : bare = (ys, m'.bare) := agrees.trans driven
  have given : ys.filter Yield.isDelivered = deliveries t ++ m'.undelivered := same
  refine ⟨⟨_, hcues⟩, ⟨m'.undelivered, ?_, m'.undelivered_le⟩, ?_⟩
  · rw [yields, given]
  · intro s' done
    rw [← Recorded.outcome_history] at done
    cases ends s' done
    rw [yields, given]
    exact ⟨List.append_nil _, rfl⟩

theorem deliveries_replay_offering :
    ∃ s s', (plain (.waiting : Presenter Unit) ()).performAll 9 (Operation.offering.take 1) =
        .ok s ∧
      s.performAll 9 [.startAt "Start", .choose 0] = .ok s' ∧
      (Bare.drive (cues (Recorded.history 9 [.startAt "Start", .choose 0] s).happenings)
        ⟨Machine.empty.load (.ofNode "Start" [.addOption "a" [] "Start", .showOptions]),
          s.coordinator.store, s.host⟩).2 = s'.bare :=
  ⟨_, _, rfl, rfl, ((deliveries_replay .waiting (.memory .empty) .default (fun l => l.id) .empty ()
    9 (Operation.offering.take 1) rfl rfl rfl rfl [.choose 0]).2.2 _ rfl).2⟩

/-- A command without words leaves the machine, but nobody is given it. -/
theorem deliveries_without_blank :
    ∃ s s', (plain (.waiting : Presenter Unit) ()).performAll 9
        [.add (.ofNode "Start" [.command " "])] = .ok s ∧
      s.performAll 9 [.startAt "Start"] = .ok s' ∧
      deliveries (Recorded.history 9 [.startAt "Start"] s).happenings ≠
        (Bare.drive (cues (Recorded.history 9 [.startAt "Start"] s).happenings)
          ⟨Machine.empty.load (.ofNode "Start" [.command " "]), s.coordinator.store,
            s.host⟩).1 :=
  ⟨_, _, rfl, rfl, by decide⟩

end Session

end DialogueEngine
