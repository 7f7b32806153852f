import DialogueEngine.Proofs.Machine.Visits
import DialogueEngine.Proofs.Session.Replay

/-! # What the host is told of a dialogue

From one start to the next the host is told of nodes that are begun and left one after the other,
and of the end, however often the dialogue is suspended and whatever ends it before.

* `told` — what the host is told in a record.
* `Happening.IsStart` — where a record is cut.
* `Moment.Trails` — what holds of the machine, by what its session is busy with.
* `Course.trails` — every move keeps it.
* `Course.idle` — without a start nothing is handed over once a dialogue is over.
-/

namespace DialogueEngine

variable {σ : Type}

def told (t : List (Happening σ)) : List LifecycleEvent := tellings (deliveries t)

theorem told_append (t l : List (Happening σ)) : told (t ++ l) = told t ++ told l := by
  rw [told, deliveries_append, tellings_append]
  rfl

/-- A dialogue starts at a node that there is. -/
def Happening.IsStart : Happening σ → Prop
  | .entered _ => True
  | _ => False

/-! ## Courses in parts -/

/-- A course goes through every part of what happens in it. -/
theorem Course.cut {m m' : Moment σ} {t t₁ t₂ : List (Happening σ)} (course : Course m t m')
    (parts : t = t₁ ++ t₂) : ∃ n, Course m t₁ n ∧ Course n t₂ m' := by
  induction course generalizing t₂ with
  | nil =>
    obtain ⟨rfl, rfl⟩ := List.append_eq_nil_iff.mp parts.symm
    exact ⟨m, .nil, .nil⟩
  | @snoc t l n n' before move ih =>
    rcases move.label with rfl | ⟨a, rfl⟩
    · rw [List.append_nil] at parts
      obtain ⟨p, first, last⟩ := ih parts
      have last := last.snoc move
      rw [List.append_nil] at last
      exact ⟨p, first, last⟩
    · rcases List.eq_nil_or_concat t₂ with rfl | ⟨t₂, b, rfl⟩
      · rw [List.append_nil] at parts
        subst parts
        exact ⟨n', before.snoc move, .nil⟩
      · rw [List.concat_eq_append, ← List.append_assoc] at parts
        obtain ⟨parts, hb⟩ := List.append_inj' parts rfl
        obtain ⟨p, first, last⟩ := ih parts
        cases hb
        rw [List.concat_eq_append]
        exact ⟨p, first, last.snoc move⟩

theorem Move.entered {m m' : Moment σ} {node : String} (move : Move m [.entered node] m') :
    m.mode = .resting ∧ m'.mode = .starting ∧
      m.session.coordinator.machine.enter node = .ok m'.session.coordinator.machine := by
  generalize hl : [Happening.entered node] = l at move
  cases move with
  | enter notRunning entered =>
    cases hl
    exact ⟨rfl, rfl, entered⟩
  | @write _ _ _ e x runs => cases e <;> cases hl
  | _ => cases hl

theorem Move.halted {m m' : Moment σ} {e : Option EngineError} (move : Move m [.halted e] m') :
    m'.mode = .resting ∧ m'.session.coordinator.phase = .completed := by
  generalize hl : [Happening.halted e] = l at move
  cases move with
  | halt => exact ⟨rfl, rfl⟩
  | abort => exact ⟨rfl, rfl⟩
  | stop => exact ⟨rfl, rfl⟩
  | @write _ _ _ e x runs => cases e <;> cases hl
  | _ => cases hl

/-! ## Within one run of a dialogue -/

/-- What holds of the machine when events have been told since the start, by what its session is
    busy with. -/
def Moment.Trails (first : String) (events : List LifecycleEvent) (m : Moment σ) : Prop :=
  let c := m.session.coordinator
  match m.mode with
  | .resting => Lifecycle first events ∧ (c.phase = .running → c.machine.Trails first events)
  | .starting => c.machine.Trails first events
  | .driving => c.machine.Trails first events
  | .asking s => s.coordinator.machine.Trails first events
  | .carrying y => c.machine.Trails first (events ++ tellings [y])
  | .handing _ => c.machine.Trails first events
  | .passing => c.machine.Trails first events
  | .ending => Lifecycle first events
  | .settling => Lifecycle first events ∧ (c.phase = .running → c.machine.Trails first events)
  | .failing _ => Lifecycle first events

namespace Moment.Trails

variable {first : String} {events : List LifecycleEvent} {mode : Mode σ}
  {due : List Continuation} {s s' : Session σ}

theorem lifecycle {m : Moment σ} (trails : m.Trails first events) : Lifecycle first events := by
  obtain ⟨mode, due, s⟩ := m
  cases mode with
  | resting => exact trails.1
  | settling => exact trails.1
  | ending => exact trails
  | failing e => exact trails
  | carrying y => exact (Machine.Trails.lifecycle trails).shorten (List.prefix_append _ _)
  | starting | driving | asking s | handing w | passing => exact Machine.Trails.lifecycle trails

/-- Only the phase and the machine matter. -/
theorem congr (trails : Moment.Trails first events ⟨mode, due, s⟩)
    (phase : s'.coordinator.phase = s.coordinator.phase)
    (machine : s'.coordinator.machine = s.coordinator.machine) :
    Moment.Trails first events ⟨mode, due, s'⟩ := by
  cases mode with
  | asking s₀ => exact trails
  | _ =>
    simp only [Moment.Trails, phase, machine] at trails ⊢
    exact trails

/-- The drive is over and the dialogue goes on. -/
theorem of_machine (trails : s.coordinator.machine.Trails first events) :
    Moment.Trails first events ⟨.settling, due, s⟩ :=
  ⟨trails.lifecycle, fun _ => trails⟩

theorem of_lifecycle (lifecycle : Lifecycle first events)
    (ended : s.coordinator.phase ≠ .running) : Moment.Trails first events ⟨.resting, due, s⟩ :=
  ⟨lifecycle, fun running => absurd running ended⟩

/-- An option that is chosen during a hand-over. -/
theorem pick {c : Coordinator σ} {id : Nat} (trails : Moment.Trails first events ⟨mode, due, s⟩)
    (runs : mode.Runs .handover) (picked : s.coordinator.pick id = .resumed c) :
    Moment.Trails first events ⟨mode, due, s.withCoordinator { c with woken := true }⟩ := by
  obtain ⟨ids, m, _, chosen, rfl⟩ := Coordinator.pick_resumed picked
  cases mode with
  | starting => exact Machine.Trails.choose trails chosen
  | handing w => exact Machine.Trails.choose trails chosen
  | passing => exact Machine.Trails.choose trails chosen
  | ending => exact Moment.Trails.lifecycle trails
  | resting | driving | asking | carrying | settling | failing => cases runs

end Moment.Trails

theorem told_nil_of {l : List (Happening σ)} (none : deliveries l = []) : told l = [] := by
  rw [told, none]
  rfl

theorem Move.told_write {e : Errand} (x : σ) : told (e.writes x) = [] := by
  cases e <;> rfl

/-- Every move but a start carries on from what has been told. -/
theorem Move.trails {m m' : Moment σ} {l : List (Happening σ)} {first : String}
    {events : List LifecycleEvent} (move : Move m l m') (sound : m.Sound)
    (unstarted : ∀ a ∈ l, ¬ a.IsStart) (trails : m.Trails first events) :
    m'.Trails first (events ++ told l) := by
  -- most moves tell nothing
  have silent (none : told l = []) (trails : m'.Trails first events) :
      m'.Trails first (events ++ told l) := by
    rw [none, List.append_nil]
    exact trails
  cases move with
  -- host code
  | see runs => exact silent rfl trails
  | write x runs => exact silent (Move.told_write x) (trails.congr rfl rfl)
  | use h runs => exact silent rfl trails
  | wait runs scheduled =>
    refine silent rfl (trails.congr ?_ ?_)
    · rw [Coordinator.schedule?_eq scheduled]
      rfl
    · rw [Coordinator.schedule?_eq scheduled]
      rfl
  | wake runs resumed =>
    obtain ⟨_, _, rfl⟩ := Coordinator.useContinuation_resumed resumed
    exact silent rfl (trails.congr rfl rfl)
  | pick runs picked => exact silent rfl (trails.pick runs picked)
  -- handles while no drive goes on
  | resume resumed =>
    obtain ⟨_, running, rfl⟩ := Coordinator.useContinuation_resumed resumed
    exact silent rfl (trails.2 running)
  | @choose due s id c picked =>
    obtain ⟨ids, m, suspended, chosen, rfl⟩ := Coordinator.pick_resumed picked
    have running : s.coordinator.phase = .running := by
      rcases sound with ended | ⟨w, held⟩
      · rw [ended.suspension] at suspended
        cases suspended
      · exact held.running
    exact silent rfl ((trails.2 running).choose chosen)
  | fire resumed =>
    obtain ⟨_, running, rfl⟩ := Coordinator.useContinuation_resumed resumed
    exact silent rfl (trails.2 running)
  | advance advanced => exact silent rfl trails
  | expire => exact silent rfl trails
  -- turns of the drive
  | ask running => exact silent rfl trails
  | @answer due s s' r m store answered =>
    have resumes := ((Machine.next_trails trails).onStore s.coordinator.store).within answered
    cases r with
    | error e => exact silent rfl (Machine.Trails.lifecycle trails)
    | ok y => exact silent rfl (resumes y rfl)
  | @quiet due s notRunning =>
    have flows : s.coordinator.Flows := sound
    exact absurd flows.running (Coordinator.isRunning_eq_false_iff.mp notRunning)
  | announce tells => exact trails
  | @hand due s y w given suspends =>
    have untold : tellings [y] = [] := by
      cases y with
      | line l => rfl
      | choices cs => rfl
      | command cmd => rfl
      | nodeStart node => cases suspends
      | nodeComplete node => cases suspends
      | dialogueComplete => cases suspends
    change Machine.Trails first (events ++ tellings [y]) _
    exact trails
  | pass given => exact trails
  | skip blank =>
    change Machine.Trails first (events ++ tellings [.command _]) _ at trails
    exact trails
  | complete => exact Machine.Trails.lifecycle trails
  -- the end of a hand-over
  | awaken handed woken =>
    rcases handed with rfl | ⟨w, rfl⟩
    · exact silent rfl trails
    · exact silent rfl trails
  | goOn handed asleep =>
    rcases handed with rfl | rfl | rfl
    · exact silent rfl trails
    · exact silent rfl trails
    · exact silent rfl trails
  | pause asleep => exact silent rfl (.of_machine trails)
  | @finish due s =>
    have ended : s.coordinator.Over := sound
    exact silent rfl ⟨trails, fun running => absurd running ended.notRunning⟩
  | fail handed =>
    rcases handed with rfl | ⟨w, rfl⟩
    · exact silent rfl trails
    · exact silent rfl (Machine.Trails.lifecycle trails)
  -- the end of the drive
  | settle => exact silent rfl trails
  | halt => exact silent rfl (.of_lifecycle trails nofun)
  -- operations
  | enter notRunning entered => exact absurd trivial (unstarted _ List.mem_cons_self)
  | begin => exact silent rfl trails
  | abort => exact silent rfl (.of_lifecycle (Machine.Trails.lifecycle trails) nofun)
  | proceed running free => exact silent rfl (trails.2 (Coordinator.isRunning_iff.mp running))
  | stop => exact silent rfl (.of_lifecycle trails.1 nofun)
  | load notRunning =>
    exact silent rfl (.of_lifecycle trails.1 (Coordinator.isRunning_eq_false_iff.mp notRunning))
  | unload notRunning =>
    exact silent rfl (.of_lifecycle trails.1 (Coordinator.isRunning_eq_false_iff.mp notRunning))
  | add added => exact silent rfl ⟨trails.1, fun running => (trails.2 running).add added⟩
  | change change => exact silent rfl (trails.congr rfl rfl)
  | furnish => exact silent rfl (trails.congr rfl rfl)

theorem Course.trails {m m' : Moment σ} {t : List (Happening σ)} {first : String}
    {events : List LifecycleEvent} (course : Course m t m') (sound : m.Sound)
    (unstarted : ∀ a ∈ t, ¬ a.IsStart) (trails : m.Trails first events) :
    m'.Trails first (events ++ told t) := by
  induction course with
  | nil =>
    rw [told_nil_of rfl, List.append_nil]
    exact trails
  | snoc before move ih =>
    have earlier := ih fun a ha => unstarted a (List.mem_append_left _ ha)
    rw [told_append, ← List.append_assoc]
    exact move.trails (before.sound sound) (fun a ha => unstarted a (List.mem_append_right _ ha))
      earlier

/-! ## After a dialogue -/

def Moment.Idle (m : Moment σ) : Prop :=
  m.mode = .resting ∧ m.session.coordinator.phase ≠ .running

/-- When no dialogue goes on nothing is handed over, and only a start changes that. -/
theorem Move.idle {m m' : Moment σ} {l : List (Happening σ)} (move : Move m l m')
    (sound : m.Sound) (unstarted : ∀ a ∈ l, ¬ a.IsStart) (idle : m.Idle) :
    deliveries l = [] ∧ m'.Idle := by
  obtain ⟨resting, notRunning⟩ := idle
  cases move with
  | see runs => exact ⟨rfl, resting, notRunning⟩
  | @write _ _ _ e x runs =>
    refine ⟨?_, resting, notRunning⟩
    cases e <;> rfl
  | use h runs => exact ⟨rfl, resting, notRunning⟩
  | wait runs scheduled =>
    refine ⟨rfl, resting, ?_⟩
    rw [Coordinator.schedule?_eq scheduled]
    exact notRunning
  | wake runs resumed => exact absurd (Coordinator.useContinuation_resumed resumed).2.1 notRunning
  | resume resumed => exact absurd (Coordinator.useContinuation_resumed resumed).2.1 notRunning
  | fire resumed => exact absurd (Coordinator.useContinuation_resumed resumed).2.1 notRunning
  | pick runs picked =>
    cases resting
    cases runs
  | choose picked =>
    rcases sound with ended | ⟨w, held⟩
    · exact absurd picked (Coordinator.not_picked ended.suspension)
    · exact absurd held.running notRunning
  | proceed running free => exact absurd (Coordinator.isRunning_iff.mp running) notRunning
  | awaken handed woken =>
    rcases handed with rfl | ⟨w, rfl⟩
    · cases resting
    · cases resting
  | goOn handed asleep => rcases handed with rfl | rfl | rfl <;> cases resting
  | fail handed =>
    rcases handed with rfl | ⟨w, rfl⟩
    · cases resting
    · cases resting
  | enter _ _ => exact absurd trivial (unstarted _ List.mem_cons_self)
  | stop => exact ⟨rfl, rfl, nofun⟩
  | advance | expire | load | unload | add | change | furnish => exact ⟨rfl, rfl, notRunning⟩
  | ask | answer | quiet | announce | hand | pass | skip | complete | pause | finish | settle | halt
  | begin | abort => cases resting

theorem Course.idle {m m' : Moment σ} {t : List (Happening σ)} (course : Course m t m')
    (sound : m.Sound) (unstarted : ∀ a ∈ t, ¬ a.IsStart) (idle : m.Idle) :
    deliveries t = [] ∧ m'.Idle := by
  induction course with
  | nil => exact ⟨rfl, idle⟩
  | snoc before move ih =>
    obtain ⟨none, rests⟩ := ih fun a ha => unstarted a (List.mem_append_left _ ha)
    obtain ⟨none', rests'⟩ := move.idle (before.sound sound)
      (fun a ha => unstarted a (List.mem_append_right _ ha)) rests
    rw [deliveries_append, none, none']
    exact ⟨rfl, rests'⟩

/-! ## From one start to the next -/

/-- What is told from a start on. -/
theorem Course.lifecycle {m m' : Moment σ} {t u : List (Happening σ)} {node : String}
    (course : Course m (t ++ .entered node :: u) m') (sound : m.Sound)
    (unstarted : ∀ a ∈ u, ¬ a.IsStart) : Lifecycle node (told u) := by
  obtain ⟨n, n', before, move, after⟩ := course.split rfl
  have started : n'.Trails node [] := by
    obtain ⟨_, starting, entered⟩ := move.entered
    obtain ⟨mode, due, s⟩ := n'
    cases starting
    exact .enter entered
  have trails := after.trails (move.sound (before.sound sound)) unstarted started
  exact trails.lifecycle

/-- What has been told before does not matter when no dialogue goes on; else the last event is
    the start of the present node. -/
theorem Course.present {m m' : Moment σ} {t : List (Happening σ)} (course : Course m t m')
    (sound : m.Sound) (idle : m.Idle) :
    m'.Idle ∨ ∃ before first events, told t = before ++ events ∧ m'.Trails first events := by
  induction course with
  | nil => exact .inl idle
  | @snoc t l n n' before move ih =>
    have sound := before.sound sound
    by_cases started : ∃ node, l = [.entered node]
    · obtain ⟨node, rfl⟩ := started
      obtain ⟨_, starting, entered⟩ := move.entered
      refine .inr ⟨told t, node, [], told_append _ _, ?_⟩
      obtain ⟨mode, due, s⟩ := n'
      cases starting
      exact .enter entered
    · have unstarted : ∀ a ∈ l, ¬ a.IsStart := by
        intro a ha starts
        rcases move.label with rfl | ⟨b, rfl⟩
        · cases ha
        · obtain rfl := List.mem_singleton.mp ha
          cases a with
          | entered node => exact started ⟨node, rfl⟩
          | _ => exact starts
      rcases ih with idle | ⟨earlier, first, events, parts, trails⟩
      · exact .inl (move.idle sound unstarted idle).2
      · refine .inr ⟨earlier, first, events ++ told l, ?_, move.trails sound unstarted trails⟩
        rw [told_append, parts, List.append_assoc]

end DialogueEngine
