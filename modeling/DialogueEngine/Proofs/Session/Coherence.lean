import DialogueEngine.Proofs.Session.Courses

/-! # The coordinator and its machine agree

The phase, the suspension, the state of the machine and the mark that a suspension has ended are
kept apart, and every move of a session keeps them in step.

* `Mode.Sound` — what holds of a coordinator, by what its session is busy with.
* `Move.sound` — every move keeps it.
* `Coordinator.Coherent` — what it comes to while no drive goes on.
* `performAll_coherent` — whatever a host does, its session is coherent between operations.
-/

namespace DialogueEngine

variable {σ α : Type}

namespace Machine

/-- The state of the machine during a suspension. -/
def Holds (m : Machine) : Suspension → Prop
  | .line => m.Ready
  | .command => m.Ready
  | .choices ids => ∃ cs, m.Offers cs ∧ cs.ids = ids

/-- The machine is asked for the next yield. If a handle of options has been used as if it were one
    of a line, it still waits for the choice. -/
def Underway (m : Machine) : Prop := m.Moving ∨ ∃ cs, m.Offers cs

theorem Holds.underway {m : Machine} {w : Suspension} (holds : m.Holds w) : m.Underway := by
  cases w with
  | line => exact .inl (Ready.moving holds)
  | command => exact .inl (Ready.moving holds)
  | choices ids =>
    obtain ⟨cs, offers, _⟩ := holds
    exact .inr ⟨cs, offers⟩

theorem Carries.holds {m : Machine} {y : Yield} {w : Suspension} (carries : m.Carries y)
    (suspends : y.suspension? = some w) : m.Holds w := by
  cases y with
  | line l =>
    cases suspends
    exact carries
  | choices cs =>
    cases suspends
    exact ⟨cs, carries, rfl⟩
  | command cmd =>
    cases suspends
    exact carries
  | nodeStart node => cases suspends
  | nodeComplete node => cases suspends
  | dialogueComplete => cases suspends

theorem Carries.moving {m : Machine} {y : Yield} {event : LifecycleEvent} (carries : m.Carries y)
    (told : y.event? = some event) : m.Moving := by
  cases y with
  | nodeStart node => exact carries
  | nodeComplete node => exact carries
  | line l => cases told
  | choices cs => cases told
  | command cmd => cases told
  | dialogueComplete => cases told

theorem Holds.choose_moving {m m' : Machine} {ids : List Nat} {id : Nat}
    (holds : m.Holds (.choices ids)) (chosen : m.choose id = .ok m') : m'.Moving := by
  obtain ⟨cs, offers, _⟩ := holds
  exact Machine.choose_moving offers chosen

theorem Underway.next_carries {m : Machine} (underway : m.Underway) :
    m.next.All fun r => ∀ y, r.1 = .ok y → r.2.Carries y := by
  rcases underway with moving | ⟨cs, offers⟩
  · exact (next_delivers moving).imp fun r => Delivers.carries
  · rw [next_awaiting offers]
    exact fun y hy => by cases hy

-- a change of the program touches nothing that these states speak of

theorem Ready.add {m m' : Machine} {p : Program} (ready : m.Ready) (added : m.add p = .ok m') :
    m'.Ready := by
  rw [add_eq added]
  exact ⟨ready.state, ready.queue⟩

theorem Holds.add {m m' : Machine} {p : Program} {w : Suspension} (holds : m.Holds w)
    (added : m.add p = .ok m') : m'.Holds w := by
  cases w with
  | line => exact Ready.add holds added
  | command => exact Ready.add holds added
  | choices ids =>
    obtain ⟨cs, offers, hids⟩ := holds
    rw [add_eq added]
    exact ⟨cs, ⟨offers.state, offers.queue, offers.offered⟩, hids⟩

theorem Idle.add {m m' : Machine} {p : Program} (idle : m.Idle) (added : m.add p = .ok m') :
    m'.Idle := by
  rw [add_eq added]
  exact ⟨idle.state, idle.frame, idle.queue⟩

end Machine

/-! ## The states of a coordinator -/

namespace Coordinator

/-- The dialogue goes on, and is not suspended. -/
structure Free (c : Coordinator σ) : Prop where
  running : c.phase = .running
  suspension : c.suspension = none
  asleep : c.woken = false

/-- The dialogue goes on, and the machine is asked next. -/
structure Flows (c : Coordinator σ) : Prop extends Free c where
  machine : c.machine.Underway

/-- The dialogue is suspended. -/
structure Held (c : Coordinator σ) (w : Suspension) : Prop where
  running : c.phase = .running
  suspension : c.suspension = some w
  asleep : c.woken = false
  machine : c.machine.Holds w

/-- The suspension has ended while it was still being handed over. -/
structure Released (c : Coordinator σ) : Prop where
  running : c.phase = .running
  suspension : c.suspension = none
  woken : c.woken = true
  machine : c.machine.Underway

structure Over (c : Coordinator σ) : Prop where
  notRunning : c.phase ≠ .running
  suspension : c.suspension = none
  asleep : c.woken = false
  machine : c.machine.Idle

/-- No drive goes on. -/
def Rests (c : Coordinator σ) : Prop := c.Over ∨ ∃ w, c.Held w

/-- Two coordinators that differ in nothing that the dialogue's state is read off. -/
structure Alike (c c' : Coordinator σ) : Prop where
  phase : c'.phase = c.phase
  suspension : c'.suspension = c.suspension
  woken : c'.woken = c.woken
  machine : c'.machine = c.machine

variable {c c' : Coordinator σ}

theorem alike_timers (c : Coordinator σ) (timers : Timers) :
    c.Alike { c with timers := timers } := ⟨rfl, rfl, rfl, rfl⟩

theorem alike_schedule {d : Duration} {k : Continuation}
    (scheduled : c.schedule? d k = some c') : c.Alike c' := by
  rw [schedule?_eq scheduled]
  exact alike_timers c _

theorem Free.alike (free : c.Free) (alike : c.Alike c') : c'.Free :=
  ⟨alike.phase.trans free.running, alike.suspension.trans free.suspension,
    alike.woken.trans free.asleep⟩

theorem Flows.alike (flows : c.Flows) (alike : c.Alike c') : c'.Flows :=
  ⟨flows.toFree.alike alike, alike.machine ▸ flows.machine⟩

theorem Held.alike {w : Suspension} (held : c.Held w) (alike : c.Alike c') : c'.Held w :=
  ⟨alike.phase.trans held.running, alike.suspension.trans held.suspension,
    alike.woken.trans held.asleep, alike.machine ▸ held.machine⟩

theorem Released.alike (released : c.Released) (alike : c.Alike c') : c'.Released :=
  ⟨alike.phase.trans released.running, alike.suspension.trans released.suspension,
    alike.woken.trans released.woken, alike.machine ▸ released.machine⟩

theorem Over.alike (ended : c.Over) (alike : c.Alike c') : c'.Over :=
  ⟨alike.phase ▸ ended.notRunning, alike.suspension.trans ended.suspension,
    alike.woken.trans ended.asleep, alike.machine ▸ ended.machine⟩

theorem Rests.alike (rests : c.Rests) (alike : c.Alike c') : c'.Rests :=
  rests.imp (·.alike alike) fun ⟨w, held⟩ => ⟨w, held.alike alike⟩

theorem Rests.asleep (rests : c.Rests) : c.woken = false := by
  rcases rests with ended | ⟨w, held⟩
  · exact ended.asleep
  · exact held.asleep

theorem over_halt (asleep : c.woken = false) : c.halt.Over :=
  ⟨by simp [halt], rfl, asleep, c.machine.idle_stop⟩

/-! ## Handles -/

theorem not_picked (unsuspended : c.suspension = none) {id : Nat} : c.pick id ≠ .resumed c' := by
  intro picked
  obtain ⟨ids, m, suspended, _, _⟩ := pick_resumed picked
  rw [unsuspended] at suspended
  cases suspended

theorem Held.resumed {w : Suspension} (held : c.Held w) {k : Continuation}
    (resumed : c.useContinuation k = .resumed c') : c'.Flows := by
  obtain ⟨_, _, rfl⟩ := useContinuation_resumed resumed
  exact ⟨⟨held.running, rfl, held.asleep⟩, held.machine.underway⟩

theorem Held.picked {w : Suspension} (held : c.Held w) {id : Nat}
    (picked : c.pick id = .resumed c') : c'.Flows := by
  obtain ⟨ids, m, suspended, chosen, rfl⟩ := pick_resumed picked
  have holds := held.machine
  rw [held.suspension] at suspended
  cases suspended
  exact ⟨⟨held.running, rfl, held.asleep⟩, .inl (holds.choose_moving chosen)⟩

theorem Rests.resumed (rests : c.Rests) {k : Continuation}
    (resumed : c.useContinuation k = .resumed c') : c'.Flows := by
  rcases rests with ended | ⟨w, held⟩
  · exact absurd (useContinuation_resumed resumed).2.1 ended.notRunning
  · exact held.resumed resumed

theorem Rests.picked (rests : c.Rests) {id : Nat} (picked : c.pick id = .resumed c') :
    c'.Flows := by
  rcases rests with ended | ⟨w, held⟩
  · exact absurd picked (not_picked ended.suspension)
  · exact held.picked picked

theorem Flows.released (flows : c.Flows) : Released { c with woken := true } :=
  ⟨flows.running, flows.suspension, rfl, flows.machine⟩

end Coordinator

/-! ## Moves -/

/-- What holds of a coordinator, by what its session is busy with. -/
def Mode.Sound : Mode σ → Coordinator σ → Prop
  | .resting, c => c.Rests
  | .starting, c => c.Flows
  | .driving, c => c.Flows
  | .asking s, _ => s.coordinator.Flows
  | .carrying y, c => c.Free ∧ c.machine.Carries y
  | .handing w, c => c.Held w ∨ c.Released
  | .passing, c => c.Flows
  | .ending, c => c.Over
  | .settling, c => c.Rests
  | .failing _, _ => True

/-- What holds of a session, by what it is busy with. -/
def Moment.Sound (m : Moment σ) : Prop := m.mode.Sound m.session.coordinator

theorem Mode.Sound.alike {mode : Mode σ} {c c' : Coordinator σ} (sound : mode.Sound c)
    (alike : c.Alike c') : mode.Sound c' := by
  cases mode with
  | resting => exact Coordinator.Rests.alike sound alike
  | starting => exact Coordinator.Flows.alike sound alike
  | driving => exact Coordinator.Flows.alike sound alike
  | asking s => exact sound
  | carrying y => exact ⟨sound.1.alike alike, alike.machine ▸ sound.2⟩
  | handing w => exact sound.imp (·.alike alike) (·.alike alike)
  | passing => exact Coordinator.Flows.alike sound alike
  | ending => exact Coordinator.Over.alike sound alike
  | settling => exact Coordinator.Rests.alike sound alike
  | failing e => trivial

/-- A handle that is used during a hand-over and resumes ends the suspension that is handed
    over. -/
theorem Mode.Sound.released {mode : Mode σ} {c c' : Coordinator σ} (sound : mode.Sound c)
    (runs : mode.Runs .handover) (suspended : c.suspension ≠ none)
    (resumes : ∀ w, c.Held w → c'.Flows) : mode.Sound { c' with woken := true } := by
  cases mode with
  | handing w =>
    rcases sound with held | released
    · exact .inr (resumes w held).released
    · exact absurd released.suspension suspended
  | starting => exact absurd (Coordinator.Flows.toFree sound).suspension suspended
  | passing => exact absurd (Coordinator.Flows.toFree sound).suspension suspended
  | ending => exact absurd (Coordinator.Over.suspension sound) suspended
  | resting | driving | asking | carrying | settling | failing => cases runs

/-- Where nothing has been woken, the end of a drive changes nothing. -/
theorem Session.settle_eq {s : Session σ} (asleep : s.coordinator.woken = false) :
    s.settle = s := by
  obtain ⟨⟨_, _, _, _, _, _, _, _, _, _, _, woken⟩, host⟩ := s
  cases asleep
  rfl

theorem Move.sound {m m' : Moment σ} {l : List (Happening σ)} (move : Move m l m')
    (sound : m.Sound) : m'.Sound := by
  cases move with
  -- host code
  | see runs => exact sound
  | write x runs => exact sound
  | use h runs => exact sound
  | wait runs scheduled => exact sound.alike (Coordinator.alike_schedule scheduled)
  | @wake mode due s k c runs resumed =>
    refine Mode.Sound.released sound runs (fun free => ?_) fun w held => held.resumed resumed
    have live := (Coordinator.useContinuation_resumed resumed).1
    rw [Coordinator.isLive_of_suspension_none free] at live
    cases live
  | pick runs picked =>
    exact Mode.Sound.released sound runs (fun free => Coordinator.not_picked free picked)
      fun w held => held.picked picked
  -- handles while no drive goes on
  | resume resumed =>
    have flows := Coordinator.Rests.resumed sound resumed
    exact flows.alike ⟨rfl, rfl, flows.asleep.symm, rfl⟩
  | choose picked =>
    have flows := Coordinator.Rests.picked sound picked
    exact flows.alike ⟨rfl, rfl, flows.asleep.symm, rfl⟩
  | fire resumed =>
    have flows := Coordinator.Rests.resumed sound resumed
    exact flows.alike ⟨rfl, rfl, flows.asleep.symm, rfl⟩
  | expire => exact sound
  | advance advanced => exact Coordinator.Rests.alike sound (Coordinator.alike_timers _ _)
  -- turns of the drive
  | ask running => exact sound
  | @answer due s s' r m store answered =>
    have flows : s.coordinator.Flows := sound
    have frame := Act.within_store answered
    have carries := (flows.machine.next_carries.onStore s.coordinator.store).within answered
    cases r with
    | error e => trivial
    | ok y =>
      refine ⟨?_, carries y rfl⟩
      rw [frame]
      exact ⟨flows.running, flows.suspension, flows.asleep⟩
  | @quiet due s notRunning =>
    have flows : s.coordinator.Flows := sound
    exact absurd flows.running (Coordinator.isRunning_eq_false_iff.mp notRunning)
  | announce told => exact ⟨⟨sound.1.running, sound.1.suspension, sound.1.asleep⟩,
      .inl (sound.2.moving told)⟩
  | hand given suspends =>
    exact .inl ⟨sound.1.running, rfl, sound.1.asleep, sound.2.holds suspends⟩
  | pass given => exact ⟨sound.1, .inl (Machine.Ready.moving sound.2)⟩
  | skip blank => exact ⟨sound.1, .inl (Machine.Ready.moving sound.2)⟩
  | complete => exact ⟨nofun, rfl, sound.1.asleep, sound.2⟩
  -- the end of a hand-over
  | @awaken mode due s handed woken =>
    have released : s.coordinator.Released := by
      rcases handed with rfl | ⟨w, rfl⟩
      · have asleep := (Coordinator.Flows.toFree sound).asleep
        rw [asleep] at woken
        cases woken
      · rcases sound with held | released
        · rw [held.asleep] at woken
          cases woken
        · exact released
    exact ⟨⟨released.running, released.suspension, rfl⟩, released.machine⟩
  | @goOn mode due s handed asleep =>
    have holds : s.coordinator.phase = .running ∧ s.coordinator.machine.Underway := by
      have fromHeld {w : Suspension} (sound : s.coordinator.Held w ∨ s.coordinator.Released) :
          s.coordinator.phase = .running ∧ s.coordinator.machine.Underway := by
        rcases sound with held | released
        · exact ⟨held.running, held.machine.underway⟩
        · exact ⟨released.running, released.machine⟩
      rcases handed with rfl | rfl | rfl
      · exact ⟨(Coordinator.Flows.toFree sound).running, Coordinator.Flows.machine sound⟩
      · exact fromHeld sound
      · exact fromHeld sound
    exact ⟨⟨holds.1, rfl, asleep⟩, holds.2⟩
  | @pause due s w asleep =>
    rcases sound with held | released
    · exact .inr ⟨w, held⟩
    · rw [released.woken] at asleep
      cases asleep
  | finish => exact .inl sound
  | fail handed => trivial
  -- the end of the drive
  | @settle due s =>
    have rests : s.coordinator.Rests := sound
    rw [Session.settle_eq rests.asleep]
    exact rests
  | halt => exact .inl (Coordinator.over_halt rfl)
  -- operations
  | enter notRunning entered =>
    have asleep := Coordinator.Rests.asleep sound
    exact ⟨⟨rfl, rfl, asleep⟩, .inl (Machine.enter_moving entered)⟩
  | begin =>
    have flows : Coordinator.Flows _ := sound
    exact flows.alike ⟨rfl, rfl, flows.asleep.symm, rfl⟩
  | abort => exact .inl (Coordinator.over_halt (Coordinator.Flows.toFree sound).asleep)
  | @proceed due s running free =>
    have rests : s.coordinator.Rests := sound
    rcases rests with ended | ⟨w, held⟩
    · exact absurd (Coordinator.isRunning_iff.mp running) ended.notRunning
    · exact ⟨⟨held.running, rfl, rfl⟩, held.machine.underway⟩
  | stop => exact .inl (Coordinator.over_halt (Coordinator.Rests.asleep sound))
  | @load due s p notRunning =>
    have rests : s.coordinator.Rests := sound
    rcases rests with ended | ⟨w, held⟩
    · exact .inl ⟨ended.notRunning, ended.suspension, ended.asleep, rfl, rfl, rfl⟩
    · exact absurd held.running (Coordinator.isRunning_eq_false_iff.mp notRunning)
  | @unload due s notRunning =>
    have rests : s.coordinator.Rests := sound
    rcases rests with ended | ⟨w, held⟩
    · exact .inl ⟨ended.notRunning, ended.suspension, ended.asleep, rfl, rfl, rfl⟩
    · exact absurd held.running (Coordinator.isRunning_eq_false_iff.mp notRunning)
  | @add due s p m added =>
    have rests : s.coordinator.Rests := sound
    rcases rests with ended | ⟨w, held⟩
    · exact .inl ⟨ended.notRunning, ended.suspension, ended.asleep, ended.machine.add added⟩
    · exact .inr ⟨w, held.running, held.suspension, held.asleep, held.machine.add added⟩
  | change change => exact Coordinator.Rests.alike sound ⟨rfl, rfl, rfl, rfl⟩
  | furnish => exact Coordinator.Rests.alike sound ⟨rfl, rfl, rfl, rfl⟩

theorem Course.sound {m m' : Moment σ} {t : List (Happening σ)} (course : Course m t m')
    (sound : m.Sound) : m'.Sound := by
  induction course with
  | nil => exact sound
  | snoc _ move ih => exact move.sound ih

/-! ## Between operations -/

/-- The phase, the suspension and the machine of a coordinator agree. -/
structure Coordinator.Coherent (c : Coordinator σ) : Prop where
  /-- The dialogue goes on as long as it is suspended. -/
  running_iff : c.phase = .running ↔ c.suspension.isSome = true
  choices_iff : (∃ ids, c.suspension = some (.choices ids)) ↔ c.machine.state = .awaitingChoice
  /-- The numbers that may be chosen are those of the options that the machine has offered. -/
  choices_offered : ∀ ids, c.suspension = some (.choices ids) →
    ∃ cs, c.machine.offered = some cs ∧ cs.ids = ids
  held_ready : c.suspension = some .line ∨ c.suspension = some .command →
    c.machine.state = .running ∧ c.machine.queue = []
  over_idle : c.phase ≠ .running →
    c.machine.state = .stopped ∧ c.machine.frame = none ∧ c.machine.queue = []
  /-- No mark is left that a suspension has ended during its hand-over. -/
  asleep : c.woken = false

namespace Coordinator

variable {c : Coordinator σ}

theorem Over.coherent (ended : c.Over) : c.Coherent where
  running_iff := by simp [ended.notRunning, ended.suspension]
  choices_iff := by simp [ended.suspension, ended.machine.state]
  choices_offered := by simp [ended.suspension]
  held_ready := by simp [ended.suspension]
  over_idle := fun _ => ⟨ended.machine.state, ended.machine.frame, ended.machine.queue⟩
  asleep := ended.asleep

theorem Held.coherent {w : Suspension} (held : c.Held w) : c.Coherent where
  running_iff := by simp [held.running, held.suspension]
  choices_iff := by
    have holds := held.machine
    rw [held.suspension]
    cases w with
    | line => simp [Machine.Ready.state holds]
    | command => simp [Machine.Ready.state holds]
    | choices ids =>
      obtain ⟨cs, offers, _⟩ := holds
      simp [offers.state]
  choices_offered := by
    intro ids suspended
    have holds := held.machine
    rw [held.suspension] at suspended
    cases suspended
    obtain ⟨cs, offers, hids⟩ := holds
    exact ⟨cs, offers.offered, hids⟩
  held_ready := by
    intro suspended
    have holds := held.machine
    rw [held.suspension] at suspended
    rcases suspended with suspended | suspended
    · cases suspended
      exact ⟨Machine.Ready.state holds, Machine.Ready.queue holds⟩
    · cases suspended
      exact ⟨Machine.Ready.state holds, Machine.Ready.queue holds⟩
  over_idle := fun notRunning => absurd held.running notRunning
  asleep := held.asleep

theorem Rests.coherent (rests : c.Rests) : c.Coherent := by
  rcases rests with ended | ⟨w, held⟩
  · exact ended.coherent
  · exact held.coherent

end Coordinator

namespace Session

variable (presenter : Presenter σ) (store : Store σ) (settings : Settings) (text : Line → String)
  (commands : CommandTable σ) (host : σ)

theorem opening_sound : Moment.Sound
    ⟨.resting, [], opening presenter store settings text commands host⟩ :=
  .inl ⟨nofun, rfl, rfl, rfl, rfl, rfl⟩

/-- Whatever presenter, store, texts and handlers a session has, and whatever the host does with it
    and with its handles, between operations and during hand-overs: its coordinator is coherent. -/
theorem performAll_coherent (limit : Nat) (ops : List (Operation σ)) {s : Session σ}
    (done : (opening presenter store settings text commands host).performAll limit ops = .ok s) :
    s.coordinator.Coherent := by
  have sound := (Course.of_performAll done).sound
    (opening_sound presenter store settings text commands host)
  exact Coordinator.Rests.coherent sound

theorem performAll_coherent_offering :
    ∃ s, (plain (.waiting : Presenter Unit) ()).performAll 9 Operation.offering = .ok s ∧
      s.coordinator.suspension = some (.choices [0]) ∧ s.coordinator.Coherent :=
  ⟨_, rfl, rfl, performAll_coherent .waiting (.memory .empty) .default (fun l => l.id) .empty () 9
    Operation.offering rfl⟩

end Session

end DialogueEngine
