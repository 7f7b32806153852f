import DialogueEngine.Proofs.Coordinator.Deadlines
import DialogueEngine.Proofs.Session.Coherence
import DialogueEngine.Proofs.Session.Handles

/-! # Hosts that use only the handles they have been given

A continuation that was given out belongs to a line or to a command, and is never live while the
dialogue is suspended on options. So under a host that makes up no handles the machine is never
asked while it waits for a choice, and no drive ends with an error that refuses an operation.

* `Fair` — only handles that were given out are used.
* `Coordinator.Fits` — what is known of a continuation that was given out.
* `Move.waits` — only a continuation that is used can be kept for later.
* `Move.clear`, `Course.clear` — in a fair course no drive ends with a refusal.
-/

namespace DialogueEngine

variable {σ : Type}

/-! ## Fair hosts -/

/-- Only handles that have been given out before are used. -/
def Fair (t : List (Happening σ)) : Prop :=
  ∀ t₁ h t₂, t = t₁ ++ .used h :: t₂ → h ∈ handed t₁

def Happening.used? : Happening σ → Option Handle
  | .used h => some h
  | _ => none

theorem fair_of_unused {t : List (Happening σ)} (unused : t.filterMap Happening.used? = []) :
    Fair t := by
  intro t₁ h t₂ ht
  rw [ht, List.filterMap_append] at unused
  have rest := (List.append_eq_nil_iff.mp unused).2
  cases rest

theorem Fair.before {t l : List (Happening σ)} (fair : Fair (t ++ l)) : Fair t := by
  intro t₁ h t₂ ht
  refine fair t₁ h (t₂ ++ l) ?_
  rw [ht, List.append_assoc, List.cons_append]

theorem Fair.used {t : List (Happening σ)} {h : Handle} (fair : Fair (t ++ [.used h])) :
    h ∈ handed t :=
  fair t h [] rfl

/-! ## Continuations that were given out -/

namespace Coordinator

/-- A continuation that was given out: as long as it is live the dialogue is suspended on a line or
    on a command. -/
structure Fits (c : Coordinator σ) (k : Continuation) : Prop where
  old : k.generation ≤ c.generation
  unchosen : c.isLive k.generation = true → ∀ ids, c.suspension ≠ some (.choices ids)

variable {c c' : Coordinator σ}

theorem Fits.later {k : Continuation} (fits : c.Fits k) (later : c.Later c') : c'.Fits k := by
  refine ⟨Nat.le_trans fits.old later.generation, fun live => ?_⟩
  obtain ⟨hk, suspended⟩ := isLive_iff.mp live
  have hle := later.generation
  have hold := fits.old
  have same : c'.generation = c.generation := by omega
  have lasts := later.suspension same
  rw [lasts] at suspended ⊢
  exact fits.unchosen (isLive_iff.mpr ⟨by omega, suspended⟩)

/-- The handle that is given out with a suspension is a continuation only for a line or a
    command. -/
theorem fits_suspend (c : Coordinator σ) {w : Suspension} {k : Continuation} {n : Nat}
    (hk : Handle.continuation k = .ofSuspension w n) (hn : n = (c.suspend w).generation) :
    (c.suspend w).Fits k := by
  cases w with
  | choices ids => cases hk
  | line =>
    cases hk
    exact ⟨Nat.le_of_eq hn, fun _ => nofun⟩
  | command =>
    cases hk
    exact ⟨Nat.le_of_eq hn, fun _ => nofun⟩

theorem Held.ready {w : Suspension} (held : c.Held w)
    (unchosen : ∀ ids, c.suspension ≠ some (.choices ids)) : c.machine.Ready := by
  have holds := held.machine
  cases w with
  | line => exact holds
  | command => exact holds
  | choices ids => exact absurd held.suspension (unchosen ids)

theorem Rests.ready (rests : c.Rests) (running : c.phase = .running)
    (unchosen : ∀ ids, c.suspension ≠ some (.choices ids)) : c.machine.Ready := by
  rcases rests with ended | ⟨w, held⟩
  · exact absurd running ended.notRunning
  · exact held.ready unchosen

end Coordinator

/-! ## Moves of a fair host -/

/-- The machine does not wait for a choice while it is about to be asked, and no drive fails with a
    refusal. -/
def Mode.Clear : Mode σ → Coordinator σ → Prop
  | .starting, c => c.machine.state ≠ .awaitingChoice
  | .driving, c => c.machine.state ≠ .awaitingChoice
  | .passing, c => c.machine.state ≠ .awaitingChoice
  | .asking s, _ => s.coordinator.machine.state ≠ .awaitingChoice
  | .handing _, c => c.suspension = none → c.machine.state ≠ .awaitingChoice
  | .failing e, _ => ¬ e.IsRefusal
  | _, _ => True

def Moment.waits (m : Moment σ) : List Continuation :=
  m.due ++ m.session.coordinator.timers.entries.map (·.continuation)

/-- What holds of a moment after the handles that were given out. -/
structure Moment.Clear (m : Moment σ) (given : List Handle) : Prop where
  given : ∀ k, .continuation k ∈ given → m.session.coordinator.Fits k
  waits : ∀ k ∈ m.waits, m.session.coordinator.Fits k
  mode : m.mode.Clear m.session.coordinator

/-- The waits of a session end with its suspension. -/
theorem Moment.mem_waits_cleared {mode : Mode σ} {due : List Continuation} {s : Session σ}
    {k : Continuation} (none : s.coordinator.timers.entries = [])
    (hk : k ∈ Moment.waits ⟨mode, due, s⟩) : k ∈ due := by
  rw [Moment.waits, none] at hk
  rcases List.mem_append.mp hk with hk | hk
  · exact hk
  · cases hk

theorem Coordinator.useContinuation_entries {c c' : Coordinator σ} {k : Continuation}
    (resumed : c.useContinuation k = .resumed c') : c'.timers.entries = [] := by
  obtain ⟨_, _, rfl⟩ := useContinuation_resumed resumed
  exact invalidate_entries c

theorem Coordinator.pick_entries {c c' : Coordinator σ} {id : Nat}
    (picked : c.pick id = .resumed c') : c'.timers.entries = [] := by
  obtain ⟨_, _, _, _, rfl⟩ := pick_resumed picked
  exact invalidate_entries _

/-- Only a continuation that is used can be kept for later. -/
theorem Move.waits {m m' : Moment σ} {l : List (Happening σ)} (move : Move m l m') :
    ∀ k ∈ m'.waits, k ∈ m.waits ∨ l = [.used (.continuation k)] := by
  intro k hk
  cases move with
  | @wait mode due s e k' d c runs scheduled =>
    unfold Coordinator.schedule? Timers.schedule? at scheduled
    cases hd : s.coordinator.timers.now.add? d with
    | none =>
      rw [hd] at scheduled
      cases scheduled
    | some deadline =>
      rw [hd] at scheduled
      cases scheduled
      rcases List.mem_append.mp hk with hk | hk
      · exact .inl (List.mem_append_left _ hk)
      · obtain ⟨timer, ht, rfl⟩ := List.mem_map.mp hk
        rcases List.mem_append.mp ht with ht | ht
        · exact .inl (List.mem_append_right _ (List.mem_map_of_mem ht))
        · cases List.mem_singleton.mp ht
          exact .inr rfl
  | wake runs resumed =>
    have none := Coordinator.useContinuation_entries resumed
    exact .inl (List.mem_append_left _ (Moment.mem_waits_cleared none hk))
  | resume resumed =>
    have none := Coordinator.useContinuation_entries resumed
    exact .inl (List.mem_append_left _ (Moment.mem_waits_cleared none hk))
  | fire resumed =>
    have none := Coordinator.useContinuation_entries resumed
    have due := Moment.mem_waits_cleared none hk
    exact .inl (List.mem_append_left _ (List.mem_cons_of_mem _ due))
  | pick runs picked =>
    have none := Coordinator.pick_entries picked
    exact .inl (List.mem_append_left _ (Moment.mem_waits_cleared none hk))
  | choose picked =>
    have none := Coordinator.pick_entries picked
    exact .inl (List.mem_append_left _ (Moment.mem_waits_cleared none hk))
  | @goOn mode due s handed asleep =>
    have none := s.coordinator.invalidate_entries
    exact .inl (List.mem_append_left _ (Moment.mem_waits_cleared none hk))
  | @proceed due s running free =>
    have none := s.coordinator.invalidate_entries
    exact .inl (List.mem_append_left _ (Moment.mem_waits_cleared none hk))
  | complete | halt | enter | abort | stop =>
    exact .inl (List.mem_append_left _ (Moment.mem_waits_cleared rfl hk))
  | expire =>
    rcases List.mem_append.mp hk with hk | hk
    · exact .inl (List.mem_append_left _ (List.mem_cons_of_mem _ hk))
    · exact .inl (List.mem_append_right _ hk)
  | @advance s due delta timers advanced =>
    unfold Timers.advance? at advanced
    cases hd : s.coordinator.timers.now.add? delta with
    | none =>
      rw [hd] at advanced
      cases advanced
    | some now =>
      rw [hd] at advanced
      cases advanced
      -- what is due and what is left were both waiting before
      rcases List.mem_append.mp hk with hk | hk
      · obtain ⟨timer, ht, rfl⟩ := List.mem_map.mp hk
        have kept := (List.mem_filter.mp (Timers.mem_sortByDeadline.mp ht)).1
        exact .inl (List.mem_append_right _ (List.mem_map_of_mem kept))
      · obtain ⟨timer, ht, rfl⟩ := List.mem_map.mp hk
        have kept := (List.mem_filter.mp ht).1
        exact .inl (List.mem_append_right _ (List.mem_map_of_mem kept))
  | _ => exact .inl hk

theorem Machine.Ready.not_awaiting {m : Machine} (ready : m.Ready) :
    m.state ≠ .awaitingChoice := (Ready.moving ready).not_awaiting

theorem Coordinator.pick_not_awaiting {c c' : Coordinator σ} {id : Nat}
    (picked : c.pick id = .resumed c') : c'.machine.state ≠ .awaitingChoice := by
  obtain ⟨_, m, _, chosen, rfl⟩ := pick_resumed picked
  obtain ⟨_, _, _, rfl⟩ := Machine.choose_eq chosen
  exact nofun

/-- What a continuation resumes while no drive goes on is a line or a command. -/
theorem Coordinator.Rests.resumed_not_awaiting {c c' : Coordinator σ} {k : Continuation}
    (rests : c.Rests) (fits : c.Fits k) (resumed : c.useContinuation k = .resumed c') :
    c'.machine.state ≠ .awaitingChoice := by
  obtain ⟨live, running, rfl⟩ := useContinuation_resumed resumed
  exact (rests.ready running (fits.unchosen live)).not_awaiting

theorem Mode.Clear.alike {mode : Mode σ} {c c' : Coordinator σ} (clear : mode.Clear c)
    (alike : c.Alike c') : mode.Clear c' := by
  cases mode with
  | starting | driving | passing =>
    change c'.machine.state ≠ .awaitingChoice
    rw [alike.machine]
    exact clear
  | handing w =>
    intro free
    rw [alike.machine]
    exact clear (alike.suspension.symm.trans free)
  | asking s => exact clear
  | failing e => exact clear
  | resting | carrying | ending | settling => trivial

/-- A handle that is used during a hand-over, and resumes. -/
theorem Mode.Clear.released {mode : Mode σ} {c' : Coordinator σ}
    (runs : mode.Runs .handover) (clear : c'.machine.state ≠ .awaitingChoice) :
    mode.Clear { c' with woken := true } := by
  cases mode with
  | starting | passing => exact clear
  | handing w => exact fun _ => clear
  | ending => trivial
  | resting | driving | asking | carrying | settling | failing => cases runs

/-- A step of a machine that is clear to be asked is not refused. -/
theorem Machine.Underway.next_unrefused {m : Machine} (underway : m.Underway)
    (clear : m.state ≠ .awaitingChoice) : m.next.All fun r => Unrefused r.1 := by
  rcases underway with moving | ⟨cs, offers⟩
  · exact (next_delivers moving).imp fun r => Delivers.unrefused
  · exact absurd offers.state clear

theorem Move.clear_mode {m m' : Moment σ} {l : List (Happening σ)} {given : List Handle}
    (move : Move m l m') (sound : m.Sound) (clear : m.Clear given)
    (fair : ∀ h, l = [.used h] → h ∈ given) : m'.mode.Clear m'.session.coordinator := by
  have calm := clear.mode
  cases move with
  | wait runs scheduled => exact calm.alike (Coordinator.alike_schedule scheduled)
  -- handles
  | @wake mode due s k c runs resumed =>
    obtain ⟨live, running, rfl⟩ := Coordinator.useContinuation_resumed resumed
    have unchosen := (clear.given k (fair _ rfl)).unchosen live
    refine .released runs ?_
    cases mode with
    | handing w =>
      rcases sound with held | released
      · exact (held.ready unchosen).not_awaiting
      · exact clear.mode released.suspension
    | starting => exact clear.mode
    | passing => exact clear.mode
    | ending =>
      have ended : s.coordinator.Over := sound
      exact absurd running ended.notRunning
    | resting | driving | asking | carrying | settling | failing => cases runs
  | pick runs picked => exact .released runs (Coordinator.pick_not_awaiting picked)
  | @resume due s k c resumed =>
    have rests : s.coordinator.Rests := sound
    have ready := rests.resumed_not_awaiting (clear.given k (fair _ rfl)) resumed
    exact ready
  | @fire due s k c resumed =>
    have rests : s.coordinator.Rests := sound
    have fits := clear.waits k (List.mem_append_left _ List.mem_cons_self)
    have ready := rests.resumed_not_awaiting fits resumed
    exact ready
  | choose picked =>
    have running := Coordinator.pick_not_awaiting picked
    exact running
  -- turns of the drive
  | @answer due s s' r m store answered =>
    have flows : s.coordinator.Flows := sound
    have unrefused := ((flows.machine.next_unrefused calm).onStore s.coordinator.store).within
      answered
    cases r with
    | ok y => trivial
    | error e => exact unrefused e rfl
  | announce told => exact (sound.2.moving told).not_awaiting
  | hand given suspends => exact nofun
  | pass given => exact Machine.Ready.not_awaiting sound.2
  | skip blank => exact Machine.Ready.not_awaiting sound.2
  -- the end of a hand-over
  | @awaken mode due s handed woken =>
    rcases handed with rfl | ⟨w, rfl⟩
    · exact clear.mode
    · rcases sound with held | released
      · rw [held.asleep] at woken
        cases woken
      · exact clear.mode released.suspension
  | @goOn mode due s handed asleep =>
    rcases handed with rfl | rfl | rfl
    · exact clear.mode
    · rcases sound with held | released
      · exact Machine.Ready.not_awaiting held.machine
      · exact clear.mode released.suspension
    · rcases sound with held | released
      · exact Machine.Ready.not_awaiting held.machine
      · exact clear.mode released.suspension
  | fail handed => exact id
  -- operations
  | enter notRunning entered => exact (Machine.enter_moving entered).not_awaiting
  | @proceed due s running free =>
    have rests : s.coordinator.Rests := sound
    exact (rests.ready (Coordinator.isRunning_iff.mp running) free).not_awaiting
  | see | write | use | ask | begin => exact calm
  | _ => trivial

/-- A fair host keeps the machine clear to be asked. -/
theorem Move.clear {m m' : Moment σ} {l : List (Happening σ)} {given : List Handle}
    (move : Move m l m') (sound : m.Sound) (clear : m.Clear given)
    (fair : ∀ h, l = [.used h] → h ∈ given) : m'.Clear (given ++ handed l) where
  mode := move.clear_mode sound clear fair
  waits := by
    intro k hk
    rcases move.waits k hk with hk | rfl
    · exact (clear.waits k hk).later move.later
    · exact (clear.given k (fair _ rfl)).later move.later
  given := by
    intro k hk
    rcases List.mem_append.mp hk with hk | hk
    · exact (clear.given k hk).later move.later
    · cases move with
      | write x runs =>
        rw [handed_writes] at hk
        cases hk
      | @hand due s y w given suspends =>
        exact s.coordinator.fits_suspend (List.mem_singleton.mp hk) rfl
      | _ => cases hk

theorem Move.halted_unrefused {m m' : Moment σ} {e : EngineError} {given : List Handle}
    {l : List (Happening σ)} (move : Move m l m') (clear : m.Clear given)
    (halted : l = [.halted (some e)]) : ¬ e.IsRefusal := by
  cases move with
  | halt =>
    cases halted
    exact clear.mode
  | abort =>
    cases halted
    exact id
  | @write mode due s errand x runs => cases errand <;> cases halted
  | _ => cases halted

/-- As long as the host is fair, no drive ends with a refusal. -/
theorem Course.clear {m m' : Moment σ} {t : List (Happening σ)} (course : Course m t m')
    (sound : m.Sound) (clear : m.Clear []) (fair : Fair t) :
    m'.Clear (handed t) ∧ ∀ e, .halted (some e) ∈ t → ¬ e.IsRefusal := by
  induction course with
  | nil => exact ⟨clear, nofun⟩
  | @snoc t l n n' before move ih =>
    obtain ⟨clear', unrefused⟩ := ih fair.before
    constructor
    · rw [handed_append]
      refine move.clear (before.sound sound) clear' fun h hl => ?_
      rw [hl] at fair
      exact fair.used
    · intro e he
      rcases List.mem_append.mp he with he | he
      · exact unrefused e he
      · rcases move.label with rfl | ⟨a, rfl⟩
        · cases he
        · rw [← List.mem_singleton.mp he] at move
          exact move.halted_unrefused clear' rfl

end DialogueEngine
