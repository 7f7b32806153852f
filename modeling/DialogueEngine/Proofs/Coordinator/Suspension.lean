import DialogueEngine.Coordinator.Drive

/-! # Suspensions and handles

When a handle is live, what the use of one comes to, and what host code inside an operation leaves
as it is.

* `Coordinator.useContinuation_resumed`, `Coordinator.pick_resumed` — a use that resumes.
* `Coordinator.useContinuation_stale`, `Coordinator.useSelector_stale` — a use that does nothing.
* `Act.within_store` — a store that is asked changes nothing but timers.
* `Act.within_detached` — without a suspension host code runs as if there were no dialogue.
* `Act.within_keeps` — host code inside an operation changes nothing that belongs to the host but
  its state.
* `CommandTable.find?_of_resolve` — a handler comes out of the table.
* `Session.deliverCommand_blocking` — a command whose handler holds the dialogue.
-/

namespace DialogueEngine

variable {σ α : Type}

namespace Coordinator

variable {c c' : Coordinator σ}

/-! ## The end of a suspension -/

@[simp] theorem invalidate_generation (c : Coordinator σ) :
    c.invalidate.generation = c.generation + 1 := rfl

@[simp] theorem invalidate_suspension (c : Coordinator σ) : c.invalidate.suspension = none := rfl

@[simp] theorem invalidate_phase (c : Coordinator σ) : c.invalidate.phase = c.phase := rfl

/-- Waits do not outlast the suspension they belong to. -/
@[simp] theorem invalidate_entries (c : Coordinator σ) : c.invalidate.timers.entries = [] := by
  simp [invalidate, Timers.retain, isLive]

@[simp] theorem isRunning_iff : c.isRunning = true ↔ c.phase = .running := by
  simp [isRunning]

theorem isRunning_eq_false_iff : c.isRunning = false ↔ c.phase ≠ .running := by
  simp [isRunning]

/-! ## Live handles -/

theorem isLive_iff {n : Nat} :
    c.isLive n = true ↔ c.generation = n ∧ c.suspension.isSome = true := by
  simp [isLive]

/-- Without a suspension every handle is void. -/
theorem isLive_of_suspension_none (free : c.suspension = none) (n : Nat) : c.isLive n = false := by
  simp [isLive, free]

/-! ## Uses -/

theorem useContinuation_stale {k : Continuation} (stale : c.isLive k.generation = false) :
    c.useContinuation k = .ignored := by
  simp [useContinuation, stale]

theorem useSelector_stale {h : Selector} {id : Nat} (stale : c.isLive h.generation = false) :
    c.useSelector h id = .ignored := by
  simp [useSelector, stale]

theorem useContinuation_resumed {k : Continuation} (used : c.useContinuation k = .resumed c') :
    c.isLive k.generation = true ∧ c.phase = .running ∧ c' = c.invalidate := by
  unfold useContinuation at used
  split at used
  · rename_i h
    rw [Bool.and_eq_true, isRunning_iff] at h
    cases used
    exact ⟨h.1, h.2, rfl⟩
  · cases used

theorem pick_resumed {id : Nat} (picked : c.pick id = .resumed c') :
    ∃ ids m, c.suspension = some (.choices ids) ∧ c.machine.choose id = .ok m ∧
      c' = { c with machine := m }.invalidate := by
  unfold pick at picked
  split at picked
  · rename_i ids suspended
    split at picked
    · split at picked
      · rename_i m chosen
        cases picked
        exact ⟨ids, m, suspended, chosen, rfl⟩
      · cases picked
    · cases picked
  · cases picked

/-- A handle that resumes is one of options, and the choice resumes. -/
theorem useSelector_resumed {h : Selector} {id : Nat} (used : c.useSelector h id = .resumed c') :
    c.isLive h.generation = true ∧ c.pick id = .resumed c' := by
  unfold useSelector at used
  split at used
  · rename_i live
    exact ⟨live, used⟩
  · cases used

/-- What the dialogue goes on from after a use has no suspension. -/
theorem pick_resumed_suspension {id : Nat} (picked : c.pick id = .resumed c') :
    c'.suspension = none := by
  obtain ⟨_, _, _, _, rfl⟩ := pick_resumed picked
  rfl

/-- A wait changes nothing but the timers. -/
theorem schedule?_eq {d : Duration} {k : Continuation} (scheduled : c.schedule? d k = some c') :
    c' = { c with timers := c'.timers } := by
  unfold schedule? at scheduled
  cases hs : c.timers.schedule? d k with
  | none =>
    rw [hs] at scheduled
    cases scheduled
  | some t =>
    rw [hs] at scheduled
    cases scheduled
    rfl

end Coordinator

/-! ## Host code inside an operation -/

namespace Act

variable {s : Session σ} {place : Place} {limit : Nat} {k : Continuation} {d : Duration}
  {h : Selector} {id : Nat} {f : Except EngineError Unit → Act σ α}

theorem within_resume : (resume k f).within place s =
    s.wake place (s.coordinator.useContinuation k) >>= fun r => (f r.1).within place r.2 := by
  rw [within]
  cases s.wake place (s.coordinator.useContinuation k) <;> rfl

theorem within_resumeAfter : (resumeAfter k d f).within place s =
    s.delay k d (s.wake place) >>= fun r => (f r.1).within place r.2 := by
  rw [within]
  cases s.delay k d (s.wake place) <;> rfl

theorem within_select : (select h id f).within place s =
    s.wake place (s.coordinator.useSelector h id) >>= fun r => (f r.1).within place r.2 := by
  rw [within]
  cases s.wake place (s.coordinator.useSelector h id) <;> rfl

theorem between_resume : (resume k f).between limit s =
    s.follow limit (s.coordinator.useContinuation k) >>= fun r => (f r.1).between limit r.2 := by
  rw [between]
  cases s.follow limit (s.coordinator.useContinuation k) <;> rfl

theorem between_resumeAfter : (resumeAfter k d f).between limit s =
    s.delay k d (s.follow limit) >>= fun r => (f r.1).between limit r.2 := by
  rw [between]
  cases s.delay k d (s.follow limit) <;> rfl

theorem between_select : (select h id f).between limit s =
    s.follow limit (s.coordinator.useSelector h id) >>= fun r => (f r.1).between limit r.2 := by
  rw [between]
  cases s.follow limit (s.coordinator.useSelector h id) <;> rfl

/-- Host code that goes on with a result runs in two parts. -/
theorem within_bind {β : Type} {place : Place} (act : Act σ α) (f : α → Act σ β)
    (s : Session σ) : (act.bind f).within place s =
      act.within place s >>= fun r => (f r.1).within place r.2 := by
  induction act generalizing s with
  | done a => rfl
  | read k ih => exact ih s.host s
  | write x k ih => exact ih _
  | isStale k g ih => exact ih _ s
  | resume k g ih =>
    rw [bind, within_resume, within_resume, bind_assoc]
    exact congrArg _ (funext fun r => ih r.1 r.2)
  | resumeAfter k d g ih =>
    rw [bind, within_resumeAfter, within_resumeAfter, bind_assoc]
    exact congrArg _ (funext fun r => ih r.1 r.2)
  | select h id g ih =>
    rw [bind, within_select, within_select, bind_assoc]
    exact congrArg _ (funext fun r => ih r.1 r.2)

theorem between_bind {β : Type} (limit : Nat) (act : Act σ α) (f : α → Act σ β)
    (s : Session σ) : (act.bind f).between limit s =
      act.between limit s >>= fun r => (f r.1).between limit r.2 := by
  induction act generalizing s with
  | done a => rfl
  | read k ih => exact ih s.host s
  | write x k ih => exact ih _
  | isStale k g ih => exact ih _ s
  | resume k g ih =>
    rw [bind, between_resume, between_resume, bind_assoc]
    exact congrArg _ (funext fun r => ih r.1 r.2)
  | resumeAfter k d g ih =>
    rw [bind, between_resumeAfter, between_resumeAfter, bind_assoc]
    exact congrArg _ (funext fun r => ih r.1 r.2)
  | select h id g ih =>
    rw [bind, between_select, between_select, bind_assoc]
    exact congrArg _ (funext fun r => ih r.1 r.2)

end Act

namespace Session

/-- A store that uses a handle leaves the session as it is, or breaks the operation off. -/
theorem wake_store {s s' : Session σ} {use : Coordinator.Use σ} {r : Except EngineError Unit}
    (woke : s.wake .store use = .ok (r, s')) : s' = s := by
  cases use with
  | ignored =>
    cases woke
    rfl
  | refused e =>
    cases woke
    rfl
  | failed e => cases woke
  | resumed c => cases woke

end Session

/-- A store that is asked changes nothing of the coordinator but its timers. -/
theorem Act.within_store {act : Act σ α} {s s' : Session σ} {a : α}
    (ran : act.within .store s = .ok (a, s')) :
    s'.coordinator = { s.coordinator with timers := s'.coordinator.timers } := by
  induction act generalizing s with
  | done b =>
    cases ran
    rfl
  | read k ih => exact ih s.host ran
  | write x k ih => exact ih (s := { s with host := x }) ran
  | resume k f ih =>
    simp only [Act.within] at ran
    split at ran
    · cases ran
    · rename_i r s₁ woke
      rw [← Session.wake_store woke]
      exact ih r ran
  | resumeAfter k d f ih =>
    simp only [Act.within, Session.delay] at ran
    split at ran
    · cases ran
    · rename_i r s₁ woke
      split at woke
      · rw [← Session.wake_store woke]
        exact ih r ran
      · split at woke
        · rename_i c scheduled
          cases woke
          rw [ih _ ran]
          change ({ c with timers := _ } : Coordinator σ) = _
          rw [Coordinator.schedule?_eq scheduled]
        · cases woke
  | select h id f ih =>
    simp only [Act.within] at ran
    split at ran
    · cases ran
    · rename_i r s₁ woke
      rw [← Session.wake_store woke]
      exact ih r ran
  | isStale k f ih => exact ih _ ran

namespace Session

/-- A void handle that waits, or that is used at once, leaves the suspension as it is. -/
theorem delay_unsuspended {place : Place} {s s' : Session σ} {k : Continuation} {d : Duration}
    {r : Except EngineError Unit} (free : s.coordinator.suspension = none)
    (delayed : s.delay k d (s.wake place) = .ok (r, s')) :
    r = .ok () ∧ s'.host = s.host ∧ s'.coordinator.suspension = none := by
  have stale := Coordinator.isLive_of_suspension_none free k.generation
  unfold delay at delayed
  split at delayed
  · rw [Coordinator.useContinuation_stale stale] at delayed
    cases delayed
    exact ⟨rfl, rfl, free⟩
  · split at delayed
    · rename_i c scheduled
      cases delayed
      refine ⟨rfl, rfl, ?_⟩
      change c.suspension = none
      rw [Coordinator.schedule?_eq scheduled]
      exact free
    · cases delayed

end Session

/-- Without a suspension host code runs as it would without any dialogue. -/
theorem Act.within_detached {act : Act σ α} {place : Place} {s s' : Session σ} {a : α}
    (free : s.coordinator.suspension = none) (ran : act.within place s = .ok (a, s')) :
    act.detached s.host = (a, s'.host) := by
  have stale {s : Session σ} (free : s.coordinator.suspension = none) (n : Nat) :=
    Coordinator.isLive_of_suspension_none free n
  induction act generalizing s with
  | done b =>
    cases ran
    rfl
  | read k ih => exact ih s.host free ran
  | write x k ih => exact ih (s := { s with host := x }) free ran
  | resume k f ih =>
    rw [Act.within, Coordinator.useContinuation_stale (stale free _)] at ran
    exact ih _ free ran
  | resumeAfter k d f ih =>
    simp only [Act.within] at ran
    split at ran
    · cases ran
    · rename_i r s₁ delayed
      obtain ⟨rfl, host, free⟩ := Session.delay_unsuspended free delayed
      rw [Act.detached, ← host]
      exact ih _ free ran
  | select h id f ih =>
    rw [Act.within, Coordinator.useSelector_stale (stale free _)] at ran
    exact ih _ free ran
  | isStale k f ih =>
    rw [Act.within, stale free k.generation] at ran
    exact ih _ free ran

/-! ## What belongs to the host -/

namespace Coordinator

/-- The parts that belong to the host are the same, and the host has been told nothing. -/
structure Keeps (c c' : Coordinator σ) : Prop where
  presenter : c'.presenter = c.presenter
  store : c'.store = c.store
  commands : c'.commands = c.commands
  events : c'.events = c.events

variable {c c' c'' : Coordinator σ}

theorem Keeps.refl (c : Coordinator σ) : c.Keeps c := ⟨rfl, rfl, rfl, rfl⟩

theorem Keeps.trans (h : c.Keeps c') (h' : c'.Keeps c'') : c.Keeps c'' :=
  ⟨h'.presenter.trans h.presenter, h'.store.trans h.store, h'.commands.trans h.commands,
    h'.events.trans h.events⟩

theorem useContinuation_keeps {k : Continuation} (used : c.useContinuation k = .resumed c') :
    c.Keeps c' := by
  obtain ⟨_, _, rfl⟩ := useContinuation_resumed used
  exact ⟨rfl, rfl, rfl, rfl⟩

theorem pick_keeps {id : Nat} (picked : c.pick id = .resumed c') : c.Keeps c' := by
  obtain ⟨_, _, _, _, rfl⟩ := pick_resumed picked
  exact ⟨rfl, rfl, rfl, rfl⟩

theorem useSelector_keeps {h : Selector} {id : Nat} (used : c.useSelector h id = .resumed c') :
    c.Keeps c' :=
  pick_keeps (useSelector_resumed used).2

theorem schedule?_keeps {d : Duration} {k : Continuation}
    (scheduled : c.schedule? d k = some c') : c.Keeps c' := by
  rw [schedule?_eq scheduled]
  exact ⟨rfl, rfl, rfl, rfl⟩

end Coordinator

namespace Session

theorem wake_keeps {place : Place} {s s' : Session σ} {use : Coordinator.Use σ}
    {r : Except EngineError Unit} (keeps : ∀ c, use = .resumed c → s.coordinator.Keeps c)
    (woke : s.wake place use = .ok (r, s')) :
    s.coordinator.Keeps s'.coordinator ∧ s'.host = s.host := by
  cases use with
  | ignored =>
    cases woke
    exact ⟨.refl _, rfl⟩
  | refused e =>
    cases woke
    exact ⟨.refl _, rfl⟩
  | failed e =>
    cases place with
    | handover =>
      cases woke
      exact ⟨.refl _, rfl⟩
    | store => cases woke
  | resumed c =>
    cases place with
    | handover =>
      cases woke
      have kept := keeps c rfl
      exact ⟨⟨kept.presenter, kept.store, kept.commands, kept.events⟩, rfl⟩
    | store => cases woke

theorem delay_keeps {place : Place} {s s' : Session σ} {k : Continuation} {d : Duration}
    {r : Except EngineError Unit} (delayed : s.delay k d (s.wake place) = .ok (r, s')) :
    s.coordinator.Keeps s'.coordinator ∧ s'.host = s.host := by
  unfold delay at delayed
  split at delayed
  · exact wake_keeps (fun _ => Coordinator.useContinuation_keeps) delayed
  · split at delayed
    · rename_i scheduled
      cases delayed
      exact ⟨Coordinator.schedule?_keeps scheduled, rfl⟩
    · cases delayed

end Session

namespace Act

/-- Inside an operation host code keeps the parts that belong to the host, but for its state. -/
theorem within_keeps {act : Act σ α} {place : Place} {s s' : Session σ} {a : α}
    (ran : act.within place s = .ok (a, s')) : s.coordinator.Keeps s'.coordinator := by
  induction act generalizing s with
  | done b =>
    cases ran
    exact .refl _
  | read k ih => exact ih s.host ran
  | write x k ih => exact ih (s := { s with host := x }) ran
  | resume h k ih =>
    simp only [within] at ran
    split at ran
    · cases ran
    · rename_i woke
      exact (Session.wake_keeps (fun _ => Coordinator.useContinuation_keeps) woke).1.trans
        (ih _ ran)
  | resumeAfter h d k ih =>
    simp only [within] at ran
    split at ran
    · cases ran
    · rename_i delayed
      exact (Session.delay_keeps delayed).1.trans (ih _ ran)
  | select h id k ih =>
    simp only [within] at ran
    split at ran
    · cases ran
    · rename_i woke
      exact (Session.wake_keeps (fun _ => Coordinator.useSelector_keeps) woke).1.trans (ih _ ran)
  | isStale h k ih => exact ih _ ran

end Act

namespace CommandTable

variable {t : CommandTable σ} {name : String} {h h' : Handler σ}

/-- What a command is resolved to is in the table. -/
theorem find?_of_resolve {words : List String} {r : Resolved σ}
    (resolved : t.resolve words = some r) : ∃ name, t.find? name = some r.handler := by
  unfold resolve at resolved
  split at resolved
  · cases resolved
  · split at resolved
    · rename_i h found
      cases resolved
      exact ⟨_, found⟩
    · split at resolved
      · obtain ⟨h, found, rfl⟩ := Option.map_eq_some_iff.mp resolved
        exact ⟨_, found⟩
      · cases resolved

theorem isEmpty_of_resolve {words : List String} {r : Resolved σ}
    (resolved : t.resolve words = some r) : words.isEmpty = false := by
  cases words with
  | nil => cases resolved
  | cons word words => rfl

theorem find?_of_insert {other : String}
    (found : (t.insert name h).2.find? other = some h') : h' = h ∨ t.find? other = some h' := by
  unfold insert at found
  split at found
  · exact .inr found
  · have lookup := t.handlers.find?_insert name other h
    change (t.handlers.insert name h).find? other = some h' at found
    rw [lookup] at found
    split at found
    · exact .inl (Option.some.inj found).symm
    · exact .inr found

theorem find?_of_remove {other : String}
    (found : (t.remove name).2.find? other = some h) : t.find? other = some h := by
  unfold remove at found
  split at found
  · have lookup := t.handlers.find?_erase name other
    change (t.handlers.erase name).find? other = some h at found
    rw [lookup] at found
    split at found
    · cases found
    · exact found
  · exact found

end CommandTable

/-- A command whose handler holds the dialogue. -/
theorem Session.deliverCommand_blocking {s : Session σ} {cmd : Command} {name : String}
    {run : BlockingHandler σ} {args : List String}
    (resolved : s.coordinator.commands.resolve cmd.tokens = some ⟨name, .blocking run, args⟩) :
    s.deliverCommand cmd =
      (run args ⟨s.coordinator.generation + 1⟩).within .handover
        (s.withCoordinator (s.coordinator.suspend .command)) >>= fun r =>
          .ok (r.2.afterHandover .pause) := by
  rw [deliverCommand, CommandTable.isEmpty_of_resolve resolved, resolved]
  rfl

end DialogueEngine
