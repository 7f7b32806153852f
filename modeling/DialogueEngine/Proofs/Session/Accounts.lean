import DialogueEngine.Proofs.Session.Journal

/-! # What the host sees of a session

The record of a session tells what is handed over. What the host sees of it are the events that it
takes out of the session and the calls that its presenter gets. Both follow the record: the events
always, and the calls as far as the presenter writes a journal of them.

* `Session.Follows`, `Recorded.Tells` — events and journal follow the record.
* `Recorded.Tells.perform` — operations, one lemma for each function.
* `Session.performAll_accounts` — everything that a host does.
-/

namespace DialogueEngine

variable {σ α β : Type}

/-! ## What follows the record -/

/-- Events and journal follow the record from one session to another, the journal if what the host
    does in between stays apart from it. -/
structure Session.Follows (log : σ → List PresenterCall) (apart : Prop) (s : Session σ)
    (t : List (Happening σ)) (s' : Session σ) : Prop where
  events : s'.coordinator.events = s.coordinator.events ++ told t
  journals : apart → s.Journals log → s'.Journals log
  calls : apart → s.Journals log → ∃ calls, Hears t calls ∧ log s'.host = log s.host ++ calls

/-- A result comes with a session that follows the record. -/
def Recorded.Tells (log : σ → List PresenterCall) (apart : Prop) (s : Session σ)
    (x : Recorded σ (α × Session σ)) : Prop :=
  ∀ r, x.outcome = .ok r → s.Follows log apart x.happenings r.2

variable {log : σ → List PresenterCall} {apart apart' : Prop}

namespace Session.Follows

variable {s s' s'' : Session σ} {t t' : List (Happening σ)}

theorem trans (h : s.Follows log apart t s') (h' : s'.Follows log apart t' s'') :
    s.Follows log apart (t ++ t') s'' where
  events := by rw [h'.events, h.events, told_append, List.append_assoc]
  journals given journals := h'.journals given (h.journals given journals)
  calls given journals := by
    obtain ⟨calls, hears, written⟩ := h.calls given journals
    obtain ⟨more, hears', written'⟩ := h'.calls given (h.journals given journals)
    exact ⟨calls ++ more, hears.append hears', by rw [written', written, List.append_assoc]⟩

/-- Nothing happens that the host is told of. -/
theorem silently (silence : Silence t) (keeps : s.coordinator.Keeps s'.coordinator)
    (same : apart → s.Journals log → log s'.host = log s.host) : s.Follows log apart t s' where
  events := by rw [keeps.events, silence.told, List.append_nil]
  journals _ journals := journals.kept keeps
  calls given journals := ⟨[], silence.hears, by rw [same given journals, List.append_nil]⟩

theorem kept (silence : Silence t) (keeps : s.coordinator.Keeps s'.coordinator)
    (same : s'.host = s.host) : s.Follows log apart t s' :=
  silently silence keeps fun _ _ => congrArg log same

/-- The machine and the store have changed in answer to a question. -/
theorem answered {m : Machine} {store : Store σ} (silence : Silence t)
    (kept : s.Journals log → store.Apart log) :
    s.Follows log apart t
      (s.withCoordinator { s.coordinator with machine := m, store := store }) where
  events := by rw [silence.told, List.append_nil]; rfl
  journals _ journals := ⟨journals.presenter, kept journals, journals.commands⟩
  calls _ _ := ⟨[], silence.hears, (List.append_nil _).symm⟩

theorem weaken (h : s.Follows log apart t s') (given : apart' → apart) :
    s.Follows log apart' t s' :=
  ⟨h.events, fun more => h.journals (given more), fun more => h.calls (given more)⟩

/-- What the first session is like may be used as well. -/
theorem from_start (h : s.Follows log (apart ∧ s.Journals log) t s') :
    s.Follows log apart t s' where
  events := h.events
  journals given journals := h.journals ⟨given, journals⟩ journals
  calls given journals := h.calls ⟨given, journals⟩ journals

/-- The host changes its commands. -/
theorem furnished {commands : CommandTable σ} {lent : Bool}
    (kept : apart → s.Journals log → commands.Apart log) :
    s.Follows log apart []
      (s.withCoordinator { s.coordinator with commands := commands, lent := lent }) where
  events := (List.append_nil _).symm
  journals given journals := ⟨journals.presenter, journals.store, kept given journals⟩
  calls _ _ := ⟨[], .nil, (List.append_nil _).symm⟩

end Session.Follows

namespace Recorded.Tells

variable {s n : Session σ}

theorem of_follows {t : List (Happening σ)} {x : Except Fault (α × Session σ)}
    (h : ∀ r, x = .ok r → s.Follows log apart t r.2) : Tells log apart s ⟨t, x⟩ := h

theorem pure {a : α} (h : s.Follows log apart [] n) :
    Tells log apart s (Pure.pure (a, n) : Recorded σ (α × Session σ)) :=
  fun _ e => by cases e; exact h

theorem fault {t : List (Happening σ)} {f : Fault} :
    Tells log apart s (⟨t, .error f⟩ : Recorded σ (α × Session σ)) :=
  fun _ ran => by cases ran

theorem bind {x : Recorded σ (α × Session σ)} {f : α × Session σ → Recorded σ (β × Session σ)}
    (hx : Tells log apart s x)
    (hf : ∀ r, x.outcome = .ok r → Tells log apart r.2 (f r)) : Tells log apart s (x >>= f) := by
  intro r' ran
  rw [outcome_bind] at ran
  cases h : x.outcome with
  | error e =>
    rw [h] at ran
    cases ran
  | ok r =>
    rw [h] at ran
    rw [happenings_bind h]
    exact (hx r h).trans (hf r h r' ran)

/-- Something is written down, and the session moves on with it. -/
theorem noted {l : List (Happening σ)} {x : Recorded σ (α × Session σ)}
    (h : s.Follows log apart l n) (hx : Tells log apart n x) :
    Tells log apart s (Recorded.note l >>= fun _ => x) :=
  fun r ran => h.trans (hx r ran)

/-- Something is written down, and what comes next follows the record together with it. -/
theorem called {l : List (Happening σ)} {x : Recorded σ (α × Session σ)}
    {f : α × Session σ → Recorded σ (β × Session σ)}
    (hx : Tells log apart s (Recorded.note l >>= fun _ => x))
    (hf : ∀ r, x.outcome = .ok r → Tells log apart r.2 (f r)) :
    Tells log apart s (Recorded.note l >>= fun _ => x >>= f) := by
  rw [← bind_assoc]
  exact hx.bind hf

theorem after {x : Recorded σ (α × Session σ)} (hx : Tells log apart n x)
    (keeps : s.coordinator.Keeps n.coordinator) (same : n.host = s.host) : Tells log apart s x :=
  fun r ran => (Session.Follows.kept .nil keeps same).trans (hx r ran)

theorem weaken {x : Recorded σ (α × Session σ)} (hx : Tells log apart s x)
    (given : apart' → apart) : Tells log apart' s x :=
  fun r ran => (hx r ran).weaken given

/-- Host code inside an operation that writes the calls of what happens at the same time. -/
theorem calling {e : Errand} {act : Act σ α} {t : List (Happening σ)}
    (events : n.coordinator.events = s.coordinator.events ++ told t)
    (journals : s.Journals log → n.Journals log)
    (writes : s.Journals log → ∃ calls, Hears t calls ∧
      act.Writes log (log n.host) (log s.host ++ calls)) :
    Tells log apart s (Recorded.note t >>= fun _ => Recorded.within e act n) := by
  intro r ran
  have silence : Silence (Recorded.within e act n).happenings := Quiet.within e act n
  have ran : act.within e.place n = .ok r := by
    rw [← outcome_within]
    exact ran
  have keeps := Act.within_keeps ran
  refine ⟨?_, fun _ before => (journals before).kept keeps, fun _ before => ?_⟩
  · change _ = _ ++ told (t ++ (Recorded.within e act n).happenings)
    rw [told_append, silence.told, List.append_nil, keeps.events, events]
  · obtain ⟨calls, hears, written⟩ := writes before
    have hears := hears.append silence.hears
    rw [List.append_nil] at hears
    exact ⟨calls, hears, written.within ran⟩

/-- Host code inside an operation that stays apart from the journal. -/
theorem within {e : Errand} {act : Act σ α} (silent : s.Journals log → act.Apart log) :
    Tells log apart s (Recorded.within e act s) := by
  have called : Tells log apart s
      (Recorded.note [] >>= fun _ => Recorded.within e act s) := by
    refine calling ?_ id fun journals => ⟨[], .nil, ?_⟩
    · rw [Silence.nil.told, List.append_nil]
    · rw [List.append_nil]
      exact silent journals _
  exact called

/-! ## The drive -/

theorem nextYield (s : Session σ) : Tells log apart s (Recorded.nextYield s) := by
  refine (within fun journals => Access.onStore_apart _ journals.store).bind fun r answered => ?_
  obtain ⟨⟨⟨y, m⟩, store⟩, s'⟩ := r
  rw [outcome_within] at answered
  have silence : Silence [(.stepped y : Happening σ)] := .one ⟨id, rfl⟩
  refine noted (.answered silence fun journals => ?_) (pure (.kept .nil (.refl _) rfl))
  have before : s.coordinator.store.Apart log := (Act.within_keeps answered).store ▸ journals.store
  exact (Access.onStore_all _ before).within answered

theorem handOver {y : Yield} {w : Suspension} {call : Nat → Act σ α} (s : Session σ)
    (untold : y.told? = none)
    (writes : s.Journals log → ∃ calls,
      Hears [(.delivered y (some (.ofSuspension w (s.coordinator.suspend w).generation)) :
        Happening σ)] calls ∧
      (call (s.coordinator.suspend w).generation).Writes log (log s.host) (log s.host ++ calls)) :
    Tells log apart s (Recorded.handOver s y w call) := by
  refine calling ?_ (fun journals => ⟨journals.presenter, journals.store, journals.commands⟩) writes
  have none : told [(.delivered y (some (.ofSuspension w (s.coordinator.suspend w).generation)) :
      Happening σ)] = [] := by
    simp only [told, deliveries, tellings, List.filterMap, Happening.yield?, untold]
  rw [none, List.append_nil]
  rfl

theorem afterHandover (pace : Pace) (s : Session σ) :
    Tells log apart s (Pure.pure (s.afterHandover pace)) := by
  unfold Session.afterHandover
  dsimp only
  split
  · exact pure (.kept .nil ⟨rfl, rfl, rfl, rfl⟩ rfl)
  · cases pace with
    | proceed => exact pure (.kept .nil ⟨rfl, rfl, rfl, rfl⟩ rfl)
    | pause => exact pure (.kept .nil (.refl _) rfl)

theorem handedOver (r : Except CapabilityError Pace) (s : Session σ) :
    Tells log apart s (Pure.pure (s.handedOver r)) := by
  cases r with
  | error e => exact pure (.kept .nil (.refl _) rfl)
  | ok pace => exact afterHandover pace s

theorem deliverCommand (s : Session σ) (cmd : Command) :
    Tells log apart s (Recorded.deliverCommand s cmd) := by
  unfold Recorded.deliverCommand
  split
  · exact afterHandover .proceed s
  · cases resolved : s.coordinator.commands.resolve cmd.tokens with
    | none =>
      dsimp only
      split
      · exact fault
      · refine (handOver s rfl fun journals => ?_).bind fun r _ => handedOver r.1 r.2
        exact ⟨_, .one (.command cmd _), journals.presenter.command cmd _ _⟩
    | some r =>
      have handled (journals : s.Journals log) : r.handler.Apart log :=
        CommandTable.resolve_apart journals.commands resolved
      obtain ⟨name, handler, args⟩ := r
      cases handler with
      | immediate run =>
        refine (calling ?_ id fun journals => ⟨[], .one (.handled cmd _), ?_⟩).called fun r _ =>
          afterHandover .proceed r.2
        · exact (List.append_nil _).symm
        · rw [List.append_nil]
          exact handled journals args _
      | blocking run =>
        refine (handOver s rfl fun journals => ⟨[], .one (.handled cmd _), ?_⟩).bind fun r _ =>
          afterHandover .pause r.2
        rw [List.append_nil]
        exact handled journals args _ _

theorem deliverEnd (s : Session σ) : Tells log apart s (Recorded.deliverEnd s) := by
  have completes : Tells log apart s (Recorded.note [.delivered .dialogueComplete none] >>= fun _ =>
      Recorded.within .handover s.coordinator.presenter.completed
        (s.withCoordinator s.coordinator.complete)) :=
    calling rfl (fun journals => ⟨journals.presenter, journals.store, journals.commands⟩)
      fun journals => ⟨_, .one (.completed none), journals.presenter.completed _⟩
  refine completes.called fun r _ => ?_
  obtain ⟨e | ⟨⟩, s'⟩ := r
  · exact pure (.kept .nil (.refl _) rfl)
  · exact pure (.kept .nil (.refl _) rfl)

/-- What the host is told of a node without a call of the presenter. -/
theorem announced (s : Session σ) {y : Yield} {event : LifecycleEvent}
    (tells : y.told? = some event) (heard : (.delivered y none : Happening σ).Heard []) :
    s.Follows log apart [.delivered y none] (s.withCoordinator (s.coordinator.emit event)) where
  events := by
    simp only [told, deliveries, tellings, List.filterMap, Happening.yield?, tells]
    rfl
  journals _ journals := ⟨journals.presenter, journals.store, journals.commands⟩
  calls _ _ := ⟨[], .one heard, (List.append_nil _).symm⟩

theorem deliver (s : Session σ) (y : Yield) : Tells log apart s (Recorded.deliver s y) := by
  cases y with
  | line l =>
    refine (handOver s rfl fun journals => ?_).bind fun r _ => handedOver r.1 r.2
    exact ⟨_, .one (.line l _), journals.presenter.line l _ _ _⟩
  | choices cs =>
    refine (handOver s rfl fun journals => ?_).bind fun r _ => handedOver _ r.2
    exact ⟨_, .one (.choices cs _), journals.presenter.choices cs _ _ _⟩
  | command cmd => exact deliverCommand s cmd
  | nodeStart node =>
    exact noted (announced s rfl (.nodeStart node none)) (pure (.kept .nil (.refl _) rfl))
  | nodeComplete node =>
    exact noted (announced s rfl (.nodeComplete node none)) (pure (.kept .nil (.refl _) rfl))
  | dialogueComplete => exact deliverEnd s

theorem turn (s : Session σ) : Tells log apart s (Recorded.turn s) := by
  unfold Recorded.turn
  split
  · refine (nextYield s).bind fun r _ => ?_
    obtain ⟨e | y, s'⟩ := r
    · exact pure (.kept .nil (.refl _) rfl)
    · exact deliver s' y
  · exact pure (.kept .nil (.refl _) rfl)

theorem halted (s : Session σ) (e : Option EngineError) :
    s.Follows log apart [.halted e] s.halt :=
  .kept (.one ⟨id, rfl⟩) ⟨rfl, rfl, rfl, rfl⟩ rfl

theorem run (limit : Nat) (s : Session σ) : Tells log apart s (Recorded.run limit s) := by
  induction limit generalizing s with
  | zero => exact fault
  | succ limit ih =>
    refine (turn s).bind fun r _ => ?_
    obtain ⟨_ | _ | e, s'⟩ := r
    · exact ih s'
    · exact pure (.kept .nil ⟨rfl, rfl, rfl, rfl⟩ rfl)
    · refine noted (n := s'.settle.halt) ?_ (pure (.kept .nil (.refl _) rfl))
      exact .kept (.cons ⟨id, rfl⟩ .nil) ⟨rfl, rfl, rfl, rfl⟩ rfl

/-! ## Host code between operations -/

theorem follow {limit : Nat} {s : Session σ} {used more : List (Happening σ)}
    {use : Coordinator.Use σ} (silence : Silence used) (silence' : Silence more)
    (keeps : ∀ c, use = .resumed c → s.coordinator.Keeps c) :
    Tells log apart s (Recorded.follow limit s used more use) := by
  have ignored {r : Except EngineError Unit} :
      Tells log apart s ⟨used, .ok (r, s)⟩ :=
    of_follows fun _ e => by cases e; exact .kept silence (.refl _) rfl
  cases use with
  | ignored => exact ignored
  | refused e => exact ignored
  | failed e => exact ignored
  | resumed c =>
    refine noted (n := (s.withCoordinator c).settle) ?_ (run limit _)
    have kept := keeps c rfl
    exact .kept (silence.append silence')
      ⟨kept.presenter, kept.store, kept.commands, kept.events⟩ rfl

theorem delay {s : Session σ} {k : Continuation} {d : Duration}
    {use : Coordinator.Use σ → Recorded σ (Answer σ Unit)}
    (atOnce : Tells log apart s (use (s.coordinator.useContinuation k))) :
    Tells log apart s (Recorded.delay s k d use) := by
  unfold Recorded.delay
  split
  · exact atOnce
  · split
    · rename_i c scheduled
      exact of_follows fun _ e => by
        cases e
        exact .kept (.used _) (Coordinator.schedule?_keeps scheduled) rfl
    · exact fault

theorem between (limit : Nat) (act : Act σ α) (s : Session σ) :
    Tells log (act.Keeps log (log s.host)) s (Recorded.between limit act s) := by
  have seen {apart : Prop} (s : Session σ) : s.Follows log apart [.moment s] s :=
    .kept (.moment s) (.refl _) rfl
  have resumes {apart : Prop} (s : Session σ) (k : Continuation) : Tells log apart s
      (Recorded.follow limit s [.used (.continuation k)] [] (s.coordinator.useContinuation k)) :=
    follow (.used _) .nil fun _ => Coordinator.useContinuation_keeps
  induction act generalizing s with
  | done a => exact noted (seen s) (pure (.kept .nil (.refl _) rfl))
  | read k ih =>
    exact noted (seen s) ((ih s.host s).weaken fun apart => apart s.host rfl)
  | write x k ih =>
    refine noted (n := { s with host := x }) (.silently ?_ (.refl _) fun apart _ => apart.1) ?_
    · exact .append (.moment s) (.wrote x)
    · exact (ih _).weaken fun apart => apart.1 ▸ apart.2
  | resume h k ih =>
    exact noted (seen s) ((resumes s h).bind fun r _ =>
      (ih r.1 r.2).weaken fun apart => apart r.1 _)
  | resumeAfter h d k ih =>
    exact noted (seen s) ((delay (resumes s h)).bind fun r _ =>
      (ih r.1 r.2).weaken fun apart => apart r.1 _)
  | select h id k ih =>
    exact noted (seen s) ((follow (.used _) (.picked id) fun _ =>
      Coordinator.useSelector_keeps).bind fun r _ =>
        (ih r.1 r.2).weaken fun apart => apart r.1 _)
  | isStale h k ih => exact noted (seen s) ((ih _ s).weaken fun apart => apart _)

/-! ## Operations -/

theorem readVariable (s : Session σ) (name : String) :
    Tells log apart s (Recorded.readVariable s name) :=
  (within fun journals => Store.get_apart journals.store name).bind fun _ _ =>
    pure (.kept .nil (.refl _) rfl)

theorem changeStore (s : Session σ) (change : Change) :
    Tells log apart s (Recorded.changeStore s change) := by
  refine (within fun journals => change.act_apart journals.store).bind fun r ran => ?_
  obtain ⟨⟨r, store⟩, s'⟩ := r
  rw [outcome_within] at ran
  have changed : store = change.onStore s.coordinator.store :=
    (change.act_all s.coordinator.store).within ran
  have silence : Silence [(.changed change : Happening σ)] := .one ⟨id, rfl⟩
  refine noted (.answered silence fun journals => ?_) (pure (.kept .nil (.refl _) rfl))
  -- the store that the host code was started with is the one that is changed
  have before : s.coordinator.store.Apart log := (Act.within_keeps ran).store ▸ journals.store
  rw [changed]
  exact change.onStore_apart before

/-- An operation that touches nothing that belongs to the host. -/
theorem at_once {t : List (Happening σ)} {x : Except Fault (Answer σ Unit)} (silence : Silence t)
    (kept : ∀ r, x = .ok r → s.coordinator.Keeps r.2.coordinator ∧ r.2.host = s.host) :
    Tells log apart s ⟨t, x⟩ :=
  of_follows fun r ran => .kept silence (kept r ran).1 (kept r ran).2

theorem refuse {s : Session σ} {e : RuntimeError} :
    Tells log apart s (Recorded.quiet (s.refuse (α := α) e)) :=
  of_follows fun _ ran => by cases ran; exact .kept .nil (.refl _) rfl

theorem load (s : Session σ) (programs : List Program) :
    Tells log apart s (Recorded.load s programs) := by
  unfold Recorded.load Session.load
  split
  · exact refuse
  · cases Program.combine programs with
    | error e => exact at_once .nil fun _ ran => by cases ran; exact ⟨.refl _, rfl⟩
    | ok p =>
      refine at_once (.one ⟨id, rfl⟩) fun _ ran => ?_
      cases ran
      exact ⟨⟨rfl, rfl, rfl, rfl⟩, rfl⟩

theorem add (s : Session σ) (p : Program) : Tells log apart s (Recorded.add s p) := by
  unfold Recorded.add Session.add
  cases s.coordinator.machine.add p with
  | error e => exact at_once .nil fun _ ran => by cases ran; exact ⟨.refl _, rfl⟩
  | ok m =>
    refine at_once (.one ⟨id, rfl⟩) fun _ ran => ?_
    cases ran
    exact ⟨⟨rfl, rfl, rfl, rfl⟩, rfl⟩

theorem clear (s : Session σ) : Tells log apart s (Recorded.clear s) := by
  unfold Recorded.clear Session.clear
  split
  · exact refuse
  · refine at_once (.one ⟨id, rfl⟩) fun _ ran => ?_
    cases ran
    exact ⟨⟨rfl, rfl, rfl, rfl⟩, rfl⟩

theorem startAt (limit : Nat) (s : Session σ) (node : String) :
    Tells log apart s (Recorded.startAt limit s node) := by
  unfold Recorded.startAt
  split
  · exact refuse
  · cases s.coordinator.machine.enter node with
    | error e => exact refuse
    | ok m =>
      have starts : Tells log apart s (Recorded.note [.entered node] >>= fun _ =>
          Recorded.within .handover (s.coordinator.presenter.started node)
            (s.withCoordinator (s.coordinator.begin m))) :=
        calling (List.append_nil _).symm
          (fun journals => ⟨journals.presenter, journals.store, journals.commands⟩)
          fun journals => ⟨_, .one (.started node), journals.presenter.started node _⟩
      refine starts.called fun r _ => ?_
      obtain ⟨e | ⟨⟩, s'⟩ := r
      · exact noted (halted s' _) (pure (.kept .nil (.refl _) rfl))
      · exact (run limit s'.settle).after ⟨rfl, rfl, rfl, rfl⟩ rfl

theorem proceed (limit : Nat) (s : Session σ) :
    Tells log apart s (Recorded.proceed limit s) := by
  unfold Recorded.proceed
  split
  · split
    · exact refuse
    · exact (run limit _).after ⟨rfl, rfl, rfl, rfl⟩ rfl
  · exact refuse

theorem choose (limit : Nat) (s : Session σ) (id : Nat) :
    Tells log apart s (Recorded.choose limit s id) := by
  unfold Recorded.choose
  split
  · exact follow .nil (.picked id) fun _ => Coordinator.pick_keeps
  · exact refuse

theorem stop (s : Session σ) : Tells log apart s (Recorded.stop s) :=
  of_follows fun _ ran => by cases ran; exact halted s none

theorem reset (limit : Nat) (s : Session σ) : Tells log apart s (Recorded.reset limit s) := by
  refine (stop s).bind fun r _ => (changeStore r.2 .reset).bind fun r _ => ?_
  obtain ⟨e | ⟨⟩, s'⟩ := r
  · exact pure (.kept .nil (.refl _) rfl)
  · exact startAt limit s' _

theorem loadSome (s : Session σ) (programs : List Program) :
    Tells log apart s (Recorded.loadSome s programs) := by
  unfold Recorded.loadSome
  split
  · exact pure (.kept .nil (.refl _) rfl)
  · exact load s programs

theorem startIfSet (limit : Nat) (s : Session σ) :
    Tells log apart s (Recorded.startIfSet limit s) := by
  unfold Recorded.startIfSet
  split
  · exact startAt limit s _
  · exact pure (.kept .nil (.refl _) rfl)

theorem prepare (limit : Nat) (s : Session σ) (programs : List Program) :
    Tells log apart s (Recorded.prepare limit s programs) := by
  refine (changeStore s .reset).bind fun r _ => ?_
  obtain ⟨e | ⟨⟩, s'⟩ := r
  · exact pure (.kept .nil (.refl _) rfl)
  · refine (loadSome s' programs).bind fun r _ => ?_
    obtain ⟨e | ⟨⟩, s''⟩ := r
    · exact pure (.kept .nil (.refl _) rfl)
    · exact startIfSet limit s''

theorem resumeAll (limit : Nat) (s : Session σ) (due : List Continuation) :
    Tells log apart s (Recorded.resumeAll limit s due) := by
  induction due generalizing s with
  | nil => exact pure (.kept .nil (.refl _) rfl)
  | cons k due ih =>
    refine (follow .nil .nil fun _ => Coordinator.useContinuation_keeps).bind fun r _ => ?_
    obtain ⟨e | ⟨⟩, s'⟩ := r
    · exact pure (.kept .nil (.refl _) rfl)
    · exact ih s'

theorem update (limit : Nat) (s : Session σ) (delta : Duration) :
    Tells log apart s (Recorded.update limit s delta) := by
  unfold Recorded.update
  split
  · exact fault
  · exact (resumeAll limit _ _).after ⟨rfl, rfl, rfl, rfl⟩ rfl

theorem furnish {s : Session σ} {t : CommandTable σ}
    (kept : apart → s.Journals log → t.Apart log) :
    Tells log apart s (Recorded.quiet (.ok (.ok (), s.withCommands t)) :
      Recorded σ (Answer σ Unit)) :=
  of_follows fun _ ran => by cases ran; exact .furnished kept

theorem equip (limit : Nat) (s : Session σ)
    (act : CommandTable σ → Act σ (Except CapabilityError Unit × CommandTable σ)) :
    Tells log ((Operation.equip act).Apart log) s (Recorded.equip limit s act) := by
  -- the table that comes back is apart from the journal because the one lent was so at the start
  suffices given : Tells log ((Operation.equip act).Apart log ∧ s.Journals log) s
      (Recorded.equip limit s act) from fun r ran => (given r ran).from_start
  have lent : s.Follows log ((Operation.equip act).Apart log ∧ s.Journals log) [] s.lend :=
    .furnished fun _ _ => CommandTable.empty_apart
  have ran : Tells log ((Operation.equip act).Apart log ∧ s.Journals log) s.lend
      (Recorded.between limit (act s.coordinator.commands) s.lend) :=
    (between limit _ s.lend).weaken fun given => (given.1 _ given.2.commands).1 _
  refine noted lent (ran.bind fun r came => ?_)
  rw [outcome_between] at came
  exact pure (.furnished fun given _ => (given.1 _ given.2.commands).2.between came)

/-- Every operation but the one that takes the events out. -/
theorem perform (limit : Nat) (s : Session σ) {op : Operation σ} (keeps : op ≠ .drainEvents) :
    Tells log (op.Apart log) s (Recorded.perform limit s op) := by
  cases op with
  | prepare programs => exact prepare limit s programs
  | load programs => exact load s programs
  | add p => exact add s p
  | start => exact startAt limit s _
  | startAt node => exact startAt limit s node
  | proceed => exact proceed limit s
  | choose id => exact choose limit s id
  | stop => exact stop s
  | reset => exact reset limit s
  | clear => exact clear s
  | update delta => exact update limit s delta
  | host act =>
    exact ((between limit act s).weaken fun apart => apart _).bind fun _ _ =>
      pure (.kept .nil (.refl _) rfl)
  | readVariable name =>
    exact (readVariable s name).bind fun _ _ => pure (.kept .nil (.refl _) rfl)
  | writeVariable name value => exact changeStore s _
  | clearVariables => exact changeStore s _
  | resetVariables => exact changeStore s _
  | setText text =>
    exact of_follows fun _ ran => by cases ran; exact .kept .nil ⟨rfl, rfl, rfl, rfl⟩ rfl
  | register name h =>
    exact furnish fun also journals => CommandTable.insert_apart journals.commands also
  | unregister name =>
    exact furnish fun _ journals => CommandTable.remove_apart journals.commands name
  | equip act => exact equip limit s act
  | drainEvents => exact absurd rfl keeps

end Recorded.Tells

/-! ## Histories -/

/-- What an operation takes out of the events. -/
def Operation.taken (s : Session σ) : Operation σ → List LifecycleEvent
  | .drainEvents => s.drainEvents.1
  | _ => []

/-- Everything that the host takes out of the events. -/
def Session.drained (limit : Nat) : List (Operation σ) → Session σ → List LifecycleEvent
  | [], _ => []
  | op :: ops, s =>
    match op.perform limit s with
    | .ok (_, s') => op.taken s ++ drained limit ops s'
    | .error _ => []

/-- What the host takes out, and then finds, is what the record tells. -/
structure Session.Accounts (log : σ → List PresenterCall) (apart : Prop) (s : Session σ)
    (taken : List LifecycleEvent) (t : List (Happening σ)) (s' : Session σ) : Prop where
  events : taken ++ s'.coordinator.events = s.coordinator.events ++ told t
  journals : apart → s.Journals log → s'.Journals log
  calls : apart → s.Journals log → ∃ calls, Hears t calls ∧ log s'.host = log s.host ++ calls

namespace Session.Accounts

variable {s s' s'' : Session σ} {t t' : List (Happening σ)} {taken more : List LifecycleEvent}

theorem of_follows (h : s.Follows log apart t s') : s.Accounts log apart [] t s' :=
  ⟨h.events, h.journals, h.calls⟩

theorem trans (h : s.Accounts log apart taken t s') (h' : s'.Accounts log apart' more t' s'') :
    s.Accounts log (apart ∧ apart') (taken ++ more) (t ++ t') s'' where
  events := by
    rw [List.append_assoc, h'.events, ← List.append_assoc, h.events, told_append,
      List.append_assoc]
  journals given journals := h'.journals given.2 (h.journals given.1 journals)
  calls given journals := by
    obtain ⟨calls, hears, written⟩ := h.calls given.1 journals
    obtain ⟨more, hears', written'⟩ := h'.calls given.2 (h.journals given.1 journals)
    exact ⟨calls ++ more, hears.append hears', by rw [written', written, List.append_assoc]⟩

end Session.Accounts

theorem Operation.perform_accounts {limit : Nat} {op : Operation σ} {s : Session σ}
    {r : Answer σ Unit} (performed : (Recorded.perform limit s op).outcome = .ok r) :
    s.Accounts log (op.Apart log) (op.taken s) (Recorded.perform limit s op).happenings r.2 := by
  cases op with
  | drainEvents =>
    cases performed
    refine ⟨rfl, fun _ journals => ⟨journals.presenter, journals.store, journals.commands⟩,
      fun _ _ => ⟨[], .nil, (List.append_nil _).symm⟩⟩
  | _ =>
    refine .of_follows (Recorded.Tells.perform limit s ?_ r performed)
    nofun

/-- The events that the host takes out, with those that are still there, are those of the record,
    and so is a journal. -/
theorem Session.performAll_accounts (log : σ → List PresenterCall) {limit : Nat}
    {ops : List (Operation σ)} {s s' : Session σ} (done : s.performAll limit ops = .ok s') :
    s.Accounts log (∀ op ∈ ops, op.Apart log) (s.drained limit ops)
      (Recorded.history limit ops s).happenings s' := by
  have seen (s : Session σ) : s.Accounts log True [] [.moment s] s :=
    .of_follows (.kept (.one ⟨id, rfl⟩) (.refl _) rfl)
  induction ops generalizing s with
  | nil =>
    cases done
    have accounts := seen s'
    exact ⟨accounts.events, fun _ => accounts.journals trivial, fun _ => accounts.calls trivial⟩
  | cons op ops ih =>
    unfold performAll at done
    cases performed : op.perform limit s with
    | error fault =>
      rw [performed] at done
      cases done
    | ok r =>
      -- the moment before the operation, the operation, and what comes after it
      rw [performed] at done
      have recorded := performed
      rw [← Recorded.outcome_perform] at recorded
      have accounts := ((seen s).trans (Operation.perform_accounts recorded)).trans (ih done)
      have happenings : (Recorded.history limit (op :: ops) s).happenings = [.moment s] ++
          (Recorded.perform limit s op).happenings ++
            (Recorded.history limit ops r.2).happenings :=
        congrArg _ (Recorded.happenings_bind recorded _)
      have taken : s.drained limit (op :: ops) = [] ++ op.taken s ++ r.2.drained limit ops := by
        rw [drained, performed]
        rfl
      rw [happenings, taken]
      have split (apart : ∀ o ∈ op :: ops, o.Apart log) :
          (True ∧ op.Apart log) ∧ ∀ o ∈ ops, o.Apart log :=
        ⟨⟨trivial, apart op List.mem_cons_self⟩, fun o ho => apart o (List.mem_cons_of_mem op ho)⟩
      exact ⟨accounts.events, fun apart => accounts.journals (split apart),
        fun apart => accounts.calls (split apart)⟩

end DialogueEngine
