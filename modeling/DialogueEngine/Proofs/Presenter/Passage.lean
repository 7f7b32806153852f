import DialogueEngine.Proofs.Presenter.Keeping
import DialogueEngine.Proofs.Session.Moves

/-! # What comes of a session

Whatever a host does with a session changes parts of the coordinator, lets host code write, and
drives the dialogue, some of it more than once. A relation from a session to what has come of it
holds across all operations if it holds across each of these.

* `Session.Passage` — such a relation.
* `Session.Passage.between` — it holds across host code between operations.
* `Session.Passage.perform` — it holds across every operation.
-/

namespace DialogueEngine

open Session Coordinator

variable {τ α : Type}

/-- A relation from a session to what has come of it. It relates a session to itself if the session
    is fit for it, and fit sessions have command tables of a kind. -/
structure Session.Passage (R : Session (Desk τ) → Session (Desk τ) → Prop)
    (C : CommandTable (Desk τ) → Prop) : Prop where
  refl {s s' : Session (Desk τ)} : R s s' → R s' s'
  trans {s s' s'' : Session (Desk τ)} : R s s' → R s' s'' → R s s''
  equipped {s : Session (Desk τ)} : R s s → s.Equipped
  commands {s : Session (Desk τ)} : R s s → C s.coordinator.commands
  /-- Only parts of the coordinator change that have to do with neither the suspension nor the
      presenter. -/
  aside {s : Session (Desk τ)} {c : Coordinator (Desk τ)} : R s s →
    c.presenter = s.coordinator.presenter → c.store.Leaves → C c.commands →
    c.generation = s.coordinator.generation → c.suspension = s.coordinator.suspension →
      R s (s.withCoordinator c)
  write {s : Session (Desk τ)} {x : Desk τ} : R s s → x.1 = s.host.1 → R s { s with host := x }
  started {s : Session (Desk τ)} (node : String) : R s s →
    R s { s with host := (s.host.1.push (.dialogueStarted node), s.host.2) }
  halt {s : Session (Desk τ)} : R s s → R s s.halt
  drive (limit : Nat) {s : Session (Desk τ)} {c : Coordinator (Desk τ)} : R s s →
    s.coordinator.Opens c → Ensures (Session.drive limit ⟨c, s.host⟩) fun r => R s r.2

/-- What the operation does to the command table keeps tables of a kind. -/
def Operation.Suits (C : CommandTable (Desk τ) → Prop) : Operation (Desk τ) → Prop
  | .register name h => ∀ t, C t → C (t.insert name h).2
  | .unregister name => ∀ t, C t → C (t.remove name).2
  | .equip act => C .empty ∧ ∀ t, C t → (act t).All fun r => C r.2
  | _ => True

namespace Session.Passage

variable {R : Session (Desk τ) → Session (Desk τ) → Prop} {C : CommandTable (Desk τ) → Prop}
  {s s' : Session (Desk τ)} (passage : Passage R C)

include passage

/-! ## Uses of handles -/

theorem follow (limit : Nat) (here : R s s) {use : Use (Desk τ)}
    (opens : ∀ c, use = .resumed c → s.coordinator.Opens c) :
    Ensures (s.follow limit use) fun r => R s r.2 := by
  cases use with
  | ignored => exact .ok here
  | refused e => exact .ok here
  | failed e => exact .ok here
  | resumed c => exact passage.drive limit here (opens c rfl)

theorem delay (limit : Nat) (here : R s s) (k : Continuation) (d : Duration) :
    Ensures (s.delay k d (s.follow limit)) fun r => R s r.2 := by
  unfold Session.delay
  split
  · exact passage.follow limit here fun c => useContinuation_opens
  · split
    · rename_i c scheduled
      obtain ⟨presenter, store, commands, _⟩ := schedule?_keeps scheduled
      have same := schedule?_eq scheduled
      refine .ok (passage.aside here presenter (store ▸ (passage.equipped here).store)
        (commands ▸ passage.commands here) ?_ ?_)
      · rw [same]
      · rw [same]
    · exact .fault

/-- Host code between operations, which leaves the queue alone, may still use the handles that it
    has from elsewhere. -/
theorem between (limit : Nat) {act : Act (Desk τ) α} (here : R s s)
    (leaves : act.Leaves s.host.1) : Ensures (act.between limit s) fun r => R s r.2 := by
  induction act generalizing s with
  | done a => exact .ok here
  | read k ih => exact ih s.host here (leaves s.host.2)
  | write x k ih =>
    have written := passage.write here leaves.1
    refine (ih (passage.refl written) ?_).imp fun r => passage.trans written
    exact leaves.1 ▸ leaves.2
  | isStale k f ih => exact ih _ here (leaves _)
  | resume k f ih =>
    rw [Act.between_resume]
    refine (passage.follow limit here fun c => useContinuation_opens).bind fun r there => ?_
    exact (ih r.1 (passage.refl there) (leaves _ _)).imp fun _ => passage.trans there
  | resumeAfter k d f ih =>
    rw [Act.between_resumeAfter]
    refine (passage.delay limit here k d).bind fun r there => ?_
    exact (ih r.1 (passage.refl there) (leaves _ _)).imp fun _ => passage.trans there
  | select h id f ih =>
    rw [Act.between_select]
    refine (passage.follow limit here fun c => useSelector_opens).bind fun r there => ?_
    exact (ih r.1 (passage.refl there) (leaves _ _)).imp fun _ => passage.trans there

/-! ## Variables -/

theorem within_store {act : Act (Desk τ) α} (here : R s s) (leaves : act.Leaves s.host.1) :
    Ensures (act.within .store s) fun r => R s r.2 := by
  intro r ran
  obtain ⟨presenter, store, commands, _⟩ := Act.within_keeps ran
  have frame := Act.within_store ran
  have asked : R s (s.withCoordinator r.2.coordinator) := by
    refine passage.aside here presenter (store ▸ (passage.equipped here).store)
      (commands ▸ passage.commands here) ?_ ?_
    · rw [frame]
    · rw [frame]
  have written := passage.write (passage.refl asked) (Act.within_leaves leaves r ran)
  exact passage.trans asked written

theorem readVariable (here : R s s) (name : String) :
    Ensures (s.readVariable name) fun r => R s r.2 := by
  have leaves := Store.get_leaves (passage.equipped here).store name s.host.1
  exact .bind (passage.within_store here leaves) fun _ there => .pure there

theorem changeStore (here : R s s)
    {act : Act (Desk τ) (Except CapabilityError Unit × Store (Desk τ))}
    (leaves : act.Leaves s.host.1) (kept : act.All fun r => r.2.Leaves) :
    Ensures (s.changeStore act) fun r => R s r.2 := by
  intro r changed
  unfold Session.changeStore at changed
  cases ran : act.within .store s with
  | error f =>
    rw [ran] at changed
    cases changed
  | ok r' =>
    rw [ran] at changed
    cases changed
    have there := passage.within_store here leaves r' ran
    have fit := passage.refl there
    exact passage.trans there
      (passage.aside fit rfl (kept.within ran) (passage.commands fit) rfl rfl)

theorem resetVariables (here : R s s) : Ensures s.resetVariables fun r => R s r.2 := by
  have store := (passage.equipped here).store
  exact passage.changeStore here (Store.reset_leaves store _) (Store.reset_all_leaves store)

/-! ## Operations -/

/-- Only the machine changes, or nothing at all. -/
theorem withMachine (here : R s s) (m : Machine) :
    R s (s.withCoordinator { s.coordinator with machine := m }) :=
  passage.aside here rfl (passage.equipped here).store (passage.commands here) rfl rfl

theorem load (here : R s s) (programs : List Program) :
    Ensures (s.load programs) fun r => R s r.2 := by
  unfold Session.load
  split
  · exact .ok here
  · cases Program.combine programs with
    | error e => exact .ok here
    | ok p => exact .ok (passage.withMachine here _)

theorem add (here : R s s) (p : Program) : Ensures (s.add p) fun r => R s r.2 := by
  unfold Session.add
  cases s.coordinator.machine.add p with
  | error e => exact .ok here
  | ok m => exact .ok (passage.withMachine here m)

theorem clear (here : R s s) : Ensures s.clear fun r => R s r.2 := by
  unfold Session.clear
  split
  · exact .ok here
  · exact .ok (passage.withMachine here _)

theorem startAt (limit : Nat) (here : R s s) (node : String) :
    Ensures (s.startAt limit node) fun r => R s r.2 := by
  unfold Session.startAt
  split
  · exact .ok here
  · cases s.coordinator.machine.enter node with
    | error e => exact .ok here
    | ok m =>
      have opens : s.coordinator.Opens (s.coordinator.begin m) :=
        ⟨⟨rfl, rfl, rfl, rfl⟩, rfl, Nat.lt_succ_self _⟩
      have presenter : (s.coordinator.begin m).presenter = PresentationQueue.desk :=
        (passage.equipped here).presenter
      change Ensures (((s.coordinator.begin m).presenter.started node).within .handover
        (s.withCoordinator (s.coordinator.begin m)) >>= _) _
      rw [presenter]
      have started := passage.started node here
      exact (passage.drive limit (passage.refl started) opens).imp fun r => passage.trans started

theorem proceed (limit : Nat) (here : R s s) : Ensures (s.proceed limit) fun r => R s r.2 := by
  unfold Session.proceed
  split
  · split
    · exact .ok here
    · exact passage.drive limit here (opens_invalidate _)
  · exact .ok here

theorem choose (limit : Nat) (here : R s s) (id : Nat) :
    Ensures (s.choose limit id) fun r => R s r.2 := by
  unfold Session.choose
  split
  · exact passage.follow limit here fun c => pick_opens
  · exact .ok here

theorem reset (limit : Nat) (here : R s s) : Ensures (s.reset limit) fun r => R s r.2 := by
  have stopped : R s s.stop := passage.halt here
  refine .bind (passage.resetVariables (passage.refl stopped)) fun r there => ?_
  obtain ⟨e | ⟨⟩, s'⟩ := r
  · exact .pure (passage.trans stopped there)
  · refine (passage.startAt limit (passage.refl there) _).imp fun r started => ?_
    exact passage.trans stopped (passage.trans there started)

theorem prepare (limit : Nat) (here : R s s) (programs : List Program) :
    Ensures (s.prepare limit programs) fun r => R s r.2 := by
  refine .bind (passage.resetVariables here) fun r there => ?_
  obtain ⟨e | ⟨⟩, s₁⟩ := r
  · exact .pure there
  have start {s₂ : Session (Desk τ)} (there : R s s₂) :
      Ensures (if s₂.coordinator.settings.startAutomatically then s₂.start limit
        else Pure.pure (.ok (), s₂)) fun r => R s r.2 := by
    split
    · exact (passage.startAt limit (passage.refl there) _).imp fun r => passage.trans there
    · exact .pure there
  dsimp only
  split
  · exact start there
  · refine .bind (passage.load (passage.refl there) programs) fun r loaded => ?_
    obtain ⟨e | ⟨⟩, s₂⟩ := r
    · exact .pure (passage.trans there loaded)
    · exact start (passage.trans there loaded)

theorem resumeAll (limit : Nat) (due : List Continuation) (here : R s s) :
    Ensures (resumeAll limit s due) fun r => R s r.2 := by
  induction due generalizing s with
  | nil => exact .ok here
  | cons k due ih =>
    refine (passage.follow limit here fun c => useContinuation_opens).bind fun r there => ?_
    obtain ⟨e | ⟨⟩, s'⟩ := r
    · exact .pure there
    · exact (ih (passage.refl there)).imp fun r => passage.trans there

theorem update (limit : Nat) (here : R s s) (delta : Duration) :
    Ensures (s.update limit delta) fun r => R s r.2 := by
  unfold Session.update
  split
  · exact .fault
  · rename_i due timers _
    have later : R s (s.withCoordinator { s.coordinator with timers := timers }) :=
      passage.aside here rfl (passage.equipped here).store (passage.commands here) rfl rfl
    exact (passage.resumeAll limit due (passage.refl later)).imp fun r => passage.trans later

/-- The table that is lent is of the kind, and so is the one that comes back. -/
theorem equip (limit : Nat) (here : R s s)
    {act : CommandTable (Desk τ) → Act (Desk τ) (α × CommandTable (Desk τ))}
    (leaves : ∀ t q, (act t).Leaves q) (empty : C .empty)
    (suits : ∀ t, C t → (act t).All fun r => C r.2) :
    Ensures (s.equip limit act) fun r => R s r.2 := by
  have lent : R s s.lend := passage.aside here rfl (passage.equipped here).store empty rfl rfl
  have came : Ensures ((act s.coordinator.commands).between limit s.lend) fun r =>
      R s.lend r.2 ∧ C r.1.2 :=
    (passage.between limit (passage.refl lent) (leaves _ _)).and fun r ran =>
      (suits _ (passage.commands here)).between ran
  refine came.bind fun r ⟨there, kind⟩ => .pure ?_
  have equipped := passage.equipped (passage.refl there)
  have put : R r.2 (r.2.withCommands r.1.2) :=
    passage.aside (passage.refl there) rfl equipped.store kind rfl rfl
  exact passage.trans lent (passage.trans there put)

/-- Whatever the operation is, the relation holds from the session before to the one after. -/
theorem perform (limit : Nat) {op : Operation (Desk τ)} (leaves : op.Leaves) (suits : op.Suits C)
    (here : R s s) : Ensures (op.perform limit s) fun r => R s r.2 := by
  have store := (passage.equipped here).store
  have commands := passage.commands here
  have furnished (text : Line → String) {t : CommandTable (Desk τ)} (lent : Bool)
      (events : List LifecycleEvent) (kind : C t) :
      R s (s.withCoordinator (s.coordinator.furnish text t lent events)) :=
    passage.aside here rfl store kind rfl rfl
  cases op with
  | prepare programs => exact passage.prepare limit here programs
  | load programs => exact passage.load here programs
  | add p => exact passage.add here p
  | start => exact passage.startAt limit here _
  | startAt node => exact passage.startAt limit here node
  | proceed => exact passage.proceed limit here
  | choose id => exact passage.choose limit here id
  | stop => exact .ok (passage.halt here)
  | reset => exact passage.reset limit here
  | clear => exact passage.clear here
  | update delta => exact passage.update limit here delta
  | host act => exact (passage.between limit here (leaves _)).map fun r there => there
  | readVariable name => exact (passage.readVariable here name).map fun r there => there
  | writeVariable name value =>
    exact passage.changeStore here (Store.set_leaves store name value _)
      (Store.set_all_leaves store name value)
  | clearVariables =>
    exact passage.changeStore here (Store.clear_leaves store _) (Store.clear_all_leaves store)
  | resetVariables => exact passage.resetVariables here
  | setText text => exact .ok (furnished text _ _ commands)
  | register name h => exact .ok (furnished _ _ _ (suits _ commands))
  | unregister name => exact .ok (furnished _ _ _ (suits _ commands))
  | equip act => exact (passage.equip limit here leaves suits.1 suits.2).map fun r there => there
  | drainEvents => exact .ok (furnished _ _ [] commands)

end Session.Passage

end DialogueEngine
