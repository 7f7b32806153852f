import DialogueEngine.Presenter.Queue
import DialogueEngine.Proofs.Session.Lifting

/-! # Handles that the queue keeps

A host whose presenter is the queue, and that has other state besides it. While the dialogue is
suspended on a line or on options the queue keeps the handle, as long as nobody takes it out.

* `Desk`, `PresentationQueue.desk` — the queue as a part of the host.
* `Act.Leaves`, `Store.Leaves`, `Operation.Leaves` — host code that leaves the queue alone.
* `Session.Keeps` — the queue keeps the handle of what the dialogue is suspended on.
* `Session.run_rested` — after a drive it does.
-/

namespace DialogueEngine

variable {τ α β : Type}

/-- The state of a host: the queue, and what else it has. -/
abbrev Desk (τ : Type) := PresentationQueue × τ

/-- The queue as the presenter of such a host. -/
def PresentationQueue.desk : Presenter (Desk τ) :=
  presenter.focus Prod.fst fun q x => (q, x.2)

/-! ## Host code that leaves the queue alone -/

namespace Act

/-- The code does not change the queue. While it uses a handle the queue may change. -/
def Leaves (q : PresentationQueue) : Act (Desk τ) α → Prop
  | .done _ => True
  | .read k => ∀ x, (k (q, x)).Leaves q
  | .write x k => x.1 = q ∧ k.Leaves q
  | .resume _ k => ∀ r q', (k r).Leaves q'
  | .resumeAfter _ _ k => ∀ r q', (k r).Leaves q'
  | .select _ _ k => ∀ r q', (k r).Leaves q'
  | .isStale _ k => ∀ b, (k b).Leaves q

theorem Leaves.bind_all {P : α → Prop} {q : PresentationQueue} {x : Act (Desk τ) α}
    {f : α → Act (Desk τ) β} (h : x.Leaves q) (all : x.All P)
    (next : ∀ a, P a → ∀ q', (f a).Leaves q') : (x.bind f).Leaves q := by
  induction x generalizing q with
  | done a => exact next a all q
  | read k ih => exact fun y => ih (q, y) (h y) (all _)
  | write x k ih => exact ⟨h.1, ih h.2 all⟩
  | resume c k ih | resumeAfter c d k ih | select s id k ih =>
    exact fun r q' => ih r (h r q') (all r)
  | isStale c k ih => exact fun b => ih b (h b) (all b)

theorem Leaves.bind {q : PresentationQueue} {x : Act (Desk τ) α} {f : α → Act (Desk τ) β}
    (h : x.Leaves q) (next : ∀ a q', (f a).Leaves q') : (x.bind f).Leaves q :=
  h.bind_all x.all_trivial fun a _ => next a

end Act

/-- A store whose answers do not change the queue. -/
structure HostStore.Leaves (h : HostStore (Desk τ)) : Prop where
  set (name : String) (value : Value) (q : PresentationQueue) : (h.set name value).Leaves q
  get (name : String) (q : PresentationQueue) : (h.get name).Leaves q
  clear (q : PresentationQueue) : h.clear.Leaves q
  reset (q : PresentationQueue) : h.reset.Leaves q

namespace Store

def Leaves : Store (Desk τ) → Prop
  | .memory _ => True
  | .host h => h.Leaves

variable {store : Store (Desk τ)}

theorem get_leaves (leaves : store.Leaves) (name : String) (q : PresentationQueue) :
    (store.get name).Leaves q := by
  cases store with
  | memory m => trivial
  | host h => exact HostStore.Leaves.get leaves name q

theorem set_leaves (leaves : store.Leaves) (name : String) (value : Value)
    (q : PresentationQueue) : (store.set name value).Leaves q := by
  cases store with
  | memory m => trivial
  | host h => exact (HostStore.Leaves.set leaves name value q).bind fun _ _ => trivial

theorem clear_leaves (leaves : store.Leaves) (q : PresentationQueue) : store.clear.Leaves q := by
  cases store with
  | memory m => trivial
  | host h => exact (HostStore.Leaves.clear leaves q).bind fun _ _ => trivial

theorem reset_leaves (leaves : store.Leaves) (q : PresentationQueue) : store.reset.Leaves q := by
  cases store with
  | memory m => trivial
  | host h => exact (HostStore.Leaves.reset leaves q).bind fun _ _ => trivial

/-- A store stays one that leaves the queue alone. -/
theorem set_all_leaves (leaves : store.Leaves) (name : String) (value : Value) :
    (store.set name value).All fun r => r.2.Leaves := by
  cases store with
  | memory m => trivial
  | host h => exact Act.all_bind fun r => leaves

theorem clear_all_leaves (leaves : store.Leaves) : store.clear.All fun r => r.2.Leaves := by
  cases store with
  | memory m => trivial
  | host h => exact Act.all_bind fun r => leaves

theorem reset_all_leaves (leaves : store.Leaves) : store.reset.All fun r => r.2.Leaves := by
  cases store with
  | memory m => trivial
  | host h => exact Act.all_bind fun r => leaves

theorem onStore_leaves (leaves : store.Leaves) (x : Access α) (q : PresentationQueue) :
    (x.onStore store).Leaves q := by
  induction x generalizing store q with
  | done a => trivial
  | read name k ih => exact (get_leaves leaves name q).bind fun r => ih r leaves
  | write name value k ih =>
    exact (set_leaves leaves name value q).bind_all (set_all_leaves leaves name value)
      fun r kept => ih r.1 kept

theorem onStore_all_leaves (leaves : store.Leaves) (x : Access α) :
    (x.onStore store).All fun r => r.2.Leaves := by
  induction x generalizing store with
  | done a => exact leaves
  | read name k ih => exact Act.all_bind fun r => ih r leaves
  | write name value k ih =>
    exact (set_all_leaves leaves name value).bind fun r kept => ih r.1 kept

end Store

/-- Operations of the runner; host code between them leaves the queue alone. -/
def Operation.Leaves : Operation (Desk τ) → Prop
  | .host act => ∀ q, act.Leaves q
  | .equip act => ∀ t q, (act t).Leaves q
  | _ => True

/-- Host code inside an operation that leaves the queue alone. -/
theorem Act.within_leaves {act : Act (Desk τ) α} {place : Place} {s : Session (Desk τ)}
    (leaves : act.Leaves s.host.1) :
    Ensures (act.within place s) fun r => r.2.host.1 = s.host.1 := by
  induction act generalizing s with
  | done a => exact .ok rfl
  | read k ih => exact ih s.host (leaves s.host.2)
  | write x k ih =>
    refine (ih (s := { s with host := x }) (leaves.1 ▸ leaves.2)).imp fun r same => ?_
    exact same.trans leaves.1
  | isStale k f ih => exact ih _ (leaves _)
  | resume k f ih =>
    rw [within_resume]
    refine .bind (fun r => Session.wake_keeps fun _ => Coordinator.useContinuation_keeps)
      fun r kept => ?_
    rw [← kept.2]
    exact ih r.1 (leaves _ _)
  | select h id f ih =>
    rw [within_select]
    refine .bind (fun r => Session.wake_keeps fun _ => Coordinator.useSelector_keeps)
      fun r kept => ?_
    rw [← kept.2]
    exact ih r.1 (leaves _ _)
  | resumeAfter k d f ih =>
    rw [within_resumeAfter]
    refine .bind (fun r => Session.delay_keeps) fun r kept => ?_
    rw [← kept.2]
    exact ih r.1 (leaves _ _)

/-! ## Suspensions and what the queue keeps -/

namespace Session

variable {s : Session (Desk τ)}

/-- The presenter is the queue, and the store leaves it alone. -/
structure Equipped (s : Session (Desk τ)) : Prop where
  presenter : s.coordinator.presenter = PresentationQueue.desk
  store : s.coordinator.store.Leaves

/-- The queue keeps the live handle of the line or of the options that the dialogue is suspended
    on. -/
structure Keeps (s : Session (Desk τ)) : Prop where
  line : s.coordinator.suspension = some .line →
    s.host.1.continuation = some ⟨s.coordinator.generation⟩
  choices : ∀ ids, s.coordinator.suspension = some (.choices ids) →
    s.host.1.selector = some ⟨s.coordinator.generation⟩

theorem keeps_of_unsuspended (free : s.coordinator.suspension = none) : s.Keeps :=
  ⟨fun h => (by simp [free] at h), fun ids h => (by simp [free] at h)⟩

/-! ## The drive -/

/-- During a hand-over. A handle that has been used has ended the suspension. -/
structure Handing (w : Option Suspension) (n : Nat) (s : Session (Desk τ)) : Prop where
  equipped : s.Equipped
  bound : n ≤ s.coordinator.generation
  state : s.coordinator.woken = false ∧ s.coordinator.suspension = w ∨
    s.coordinator.woken = true ∧ s.coordinator.suspension = none

structure Driving (n : Nat) (s : Session (Desk τ)) : Prop where
  equipped : s.Equipped
  bound : n ≤ s.coordinator.generation
  free : s.coordinator.suspension = none
  asleep : s.coordinator.woken = false

structure Rested (n : Nat) (s : Session (Desk τ)) : Prop where
  equipped : s.Equipped
  bound : n ≤ s.coordinator.generation
  keeps : s.Keeps

/-- After a turn, by what it leads to. -/
def Turned (n : Nat) (r : Turn × Session (Desk τ)) : Prop :=
  match r.1 with
  | .again => r.2.Driving n
  | .rest => r.2.Rested n
  | .failed _ => r.2.Equipped ∧ n ≤ r.2.coordinator.generation

end Session

/-- The suspension is over, and nothing else that belongs to the host has changed. -/
structure Coordinator.Opens (c c' : Coordinator α) : Prop where
  kept : c.Keeps c'
  free : c'.suspension = none
  later : c.generation < c'.generation

namespace Coordinator

variable {c c' : Coordinator α}

theorem opens_invalidate (c : Coordinator α) : c.Opens c.invalidate :=
  ⟨⟨rfl, rfl, rfl, rfl⟩, rfl, Nat.lt_succ_self _⟩

theorem useContinuation_opens {k : Continuation} (used : c.useContinuation k = .resumed c') :
    c.Opens c' := by
  obtain ⟨_, _, rfl⟩ := useContinuation_resumed used
  exact c.opens_invalidate

theorem pick_opens {id : Nat} (picked : c.pick id = .resumed c') : c.Opens c' := by
  obtain ⟨_, m, _, _, rfl⟩ := pick_resumed picked
  exact ⟨⟨rfl, rfl, rfl, rfl⟩, rfl, Nat.lt_succ_self _⟩

theorem useSelector_opens {h : Selector} {id : Nat} (used : c.useSelector h id = .resumed c') :
    c.Opens c' :=
  pick_opens (useSelector_resumed used).2

end Coordinator

open Session Coordinator

variable {w : Option Suspension} {n : Nat} {s : Session (Desk τ)}

theorem Session.Equipped.keeps {c : Coordinator (Desk τ)} (equipped : s.Equipped)
    (kept : s.coordinator.Keeps c) {host : Desk τ} : Equipped ⟨c, host⟩ :=
  ⟨kept.presenter.trans equipped.presenter, kept.store ▸ equipped.store⟩

/-! ### Host code during a hand-over -/

theorem Session.wake_handing {use : Use (Desk τ)} (handing : s.Handing w n)
    (opens : ∀ c, use = .resumed c → s.coordinator.Opens c) :
    Ensures (s.wake .handover use) fun r => r.2.Handing w n := by
  cases use with
  | ignored => exact .ok handing
  | refused e => exact .ok handing
  | failed e => exact .ok handing
  | resumed c =>
    obtain ⟨kept, free, later⟩ := opens c rfl
    have woken : s.coordinator.Keeps { c with woken := true } :=
      ⟨kept.presenter, kept.store, kept.commands, kept.events⟩
    exact .ok ⟨handing.equipped.keeps woken, Nat.le_trans handing.bound (Nat.le_of_lt later),
      .inr ⟨rfl, free⟩⟩

theorem Session.delay_handing {k : Continuation} {d : Duration} (handing : s.Handing w n) :
    Ensures (s.delay k d (s.wake .handover)) fun r => r.2.Handing w n := by
  unfold delay
  split
  · exact wake_handing handing fun c => useContinuation_opens
  · split
    · rename_i c scheduled
      have same := schedule?_eq scheduled
      refine .ok ⟨handing.equipped.keeps (schedule?_keeps scheduled), ?_, ?_⟩
      · change n ≤ c.generation
        rw [same]
        exact handing.bound
      · change c.woken = false ∧ c.suspension = w ∨ c.woken = true ∧ c.suspension = none
        rw [same]
        exact handing.state
    · exact .fault

/-- Host code during a hand-over may end the suspension, and comes to no other. -/
theorem Act.within_handing {act : Act (Desk τ) α} (handing : s.Handing w n) :
    Ensures (act.within .handover s) fun r => r.2.Handing w n := by
  induction act generalizing s with
  | done a => exact .ok handing
  | read k ih => exact ih s.host handing
  | write x k ih => exact ih ⟨handing.equipped.keeps (.refl _), handing.bound, handing.state⟩
  | isStale k f ih => exact ih _ handing
  | resume k f ih =>
    rw [within_resume]
    exact (wake_handing handing fun c => useContinuation_opens).bind fun r => ih r.1
  | resumeAfter k d f ih =>
    rw [within_resumeAfter]
    exact (delay_handing handing).bind fun r => ih r.1
  | select h id f ih =>
    rw [within_select]
    exact (wake_handing handing fun c => useSelector_opens).bind fun r => ih r.1

/-! ### Turns -/

namespace Session

theorem Driving.handing (driving : s.Driving n) : s.Handing none n :=
  ⟨driving.equipped, driving.bound, .inl ⟨driving.asleep, driving.free⟩⟩

/-- A suspension that begins has a handle of its own. -/
theorem Driving.suspend (driving : s.Driving n) (v : Suspension) :
    (s.withCoordinator (s.coordinator.suspend v)).Handing (some v) n :=
  ⟨⟨driving.equipped.presenter, driving.equipped.store⟩, Nat.le_succ_of_le driving.bound,
    .inl ⟨driving.asleep, rfl⟩⟩

theorem afterHandover_turned {pace : Pace} (handing : s.Handing w n)
    (keeps : pace = .pause → s.coordinator.suspension = w → s.Keeps) :
    Turned n (s.afterHandover pace) := by
  obtain ⟨equipped, bound, ⟨asleep, suspended⟩ | ⟨woken, free⟩⟩ := handing
  · cases pace with
    | proceed =>
      unfold afterHandover
      rw [if_neg (by simp [asleep])]
      exact ⟨⟨equipped.presenter, equipped.store⟩, Nat.le_succ_of_le bound, rfl, asleep⟩
    | pause =>
      unfold afterHandover
      rw [if_neg (by simp [asleep])]
      exact ⟨equipped, bound, keeps rfl suspended⟩
  · unfold afterHandover
    rw [if_pos woken]
    exact ⟨⟨equipped.presenter, equipped.store⟩, bound, free, rfl⟩

theorem nextYield_driving (driving : s.Driving n) :
    Ensures s.nextYield fun r => r.2.Driving n := by
  intro r answered
  unfold nextYield at answered
  dsimp only at answered
  cases ran : (s.coordinator.machine.next.onStore s.coordinator.store).within .store s with
  | error f =>
    rw [ran] at answered
    cases answered
  | ok r =>
    rw [ran] at answered
    cases answered
    have frame := Act.within_store ran
    have store := (Store.onStore_all_leaves driving.equipped.store _).within ran
    obtain ⟨⟨⟨r, m⟩, store'⟩, s'⟩ := r
    refine ⟨⟨?_, store⟩, ?_, ?_, ?_⟩
    · exact (congrArg Coordinator.presenter frame).trans driving.equipped.presenter
    · exact (congrArg Coordinator.generation frame).symm ▸ driving.bound
    · exact (congrArg Coordinator.suspension frame).trans driving.free
    · exact (congrArg Coordinator.woken frame).trans driving.asleep

theorem Handing.withHost (handing : s.Handing w n) (host : Desk τ) :
    Handing w n { s with host := host } :=
  ⟨handing.equipped.keeps (.refl _), handing.bound, handing.state⟩

/-- A line that has been handed over waits, and its handle is kept. -/
theorem deliverLine_turned (driving : s.Driving n) (l : Line) :
    Ensures (s.deliverLine l) (Turned n) := by
  have presenter : (s.coordinator.suspend .line).presenter = PresentationQueue.desk :=
    driving.equipped.presenter
  unfold deliverLine
  dsimp only
  rw [presenter]
  refine .ok (afterHandover_turned ((driving.suspend .line).withHost _) fun _ _ => ?_)
  exact ⟨fun _ => rfl, fun ids choices => (by cases choices)⟩

/-- Options that have been handed over wait, and their handle is kept. -/
theorem deliverChoices_turned (driving : s.Driving n) (cs : Choices) :
    Ensures (s.deliverChoices cs) (Turned n) := by
  have presenter : (s.coordinator.suspend (.choices cs.ids)).presenter = PresentationQueue.desk :=
    driving.equipped.presenter
  unfold deliverChoices
  dsimp only
  rw [presenter]
  refine .ok (afterHandover_turned ((driving.suspend (.choices cs.ids)).withHost _) fun _ _ => ?_)
  exact ⟨fun line => (by cases line), fun ids _ => rfl⟩

theorem keeps_of_command (suspended : s.coordinator.suspension = some .command) : s.Keeps :=
  ⟨fun h => (by simp [suspended] at h), fun ids h => (by simp [suspended] at h)⟩

/-- What a handler does with the queue does not matter: the next handle is yet to come. -/
theorem deliverCommand_turned (driving : s.Driving n) (cmd : Command) :
    Ensures (s.deliverCommand cmd) (Turned n) := by
  have presenter : (s.coordinator.suspend .command).presenter = PresentationQueue.desk :=
    driving.equipped.presenter
  unfold deliverCommand
  split
  · exact .pure (afterHandover_turned driving.handing nofun)
  · split
    · dsimp only
      rw [presenter]
      split
      · exact .fault
      · exact .ok (afterHandover_turned ((driving.suspend .command).withHost _) nofun)
    · refine .bind (Act.within_handing driving.handing) fun r handing => ?_
      exact .pure (afterHandover_turned handing nofun)
    · refine .bind (Act.within_handing (driving.suspend .command)) fun r handing => ?_
      exact .pure (afterHandover_turned handing fun _ => keeps_of_command)

theorem deliverEnd_turned (driving : s.Driving n) : Ensures s.deliverEnd (Turned n) := by
  let c := { s.coordinator with phase := .completed }.invalidate
  let ended := { c with timers := c.timers.clear }.emit .dialogueComplete
  have presenter : ended.presenter = PresentationQueue.desk := driving.equipped.presenter
  change Ensures (ended.presenter.completed.within .handover (s.withCoordinator ended) >>= _) _
  rw [presenter]
  exact .ok ⟨⟨presenter, driving.equipped.store⟩, Nat.le_succ_of_le driving.bound,
    keeps_of_unsuspended rfl⟩

theorem deliver_turned (driving : s.Driving n) (y : Yield) :
    Ensures (s.deliver y) (Turned n) := by
  cases y with
  | line l => exact deliverLine_turned driving l
  | choices cs => exact deliverChoices_turned driving cs
  | command cmd => exact deliverCommand_turned driving cmd
  | nodeStart node | nodeComplete node =>
    exact .ok ⟨⟨driving.equipped.presenter, driving.equipped.store⟩, driving.bound, driving.free,
      driving.asleep⟩
  | dialogueComplete => exact deliverEnd_turned driving

theorem turn_turned (driving : s.Driving n) : Ensures s.turn (Turned n) := by
  unfold turn
  split
  · refine (nextYield_driving driving).bind fun r driving => ?_
    obtain ⟨e | y, s'⟩ := r
    · exact .pure ⟨driving.equipped, driving.bound⟩
    · exact deliver_turned driving y
  · exact .pure ⟨driving.equipped, driving.bound, keeps_of_unsuspended driving.free⟩

/-! ### Drives -/

theorem rested_halt (equipped : s.Equipped) (bound : n ≤ s.coordinator.generation) :
    s.halt.Rested n :=
  ⟨⟨equipped.presenter, equipped.store⟩, Nat.le_succ_of_le bound, keeps_of_unsuspended rfl⟩

/-- After a drive the queue keeps the handle of what the dialogue is suspended on, and after an
    error it is not suspended. -/
theorem run_rested (limit : Nat) (driving : s.Driving n) :
    Ensures (run limit s) fun r =>
      r.2.Rested n ∧ ∀ e, r.1 = .error e → r.2.coordinator.suspension = none := by
  induction limit generalizing s with
  | zero => exact .fault
  | succ limit ih =>
    unfold run
    cases turned : s.turn with
    | error f => exact .fault
    | ok r =>
      have after := turn_turned driving r turned
      obtain ⟨_ | _ | e, s'⟩ := r
      · exact ih after
      · obtain ⟨equipped, bound, keeps⟩ : s'.Rested n := after
        exact .ok ⟨⟨⟨equipped.presenter, equipped.store⟩, bound, ⟨keeps.line, keeps.choices⟩⟩,
          by simp⟩
      · obtain ⟨equipped, bound⟩ : s'.Equipped ∧ n ≤ s'.coordinator.generation := after
        exact .ok ⟨rested_halt (s := s'.settle) ⟨equipped.presenter, equipped.store⟩ bound,
          fun _ _ => rfl⟩

end Session

end DialogueEngine
