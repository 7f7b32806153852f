import DialogueEngine.Proofs.Machine.Steps
import DialogueEngine.Proofs.Presenter.Onward
import DialogueEngine.Proofs.Session.Coherence

/-! # Going on by the queue

A host that goes on with the dialogue by the handles that the queue keeps, besides all operations.

* `Call`, `Session.callAll` — what the host does, and what is answered.
* `Session.Proceeds`, `Session.Chooses` — what a call of the queue comes to.
* `Called.Loses` — a choice that has been refused after the queue had given its handle away.
* `Session.Awaits`, `Session.callAll_awaits` — which handle the queue keeps, and for how long.
-/

namespace DialogueEngine

variable {τ α β : Type}

open Coordinator

/-! ## Calls -/

/-- The code of a queue in a host that has it. -/
def PresentationQueue.onDesk (act : Act PresentationQueue α) : Act (Desk τ) α :=
  act.focus Prod.fst fun q x => (q, x.2)

/-- What a host does: an operation, or one of the two calls of the queue. -/
inductive Call (τ : Type) where
  | operation (op : Operation (Desk τ)) (leaves : op.Leaves)
  | proceed
  | choose (id : Nat)

/-- A call on a session. Of an operation that succeeds the answer is `true`. -/
def Call.perform (limit : Nat) (s : Session (Desk τ)) :
    Call τ → Except Fault (Answer (Desk τ) Bool)
  | .operation op _ => (op.perform limit s).map fun r => (r.1.map fun _ => true, r.2)
  | .proceed => (PresentationQueue.onDesk PresentationQueue.proceed).between limit s
  | .choose id => (PresentationQueue.onDesk (PresentationQueue.choose id)).between limit s

/-- A call that has been answered, and the number of the suspension when it was made. -/
structure Called (τ : Type) where
  generation : Nat
  call : Call τ
  answer : Except EngineError Bool

/-- A choice by the queue has been answered with an unknown node. -/
def Called.Loses (c : Called τ) : Prop :=
  (∃ id, c.call = .choose id) ∧ ∃ node, c.answer = .error (.runtime (.unknownNode node))

namespace Session

variable {s s' : Session (Desk τ)} {id : Nat}

/-- Calls, one after the other, whatever they answer. -/
def callAll (limit : Nat) : List (Call τ) → Session (Desk τ) →
    Except Fault (List (Called τ) × Session (Desk τ))
  | [], s => .ok ([], s)
  | call :: calls, s =>
    match call.perform limit s with
    | .error f => .error f
    | .ok (answer, s') =>
      (callAll limit calls s').map fun r => (⟨s.coordinator.generation, call, answer⟩ :: r.1, r.2)

def withoutContinuation (s : Session (Desk τ)) : Session (Desk τ) :=
  { s with host := ({ s.host.1 with continuation := none }, s.host.2) }

def withoutSelector (s : Session (Desk τ)) : Session (Desk τ) :=
  { s with host := ({ s.host.1 with selector := none }, s.host.2) }

def withSelector (h : Selector) (s : Session (Desk τ)) : Session (Desk τ) :=
  { s with host := (s.host.1.keep h, s.host.2) }

theorem withSelector_withoutSelector {h : Selector} (held : s.host.1.selector = some h) :
    s.withoutSelector.withSelector h = s := by
  obtain ⟨c, ⟨events, continuation, selector⟩, x⟩ := s
  cases held
  rfl

/-! ## What a call of the queue does -/

theorem proceed_of_none (limit : Nat) (none : s.host.1.continuation = none) :
    Call.proceed.perform limit s = .ok (.ok false, s) := by
  obtain ⟨c, ⟨events, continuation, selector⟩, x⟩ := s
  cases none
  rfl

theorem proceed_of_some (limit : Nat) {k : Continuation}
    (some : s.host.1.continuation = some k) :
    Call.proceed.perform limit s =
      (s.withoutContinuation.follow limit (s.coordinator.useContinuation k)).map fun r =>
        (r.1.map fun _ => true, r.2) := by
  obtain ⟨c, ⟨events, continuation, selector⟩, x⟩ := s
  cases some
  let released : Session (Desk τ) := ⟨c, ⟨events, .none, selector⟩, x⟩
  change Act.between limit (.resume k fun r => _) released = _
  change _ = (released.follow limit (c.useContinuation k)).map _
  unfold Act.between
  cases released.follow limit (c.useContinuation k) with
  | error f => rfl
  | ok r => rfl

theorem choose_of_none (limit : Nat) (none : s.host.1.selector = none) :
    (Call.choose id).perform limit s = .ok (.ok false, s) := by
  obtain ⟨c, ⟨events, continuation, selector⟩, x⟩ := s
  cases none
  rfl

def chosen (h : Selector) (r : Answer (Desk τ) Unit) : Answer (Desk τ) Bool :=
  match r.1 with
  | .ok () => (.ok true, r.2)
  | .error (.runtime (.invalidOption id)) =>
    (.error (.runtime (.invalidOption id)), r.2.withSelector h)
  | .error e => (.error e, r.2)

theorem choose_of_some (limit : Nat) {h : Selector} (some : s.host.1.selector = some h) :
    (Call.choose id).perform limit s =
      (s.withoutSelector.follow limit (s.coordinator.useSelector h id)).map (chosen h) := by
  obtain ⟨c, ⟨events, continuation, selector⟩, x⟩ := s
  cases some
  let released : Session (Desk τ) := ⟨c, ⟨events, continuation, .none⟩, x⟩
  change Act.between limit (.select h id fun r => _) released = _
  change _ = (released.follow limit (c.useSelector h id)).map (chosen h)
  unfold Act.between
  cases released.follow limit (c.useSelector h id) with
  | error f => rfl
  | ok r =>
    obtain ⟨e | ⟨⟩, s'⟩ := r
    · cases e with
      | runtime e => cases e <;> rfl
      | _ => rfl
    · rfl

end Session

namespace Coordinator

variable {c : Coordinator α}

/-- The handle of the present suspension resumes. -/
theorem Coherent.useContinuation (coherent : c.Coherent) (suspended : c.suspension.isSome = true) :
    c.useContinuation ⟨c.generation⟩ = .resumed c.invalidate := by
  have running : c.isRunning = true := isRunning_iff.mpr (coherent.running_iff.mpr suspended)
  simp [Coordinator.useContinuation, isLive, suspended, running]

theorem useContinuation_cases (c : Coordinator α) (k : Continuation) :
    c.useContinuation k = .ignored ∨ ∃ c', c.useContinuation k = .resumed c' := by
  unfold Coordinator.useContinuation
  split
  · exact .inr ⟨_, rfl⟩
  · exact .inl rfl

theorem pick_ne_ignored {id : Nat} : c.pick id ≠ .ignored := by
  unfold pick
  split
  · split
    · cases c.machine.choose id <;> simp
    · simp
  · simp

theorem pick_refused {id : Nat} {e : EngineError} (refused : c.pick id = .refused e) :
    e = .runtime (.invalidOption id) := by
  unfold pick at refused
  split at refused
  · split at refused
    · cases chosen : c.machine.choose id with
      | ok m =>
        rw [chosen] at refused
        cases refused
      | error e' =>
        rw [chosen] at refused
        cases refused
    · cases refused
      rfl
  · cases refused
    rfl

/-- A choice that the machine does not take leads to no node, or is not offered. -/
theorem Coherent.pick_failed {id : Nat} {e : EngineError} (coherent : c.Coherent)
    (failed : c.pick id = .failed e) :
    e = .runtime (.invalidOption id) ∨
      ∃ cs o, c.machine.offered = some cs ∧ cs.find? id = some o ∧
        c.machine.defines o.destination = false ∧ e = .runtime (.unknownNode o.destination) := by
  unfold pick at failed
  split at failed
  · rename_i ids suspended
    split at failed
    · cases chosen : c.machine.choose id with
      | ok m =>
        rw [chosen] at failed
        cases failed
      | error e' =>
        rw [chosen] at failed
        cases failed
        rcases Machine.choose_eq_error chosen with
          ⟨idle, _⟩ | rfl | ⟨_, cs, o, offered, found, moved⟩
        · exact absurd (coherent.choices_iff.mp ⟨ids, suspended⟩) idle
        · exact .inl rfl
        · obtain ⟨rfl, undefined⟩ := Machine.moveTo_eq_error moved
          exact .inr ⟨cs, o, offered, found, undefined, rfl⟩
    · cases failed
  · cases failed

/-- The handle of options is used like a choice, or ignored. -/
theorem useSelector_eq_pick {h : Selector} {id : Nat} (used : c.useSelector h id ≠ .ignored) :
    c.useSelector h id = c.pick id := by
  unfold useSelector at used ⊢
  split at used
  · rename_i live
    rw [if_pos live]
  · exact absurd rfl used

end Coordinator

namespace Session

variable {s s' : Session (Desk τ)} {id : Nat}

/-- What a choice by the queue comes to. -/
inductive Chooses (s : Session (Desk τ)) (id : Nat) : Answer (Desk τ) Bool → Prop
  /-- The queue keeps no handle. -/
  | idle (none : s.host.1.selector = none) : Chooses s id (.ok false, s)
  /-- The options of the handle are no longer waited for. -/
  | void (free : ∀ ids, s.coordinator.suspension ≠ some (.choices ids)) :
      Chooses s id (.ok true, s.withoutSelector)
  /-- The id is not offered. -/
  | again : Chooses s id (.error (.runtime (.invalidOption id)), s)
  /-- The option leads to no node. -/
  | lost {cs : Choices} {o : Choice} (offered : s.coordinator.machine.offered = some cs)
      (found : cs.find? id = some o)
      (undefined : s.coordinator.machine.defines o.destination = false) :
      Chooses s id (.error (.runtime (.unknownNode o.destination)), s.withoutSelector)
  /-- The dialogue goes on. -/
  | gone {r : Answer (Desk τ) Bool} (driven : s.Driven r) : Chooses s id r

theorem Driven.chosen {r : Answer (Desk τ) Unit} (driven : s.Driven r) (h : Selector) :
    s.Driven (chosen h r) := by
  obtain ⟨goes, later, ended⟩ := driven
  obtain ⟨e | ⟨⟩, s'⟩ := r
  · have free : s'.coordinator.suspension = none := ended e rfl
    unfold Session.chosen
    split
    · exact ⟨goes, later, nofun⟩
    · -- the handle that is put back is not of a suspension that lasts
      have put : s'.Goes (s'.withSelector h) := by
        refine ⟨⟨goes.equipped.presenter, goes.equipped.store⟩, .same rfl rfl ?_ ?_⟩
        · simp [free]
        · simp [free]
      exact ⟨goes.trans put, later, fun _ _ => free⟩
    · exact ⟨goes, later, fun _ _ => free⟩
  · exact ⟨goes, later, nofun⟩

/-- Going on by the queue. The handle of a line that is still waited for is not given away in
    vain. -/
theorem proceed_call_goes (limit : Nat) (equipped : s.Equipped) (coherent : s.coordinator.Coherent)
    (kept : s.coordinator.suspension = some .line →
      s.host.1.continuation = some ⟨s.coordinator.generation⟩) :
    Ensures (Call.proceed.perform limit s) fun r => s.Goes r.2 := by
  cases held : s.host.1.continuation with
  | none =>
    rw [proceed_of_none limit held]
    exact .ok equipped.goes
  | some k =>
    rw [proceed_of_some limit held]
    obtain used | ⟨c, used⟩ := s.coordinator.useContinuation_cases k
    · have free : s.coordinator.suspension ≠ some .line := by
        intro line
        cases held.symm.trans (kept line)
        rw [coherent.useContinuation (by rw [line]; rfl)] at used
        cases used
      rw [used]
      refine .ok ⟨⟨equipped.presenter, equipped.store⟩, .same rfl rfl ?_ fun _ _ => rfl⟩
      exact fun line => absurd line free
    · rw [used]
      have opens := useContinuation_opens used
      exact (drive_driven limit equipped opens).map fun r driven => driven.goes

theorem choose_call_chooses (limit : Nat) (equipped : s.Equipped)
    (coherent : s.coordinator.Coherent)
    (kept : ∀ ids, s.coordinator.suspension = some (.choices ids) →
      s.host.1.selector = none ∨ s.host.1.selector = some ⟨s.coordinator.generation⟩) :
    Ensures ((Call.choose id).perform limit s) (s.Chooses id) := by
  cases held : s.host.1.selector with
  | none =>
    rw [choose_of_none limit held]
    exact .ok (.idle held)
  | some h =>
    rw [choose_of_some limit held]
    have putBack : Chooses s id (.error (.runtime (.invalidOption id)),
        s.withoutSelector.withSelector h) := by
      rw [withSelector_withoutSelector held]
      exact .again
    cases used : s.coordinator.useSelector h id with
    | resumed c =>
      refine (drive_driven limit equipped (useSelector_opens used)).map fun r driven => ?_
      exact .gone (driven.chosen h)
    | refused e =>
      rw [useSelector_eq_pick (by simp [used])] at used
      obtain rfl := pick_refused used
      exact .ok putBack
    | failed e =>
      rw [useSelector_eq_pick (by simp [used])] at used
      rcases coherent.pick_failed used with rfl | ⟨cs, o, offered, found, undefined, rfl⟩
      · exact .ok putBack
      · exact .ok (.lost offered found undefined)
    | ignored =>
      refine .ok (.void fun ids suspended => ?_)
      rcases kept ids suspended with none | current
      · cases held.symm.trans none
      · cases held.symm.trans current
        unfold useSelector at used
        rw [if_pos (by simp [isLive, suspended])] at used
        exact absurd used pick_ne_ignored

end Session

/-! ## Runs -/

/-- A recorded function that walks from a sound moment comes to a sound one. -/
theorem Walks.sound {m : Moment α} {x : Recorded α β} {after : β → Moment α}
    (walks : Walks m x after) (sound : m.Sound) : Ensures x.outcome fun a => (after a).Sound := by
  intro a done
  obtain ⟨m', walk, ends⟩ := walks
  rw [← ends a done]
  exact walk.course.sound sound

open PresentationQueue in
/-- Between calls the session is sound. -/
theorem Call.perform_sound (limit : Nat) {s : Session (Desk τ)} (call : Call τ)
    (sound : Moment.Sound ⟨.resting, [], s⟩) :
    Ensures (call.perform limit s) fun r => Moment.Sound ⟨.resting, [], r.2⟩ := by
  cases call with
  | operation op leaves =>
    have performed := (Walks.perform limit s op).sound sound
    rw [Recorded.outcome_perform] at performed
    exact performed.map fun r sound => sound
  | proceed =>
    have performed := (Walks.between limit (onDesk PresentationQueue.proceed) s).sound sound
    rw [Recorded.outcome_between] at performed
    exact performed
  | choose id =>
    have performed := (Walks.between limit (onDesk (PresentationQueue.choose id)) s).sound sound
    rw [Recorded.outcome_between] at performed
    exact performed

namespace Session

/-- Which handle the queue keeps after some calls: that of the line, or that of the options unless
    a choice among these has lost it. -/
structure Awaits (s : Session (Desk τ)) (past : List (Called τ)) : Prop where
  line : s.coordinator.suspension = some .line →
    s.host.1.continuation = some ⟨s.coordinator.generation⟩
  choices : ∀ ids, s.coordinator.suspension = some (.choices ids) →
    (s.host.1.selector = some ⟨s.coordinator.generation⟩ ∧
      ∀ c ∈ past, c.generation = s.coordinator.generation → ¬ c.Loses) ∨
    (s.host.1.selector = none ∧
      ∃ c ∈ past, c.generation = s.coordinator.generation ∧ c.Loses)

/-- A session between calls. -/
structure Attended (s : Session (Desk τ)) (past : List (Called τ)) : Prop extends
    Awaits s past where
  sound : Moment.Sound ⟨.resting, [], s⟩
  equipped : s.Equipped
  earlier : ∀ c ∈ past, c.generation ≤ s.coordinator.generation

variable {past : List (Called τ)} {c : Called τ} {s s' : Session (Desk τ)} {id : Nat}

theorem Equipped.withoutSelector (equipped : s.Equipped) : s.withoutSelector.Equipped :=
  equipped.keeps (.refl _)

theorem Attended.coherent (attended : s.Attended past) : s.coordinator.Coherent :=
  Rests.coherent attended.sound

theorem Attended.earlier_concat (attended : s.Attended past)
    (now : c.generation = s.coordinator.generation)
    (later : s.coordinator.generation ≤ s'.coordinator.generation) :
    ∀ c' ∈ past ++ [c], c'.generation ≤ s'.coordinator.generation := by
  intro c' mem
  rcases List.mem_append.mp mem with mem | mem
  · exact Nat.le_trans (attended.earlier c' mem) later
  · cases List.mem_singleton.mp mem
    exact now ▸ later

/-- A call that loses no handle, unless the suspension ends with it. -/
theorem Attended.goes (attended : s.Attended past) (goes : s.Goes s')
    (sound : Moment.Sound ⟨.resting, [], s'⟩) (now : c.generation = s.coordinator.generation)
    (harmless : s'.coordinator.generation = s.coordinator.generation → ¬ c.Loses) :
    s'.Attended (past ++ [c]) := by
  cases goes.onward with
  | fresh later keeps =>
    refine ⟨⟨keeps.line, fun ids suspended => .inl ⟨keeps.choices ids suspended, ?_⟩⟩, sound,
      goes.equipped, attended.earlier_concat now (Nat.le_of_lt later)⟩
    intro c' mem same
    have before := attended.earlier_concat now (Nat.le_refl _) c' mem
    omega
  | same generation suspension continuation selector =>
    refine ⟨⟨fun line => ?_, fun ids suspended => ?_⟩, sound, goes.equipped,
      attended.earlier_concat now (Nat.le_of_eq generation.symm)⟩
    · rw [suspension] at line
      rw [continuation line, generation, attended.line line]
    · rw [suspension] at suspended
      rw [selector ids suspended, generation]
      rcases attended.choices ids suspended with ⟨kept, none⟩ | ⟨gone, c', mem, same, loses⟩
      · refine .inl ⟨kept, fun c' mem same => ?_⟩
        rcases List.mem_append.mp mem with mem | mem
        · exact none c' mem same
        · cases List.mem_singleton.mp mem
          exact harmless generation
      · exact .inr ⟨gone, c', List.mem_append_left _ mem, same, loses⟩

/-- A choice that loses the handle. -/
theorem Attended.lose (attended : s.Attended past)
    (sound : Moment.Sound ⟨.resting, [], s.withoutSelector⟩)
    (now : c.generation = s.coordinator.generation) (loses : c.Loses) :
    s.withoutSelector.Attended (past ++ [c]) :=
  ⟨⟨attended.line, fun _ _ => .inr ⟨rfl, c, List.mem_append_right _ (List.mem_singleton_self c),
    now, loses⟩⟩, sound, attended.equipped.withoutSelector,
    attended.earlier_concat now (Nat.le_refl _)⟩

/-- What is kept while options are waited for. -/
theorem Attended.selector (attended : s.Attended past) (ids : List Nat)
    (suspended : s.coordinator.suspension = some (.choices ids)) :
    s.host.1.selector = none ∨ s.host.1.selector = some ⟨s.coordinator.generation⟩ :=
  (attended.choices ids suspended).symm.imp And.left And.left

theorem Attended.choose (limit : Nat) (attended : s.Attended past) :
    Ensures ((Call.choose id).perform limit s) (s.Chooses id) :=
  choose_call_chooses limit attended.equipped attended.coherent attended.selector

/-- A call leads from a session between calls to another one. -/
theorem Attended.perform (limit : Nat) (attended : s.Attended past) (call : Call τ) :
    Ensures (call.perform limit s) fun r =>
      r.2.Attended (past ++ [⟨s.coordinator.generation, call, r.1⟩]) := by
  intro r performed
  have sound := call.perform_sound limit attended.sound r performed
  cases call with
  | operation op leaves =>
    have goes := (Operation.perform_goes limit leaves attended.equipped).map
      (R := fun r : Answer (Desk τ) Bool => s.Goes r.2) (fun r goes => goes) r performed
    exact attended.goes goes sound rfl fun _ ⟨⟨id, chosen⟩, _⟩ => by cases chosen
  | proceed =>
    have goes := proceed_call_goes limit attended.equipped attended.coherent attended.line r
      performed
    exact attended.goes goes sound rfl fun _ ⟨⟨id, chosen⟩, _⟩ => by cases chosen
  | choose id =>
    cases attended.choose limit r performed with
    | idle none =>
      exact attended.goes attended.equipped.goes sound rfl fun _ ⟨_, _, lost⟩ => by cases lost
    | again =>
      exact attended.goes attended.equipped.goes sound rfl fun _ ⟨_, _, lost⟩ => by cases lost
    | lost offered found undefined => exact attended.lose sound rfl ⟨⟨id, rfl⟩, _, rfl⟩
    | gone driven =>
      refine attended.goes driven.goes sound rfl fun same => ?_
      exact absurd same (Nat.ne_of_gt driven.later)
    | void free =>
      have goes : s.Goes s.withoutSelector :=
        ⟨attended.equipped.withoutSelector,
          .same rfl rfl (fun _ => rfl) fun ids suspended => absurd suspended (free ids)⟩
      exact attended.goes goes sound rfl fun _ ⟨_, _, h⟩ => by cases h

theorem Attended.callAll (limit : Nat) (calls : List (Call τ)) (attended : s.Attended past) :
    Ensures (s.callAll limit calls) fun r => r.2.Attended (past ++ r.1) := by
  induction calls generalizing s past with
  | nil => exact .ok (by rwa [List.append_nil])
  | cons call calls ih =>
    unfold Session.callAll
    cases performed : call.perform limit s with
    | error f => exact .fault
    | ok r =>
      refine (ih (attended.perform limit call r performed)).map fun r attended => ?_
      rwa [List.append_assoc] at attended

/-- Whatever a host does with a session whose presenter is the queue, by operations and by the calls
    of the queue: while the dialogue is suspended on a line the queue keeps the live handle, and
    while it is suspended on options too, unless a choice among these has led to no node. A choice
    by the queue that is refused leaves everything as it was if the id is not offered. If instead
    its option leads to no node the queue has given the handle away, and further choices by the
    queue do nothing. -/
theorem callAll_awaits (limit : Nat) (store : Store (Desk τ)) (leaves : store.Leaves)
    (settings : Settings) (text : Line → String) (commands : CommandTable (Desk τ))
    (desk : Desk τ) (calls : List (Call τ)) {past : List (Called τ)} {s : Session (Desk τ)}
    (done : (opening PresentationQueue.desk store settings text commands desk).callAll limit calls =
      .ok (past, s)) :
    s.Awaits past ∧ ∀ id e s', (Call.choose id).perform limit s = .ok (.error e, s') →
      s'.coordinator.suspension.isSome = true →
        (e = .runtime (.invalidOption id) ∧ s' = s) ∨
        (∃ node, e = .runtime (.unknownNode node) ∧
          s.coordinator.machine.defines node = false ∧ s' = s.withoutSelector ∧
          ∀ id', (Call.choose id').perform limit s' = .ok (.ok false, s')) := by
  have opened : (opening PresentationQueue.desk store settings text commands desk).Attended
      ([] : List (Called τ)) :=
    ⟨⟨nofun, nofun⟩, opening_sound _ store settings text commands desk, ⟨rfl, leaves⟩, nofun⟩
  have attended := opened.callAll limit calls _ done
  refine ⟨attended.toAwaits, fun id e s' performed suspended => ?_⟩
  generalize answered : (Except.error e, s') = r at performed
  cases attended.choose limit r performed with
  | idle none => cases answered
  | void free => cases answered
  | again =>
    cases answered
    exact .inl ⟨rfl, rfl⟩
  | lost offered found undefined =>
    cases answered
    exact .inr ⟨_, rfl, undefined, rfl, fun id' => choose_of_none limit rfl⟩
  | gone driven =>
    cases answered
    rw [driven.ended e rfl] at suspended
    cases suspended

/-- Calls up to a choice of an option that leads to no node. -/
def losing : List (Call Unit) :=
  [.operation (.add (.ofNode "Start"
      [.addOption "a" [] "Nowhere", .addOption "b" [] "Start", .showOptions])) trivial,
    .operation .start trivial, .choose 0]

/-- After the choice of an option that leads to no node the options still wait, and the queue keeps
    no handle. -/
theorem callAll_awaits_losing :
    ∃ past s, (plain PresentationQueue.desk (.empty, ())).callAll 9 losing = .ok (past, s) ∧
      s.coordinator.suspension = some (.choices [0, 1]) ∧ s.host.1.awaitsChoice = false ∧
      s.Awaits past :=
  ⟨_, _, rfl, rfl, rfl, (callAll_awaits 9 (.memory .empty) trivial .default (fun l => l.id) .empty
    (.empty, ()) losing rfl).1⟩

end Session

end DialogueEngine
