import DialogueEngine.Proofs.Presenter.Passage

/-! # From one suspension to the next

What operations do to the suspension and to the handle that the queue keeps for it.

* `Session.Onward` — the suspension and its handle are as they were, or there is a later suspension,
  whose handle is kept.
* `Session.Goes` — a session that has come of another in this way.
* `Operation.perform_goes` — every operation leads to such a session.
-/

namespace DialogueEngine

open Session Coordinator

variable {τ α : Type} {s s' s'' : Session (Desk τ)}

namespace Session

/-- What has come of a session: the suspension is the same and its handle has not been touched, or
    it is over, and the handle of the next one is kept. -/
inductive Onward (s s' : Session (Desk τ)) : Prop
  | same (generation : s'.coordinator.generation = s.coordinator.generation)
    (suspension : s'.coordinator.suspension = s.coordinator.suspension)
    (continuation : s.coordinator.suspension = some .line →
      s'.host.1.continuation = s.host.1.continuation)
    (selector : ∀ ids, s.coordinator.suspension = some (.choices ids) →
      s'.host.1.selector = s.host.1.selector)
  | fresh (later : s.coordinator.generation < s'.coordinator.generation) (keeps : s'.Keeps)

namespace Onward

/-- The queue and the suspension are as they were. -/
theorem of_untouched (generation : s'.coordinator.generation = s.coordinator.generation)
    (suspension : s'.coordinator.suspension = s.coordinator.suspension)
    (queue : s'.host.1 = s.host.1) : s.Onward s' :=
  .same generation suspension (fun _ => by rw [queue]) (fun _ _ => by rw [queue])

theorem refl (s : Session (Desk τ)) : s.Onward s := .of_untouched rfl rfl rfl

theorem keeps (onward : s.Onward s') (keeps : s.Keeps) : s'.Keeps := by
  cases onward with
  | fresh later fresh => exact fresh
  | same generation suspension continuation selector =>
    refine ⟨fun h => ?_, fun ids h => ?_⟩
    · rw [suspension] at h
      rw [continuation h, generation, keeps.line h]
    · rw [suspension] at h
      rw [selector ids h, generation, keeps.choices ids h]

theorem trans (h : s.Onward s') (h' : s'.Onward s'') : s.Onward s'' := by
  cases h with
  | fresh later keeps =>
    refine .fresh ?_ (h'.keeps keeps)
    cases h' with
    | same generation _ _ _ => omega
    | fresh later' _ => omega
  | same generation suspension continuation selector =>
    cases h' with
    | fresh later keeps => exact .fresh (by omega) keeps
    | same generation' suspension' continuation' selector' =>
      refine .same (generation'.trans generation) (suspension'.trans suspension) (fun h => ?_)
        (fun ids h => ?_)
      · exact (continuation' (suspension.trans h)).trans (continuation h)
      · exact (selector' ids (suspension.trans h)).trans (selector ids h)

end Onward

/-- A session that has come of another, and is equipped as well. -/
structure Goes (s s' : Session (Desk τ)) : Prop where
  equipped : s'.Equipped
  onward : s.Onward s'

theorem Equipped.goes (equipped : s.Equipped) : s.Goes s := ⟨equipped, .refl s⟩

theorem Goes.trans (goes : s.Goes s') (goes' : s'.Goes s'') : s.Goes s'' :=
  ⟨goes'.equipped, goes.onward.trans goes'.onward⟩

/-- Only parts of the coordinator change that have to do with neither the suspension nor the
    queue. -/
theorem Equipped.aside (equipped : s.Equipped) {c : Coordinator (Desk τ)}
    (presenter : c.presenter = s.coordinator.presenter) (store : c.store.Leaves)
    (generation : c.generation = s.coordinator.generation)
    (suspension : c.suspension = s.coordinator.suspension) : s.Goes (s.withCoordinator c) :=
  ⟨⟨presenter.trans equipped.presenter, store⟩, .of_untouched generation suspension rfl⟩

/-! ## Drives and uses of handles -/

/-- The suspension has ended and the dialogue has been driven on. -/
structure Driven (s : Session (Desk τ)) (r : Answer (Desk τ) α) : Prop where
  goes : s.Goes r.2
  later : s.coordinator.generation < r.2.coordinator.generation
  ended : ∀ e, r.1 = .error e → r.2.coordinator.suspension = none

theorem drive_driven (limit : Nat) {c : Coordinator (Desk τ)} {host : Desk τ}
    (equipped : s.Equipped) (opens : s.coordinator.Opens c) :
    Ensures (drive limit ⟨c, host⟩) s.Driven := by
  have there : Equipped ⟨c, host⟩ := equipped.keeps opens.kept
  have driving : Driving c.generation (settle ⟨c, host⟩) :=
    ⟨⟨there.presenter, there.store⟩, Nat.le_refl _, opens.free, rfl⟩
  refine (run_rested limit driving).imp fun r ⟨rested, ended⟩ => ?_
  have later := Nat.lt_of_lt_of_le opens.later rested.bound
  exact ⟨⟨rested.equipped, .fresh later rested.keeps⟩, later, ended⟩

theorem halt_goes (equipped : s.Equipped) : s.Goes s.halt :=
  ⟨⟨equipped.presenter, equipped.store⟩,
    .fresh (Nat.lt_succ_self _) (keeps_of_unsuspended rfl)⟩

theorem goes_passage : Passage (τ := τ) Goes fun _ => True where
  refl goes := goes.equipped.goes
  trans := Goes.trans
  equipped := Goes.equipped
  commands _ := trivial
  aside here presenter store _ := here.equipped.aside presenter store
  write here queue := ⟨here.equipped.keeps (.refl _), .of_untouched rfl rfl queue⟩
  started _ here := ⟨here.equipped.keeps (.refl _), .same rfl rfl (fun _ => rfl) fun _ _ => rfl⟩
  halt here := halt_goes here.equipped
  drive limit _ _ here opens :=
    (drive_driven limit here.equipped opens).imp fun _ => Driven.goes

end Session

/-- An operation leaves the suspension and its handle alone, or comes to another suspension, whose
    handle is kept. -/
theorem Operation.perform_goes (limit : Nat) {op : Operation (Desk τ)} (leaves : op.Leaves)
    (equipped : s.Equipped) : Ensures (op.perform limit s) fun r => s.Goes r.2 := by
  refine goes_passage.perform limit leaves ?_ equipped.goes
  cases op with
  | equip act => exact ⟨trivial, fun t _ => (act t).all_trivial⟩
  | _ => simp only [Operation.Suits, implies_true]

end DialogueEngine
