import DialogueEngine.Proofs.Bare.Deeds
import DialogueEngine.Proofs.Machine.Allowance
import DialogueEngine.Proofs.Machine.Fetches
import DialogueEngine.Proofs.Session.Lifecycle

/-! # Runs come to an end

The drive does not count its turns, and whoever is handed something may let it go on at once. What
bounds it is the machine: a step ends with the present node, and where no path leads round a run
has an allowance that every yield is taken from.

* `yields` — what the machine has yielded in a record.
* `Course.driven` — the machine alone yields the same.
* `Course.spends` — what a session yields is taken from the allowance of its machine.
* `Recorded.Lasts`, `Recorded.Exhausts` — a drive that does not end has yielded as often as it
  was allowed to.
* `Session.runs_end` — from a start on.
-/

namespace DialogueEngine

variable {σ α β : Type}

/-! ## What a machine yields -/

def Happening.yielded? : Happening σ → Option Yield
  | .stepped (.ok y) => some y
  | _ => none

def yields (t : List (Happening σ)) : List Yield := t.filterMap Happening.yielded?

def Cue.renews : Cue σ → Bool
  | .enter _ => true
  | .add _ => true
  | _ => false

def Happening.renews (a : Happening σ) : Bool := a.cue?.any Cue.renews

theorem yields_append (t l : List (Happening σ)) : yields (t ++ l) = yields t ++ yields l :=
  List.filterMap_append

theorem Errand.writes_renews (e : Errand) (x : σ) : ∀ a ∈ e.writes x, a.renews = false := by
  intro a mem
  cases e with
  | machine => cases mem
  | handover | client => cases List.mem_singleton.mp mem; rfl

/-- What has been yielded is taken from an allowance, and the machine can yield the rest of it. -/
def Machine.Paid (p : Program) (n : Nat) (ys : List Yield) (m : Machine) : Prop :=
  ∃ k, ys.length + k ≤ n ∧ m.Affords p k

theorem Machine.Affords.paid {m : Machine} {p : Program} {n : Nat} (affords : m.Affords p n) :
    m.Paid p n [] :=
  ⟨n, Nat.le_of_eq (Nat.zero_add n), affords⟩

section Moves

variable {m m' : Moment σ} {l t u : List (Happening σ)} {p : Program} {n : Nat}

/-- What is yielded in a move is what the machine alone yields. -/
theorem Move.driven (move : Move m l m') (sound : m.Sound) :
    Bare.drive (cues l) m.bare = (yields l, m'.bare) := by
  obtain ⟨ys, driven, -⟩ := move.replays sound
  suffices same : (Bare.drive (cues l) m.bare).1 = yields l by
    rw [← same, driven]
  rcases move.label with rfl | ⟨a, rfl⟩
  · rfl
  · cases a with
    | stepped r =>
      generalize hl : [Happening.stepped r] = l at move
      cases move with
      | @answer due s s' r m store answered =>
        have next := Bare.next_eq (Coordinator.Flows.toFree sound).suspension answered
        have obeyed : Bare.drive [.next] s.bare = s.bare.obey .next := Bare.drive_one _ _
        simp only [Bare.obey, next] at obeyed
        cases hl
        change (Bare.drive [.next] s.bare).1 = _
        rw [obeyed]
        cases r <;> rfl
      | @write _ _ _ e x runs => cases e <;> cases hl
      | _ => cases hl
    | _ => rfl

theorem Course.driven (course : Course m t m') (sound : m.Sound) :
    Bare.drive (cues t) m.bare = (yields t, m'.bare) := by
  induction course with
  | nil => rfl
  | snoc before move ih =>
    rw [cues_append, Bare.drive_append, yields_append, ih, move.driven (before.sound sound)]

theorem Bare.next_steps (b : Bare σ) : b.machine.Steps (b.next.1, b.next.2.machine) :=
  b.machine.next_steps.run b.store b.host

/-- Whatever is done with a machine, but for a start, what it yields is taken from the
    allowance. -/
theorem Bare.obey_spends {b : Bare σ} {cue : Cue σ} (keeps : cue.renews = false)
    (affords : b.machine.Affords p n) :
    (b.obey cue).2.machine.Paid p n (b.obey cue).1 := by
  cases cue with
  | next =>
    obtain ⟨k, paid, rest⟩ := affords.steps b.next_steps
    simp only [Bare.obey]
    generalize b.next = stepped at paid rest ⊢
    obtain ⟨e | y, b'⟩ := stepped <;> exact ⟨k, paid, rest⟩
  | choose id =>
    refine Machine.Affords.paid ?_
    simp only [Bare.obey]
    cases chosen : b.machine.choose id with
    | error e => exact affords
    | ok m => exact affords.choose chosen
  | stop | load q | unload => exact Machine.Affords.paid (.inl ⟨rfl, rfl, Nat.zero_le n⟩)
  | change change | host x => exact affords.paid
  | enter node | add q => cases keeps

/-- What is yielded in a move is taken from the allowance. -/
theorem Move.spends (move : Move m l m') (sound : m.Sound) (keeps : ∀ a ∈ l, a.renews = false)
    (affords : m.bare.machine.Affords p n) : m'.bare.machine.Paid p n (yields l) := by
  have driven := move.driven sound
  rcases move.label with rfl | ⟨a, rfl⟩
  · rw [← (Prod.mk.inj driven).2]
    exact affords.paid
  · have keeps := keeps a List.mem_cons_self
    cases cued : a.cue? with
    | none =>
      rw [cues, List.filterMap_cons_none cued] at driven
      obtain ⟨none, same⟩ := Prod.mk.inj driven
      rw [← none, ← same]
      exact affords.paid
    | some cue =>
      rw [cues, List.filterMap_cons_some cued] at driven
      rw [Happening.renews, cued] at keeps
      obtain ⟨yielded, same⟩ := Prod.mk.inj ((Bare.drive_one cue m.bare).symm.trans driven)
      rw [← yielded, ← same]
      exact Bare.obey_spends keeps affords

/-- What a session yields is taken from the allowance of its machine. -/
theorem Course.spends (course : Course m u m') (sound : m.Sound)
    (keeps : ∀ a ∈ u, a.renews = false) (affords : m.bare.machine.Affords p n) :
    m'.bare.machine.Paid p n (yields u) := by
  induction course with
  | nil => exact affords.paid
  | @snoc t l m₁ m' before move ih =>
    obtain ⟨k, paid, affords⟩ := ih fun a mem => keeps a (List.mem_append_left _ mem)
    obtain ⟨k', paid', affords'⟩ := move.spends (before.sound sound)
      (fun a mem => keeps a (List.mem_append_right _ mem)) affords
    refine ⟨k', ?_, affords'⟩
    rw [yields_append, List.length_append]
    omega

/-- From a start on a session yields what the program allows at most. -/
theorem Course.yields_le {t₁ t₂ : List (Happening σ)} {node : String} (course : Course m t m')
    (sound : m.Sound) (parts : t = t₁ ++ .entered node :: (u ++ t₂))
    (keeps : ∀ a ∈ u, a.renews = false)
    (program : (Bare.drive (cues t₁) m.bare).2.machine.program = some p)
    (acyclic : p.Acyclic node) : (yields u).length ≤ p.allowance node := by
  obtain ⟨m₁, m₂, before, move, after⟩ := course.split parts
  obtain ⟨m₃, within, -⟩ := after.cut rfl
  have sound₁ := before.sound sound
  rw [before.driven sound] at program
  obtain ⟨resting, starting, entered⟩ := move.entered
  have affords : m₂.bare.machine.Affords p (p.allowance node) := by
    obtain ⟨mode₁, due₁, s₁⟩ := m₁
    obtain ⟨mode₂, due₂, s₂⟩ := m₂
    cases resting
    cases starting
    exact .enter program acyclic entered
  obtain ⟨k, paid, -⟩ := within.spends (move.sound sound₁) keeps affords
  exact Nat.le_of_add_right_le paid

end Moves

namespace Recorded

variable {n k limit : Nat}

/-! ## A drive that does not end -/

/-- The machine is only driven on, and a drive that does not end has yielded `n` times. -/
structure Lasts (n : Nat) (x : Recorded σ α) : Prop where
  keeps : ∀ a ∈ x.happenings, a.renews = false
  spent : x.outcome = .error .unfinished → n ≤ (yields x.happenings).length

namespace Lasts

theorem pure (a : α) : Lasts n (Pure.pure a : Recorded σ α) :=
  ⟨List.forall_mem_nil _, nofun⟩

theorem mono {x : Recorded σ α} (hx : Lasts n x) (le : k ≤ n) : Lasts k x :=
  ⟨hx.keeps, fun unfinished => Nat.le_trans le (hx.spent unfinished)⟩

/-- What comes next has to yield only what has not been yielded before. -/
theorem bind_yields {x : Recorded σ α} {f : α → Recorded σ β} (hx : Lasts n x)
    (hf : ∀ a, x.outcome = .ok a → Lasts (n - (yields x.happenings).length) (f a)) :
    Lasts n (x >>= f) := by
  cases outcome : x.outcome with
  | error e =>
    rw [bind_fault outcome]
    refine ⟨hx.keeps, fun unfinished => ?_⟩
    cases unfinished
    exact hx.spent outcome
  | ok a =>
    obtain ⟨keeps, spent⟩ := hf a outcome
    refine ⟨?_, fun unfinished => ?_⟩
    · rw [happenings_bind outcome]
      exact List.forall_mem_append.mpr ⟨hx.keeps, keeps⟩
    · rw [outcome_bind, outcome] at unfinished
      rw [happenings_bind outcome, yields_append, List.length_append]
      exact Nat.sub_le_iff_le_add'.mp (spent unfinished)

theorem bind {x : Recorded σ α} {f : α → Recorded σ β} (hx : Lasts n x)
    (hf : ∀ a, Lasts n (f a)) : Lasts n (x >>= f) :=
  hx.bind_yields fun a _ => (hf a).mono (Nat.sub_le _ _)

theorem noted {l : List (Happening σ)} {x : Recorded σ α} (keeps : ∀ a ∈ l, a.renews = false)
    (hx : Lasts n x) : Lasts n (note l >>= fun _ => x) :=
  bind ⟨keeps, nofun⟩ fun _ => hx

/-- A single thing that is written down. -/
theorem noted_one {a : Happening σ} {x : Recorded σ α} (keeps : a.renews = false)
    (hx : Lasts n x) : Lasts n (note [a] >>= fun _ => x) :=
  noted (List.forall_mem_singleton.mpr keeps) hx

theorem wake {place : Place} {s : Session σ} {h : Handle} {more : List (Happening σ)}
    {use : Coordinator.Use σ} (keeps : ∀ a ∈ more, a.renews = false) :
    Lasts n (Recorded.wake place s [.used h] more use) := by
  have used : ∀ a ∈ [(.used h : Happening σ)], a.renews = false :=
    List.forall_mem_singleton.mpr rfl
  cases use with
  | ignored => exact ⟨used, nofun⟩
  | refused e => exact ⟨used, nofun⟩
  | failed e => cases place <;> exact ⟨used, nofun⟩
  | resumed c =>
    cases place with
    | handover => exact ⟨List.forall_mem_append.mpr ⟨used, keeps⟩, nofun⟩
    | store => exact ⟨used, nofun⟩

theorem delay {s : Session σ} {h : Continuation} {d : Duration}
    {use : Coordinator.Use σ → Recorded σ (Answer σ Unit)} (hu : ∀ u, Lasts n (use u)) :
    Lasts n (Recorded.delay s h d use) := by
  unfold Recorded.delay
  split
  · exact hu _
  · cases s.coordinator.schedule? d h <;> exact ⟨List.forall_mem_singleton.mpr rfl, nofun⟩

/-- Host code inside an operation drives nothing. -/
theorem within (e : Errand) (act : Act σ α) (s : Session σ) :
    Lasts n (Recorded.within e act s) := by
  have picked (id : Nat) : ∀ a ∈ [(.picked id : Happening σ)], a.renews = false :=
    List.forall_mem_singleton.mpr rfl
  induction act generalizing s with
  | done a => exact noted_one rfl (pure _)
  | read k ih => exact noted_one rfl (ih s.host s)
  | write x k ih =>
    exact noted (List.forall_mem_cons.mpr ⟨rfl, e.writes_renews x⟩) (ih _)
  | resume h k ih => exact noted_one rfl ((wake (List.forall_mem_nil _)).bind fun r => ih r.1 r.2)
  | resumeAfter h d k ih =>
    exact noted_one rfl ((delay fun _ => wake (List.forall_mem_nil _)).bind fun r => ih r.1 r.2)
  | select h id k ih => exact noted_one rfl ((wake (picked id)).bind fun r => ih r.1 r.2)
  | isStale h k ih => exact noted_one rfl (ih _ s)

theorem nextYield (s : Session σ) : Lasts n (Recorded.nextYield s) :=
  (within .machine _ s).bind fun _ => noted_one rfl (pure _)

theorem handOver (s : Session σ) (y : Yield) (w : Suspension) (call : Nat → Act σ α) :
    Lasts n (Recorded.handOver s y w call) :=
  noted_one rfl (within .handover _ _)

theorem deliverCommand (s : Session σ) (cmd : Command) :
    Lasts n (Recorded.deliverCommand s cmd) := by
  unfold Recorded.deliverCommand
  split
  · exact pure _
  · split
    · split
      · exact ⟨List.forall_mem_nil _, fun h => by cases h⟩
      · exact (handOver s _ _ _).bind fun _ => pure _
    · exact noted_one rfl ((within .handover _ s).bind fun _ => pure _)
    · exact (handOver s _ _ _).bind fun _ => pure _

theorem deliverEnd (s : Session σ) : Lasts n (Recorded.deliverEnd s) := by
  refine noted_one rfl ((within .handover _ _).bind fun r => ?_)
  obtain ⟨e | ⟨⟩, s'⟩ := r
  · exact pure _
  · exact pure _

theorem deliver (s : Session σ) (y : Yield) : Lasts n (Recorded.deliver s y) := by
  cases y with
  | line l => exact (handOver s _ _ _).bind fun _ => pure _
  | choices cs => exact (handOver s _ _ _).bind fun _ => pure _
  | command cmd => exact deliverCommand s cmd
  | nodeStart node => exact noted_one rfl (pure _)
  | nodeComplete node => exact noted_one rfl (pure _)
  | dialogueComplete => exact deliverEnd s

theorem turn (s : Session σ) : Lasts n (Recorded.turn s) := by
  unfold Recorded.turn
  split
  · refine (nextYield s).bind fun r => ?_
    obtain ⟨e | y, s'⟩ := r
    · exact pure _
    · exact deliver s' y
  · exact pure _

end Lasts

/-- A yield is written down when it has been taken from the machine. -/
theorem nextYield_yields {s s' : Session σ} {y : Yield}
    (taken : (nextYield s).outcome = .ok (.ok y, s')) :
    1 ≤ (yields (nextYield s).happenings).length := by
  unfold nextYield at taken ⊢
  let act := s.coordinator.machine.next.onStore s.coordinator.store
  cases outcome : (within .machine act s).outcome with
  | error f =>
    rw [bind_fault outcome] at taken
    cases taken
  | ok r =>
    obtain ⟨⟨⟨r, m⟩, store⟩, s₁⟩ := r
    rw [outcome_bind, outcome] at taken
    cases taken
    rw [happenings_bind outcome, yields_append, List.length_append]
    exact Nat.le_add_left _ _

/-- After a turn that goes on something has been yielded. -/
theorem turn_yields {s s' : Session σ} (again : (turn s).outcome = .ok (.again, s')) :
    1 ≤ (yields (turn s).happenings).length := by
  unfold turn at again ⊢
  split at again
  · rename_i running
    rw [if_pos running]
    cases outcome : (nextYield s).outcome with
    | error f =>
      rw [bind_fault outcome] at again
      cases again
    | ok r =>
      rw [outcome_bind, outcome] at again
      obtain ⟨e | y, s₁⟩ := r
      · cases again
      · rw [happenings_bind outcome, yields_append, List.length_append]
        exact Nat.le_trans (nextYield_yields outcome) (Nat.le_add_right _ _)
  · cases again

/-- A drive that is broken off has yielded once for every turn. -/
theorem Lasts.run (limit : Nat) (s : Session σ) : Lasts limit (Recorded.run limit s) := by
  induction limit generalizing s with
  | zero => exact ⟨List.forall_mem_nil _, fun _ => Nat.zero_le _⟩
  | succ limit ih =>
    refine (Lasts.turn s).bind_yields fun r turned => ?_
    obtain ⟨_ | _ | e, s'⟩ := r
    · exact (ih s').mono (Nat.sub_le_of_le_add (Nat.add_le_add_left (turn_yields turned) limit))
    · exact Lasts.pure _
    · exact Lasts.noted_one rfl (Lasts.pure _)

/-! ## Operations that do not end -/

/-- What does not end, ends with a drive that has yielded as often as it was allowed to. -/
def Exhausts (limit : Nat) (x : Recorded σ α) : Prop :=
  x.outcome = .error .unfinished →
    ∃ t u, x.happenings = t ++ u ∧ (∀ a ∈ u, a.renews = false) ∧ limit ≤ (yields u).length

theorem Lasts.exhausts {x : Recorded σ α} (hx : Lasts limit x) : Exhausts limit x :=
  fun unfinished => ⟨[], x.happenings, rfl, hx.keeps, hx.spent unfinished⟩

namespace Exhausts

theorem finished {x : Recorded σ α} (h : x.outcome ≠ .error .unfinished) : Exhausts limit x :=
  fun unfinished => absurd unfinished h

theorem pure (a : α) : Exhausts limit (Pure.pure a : Recorded σ α) := finished nofun

theorem bind {x : Recorded σ α} {f : α → Recorded σ β} (hx : Exhausts limit x)
    (hf : ∀ a, Exhausts limit (f a)) : Exhausts limit (x >>= f) := by
  intro unfinished
  cases outcome : x.outcome with
  | error e =>
    rw [bind_fault outcome] at unfinished ⊢
    cases unfinished
    exact hx outcome
  | ok a =>
    rw [outcome_bind, outcome] at unfinished
    obtain ⟨t, u, parts, keeps, long⟩ := hf a unfinished
    refine ⟨x.happenings ++ t, u, ?_, keeps, long⟩
    rw [happenings_bind outcome, parts, List.append_assoc]

theorem noted {l : List (Happening σ)} {x : Recorded σ α} (hx : Exhausts limit x) :
    Exhausts limit (note l >>= fun _ => x) :=
  bind (finished nofun) fun _ => hx

theorem within (e : Errand) (act : Act σ α) (s : Session σ) :
    Exhausts limit (Recorded.within e act s) :=
  (Lasts.within e act s).exhausts

theorem run (s : Session σ) : Exhausts limit (Recorded.run limit s) := (Lasts.run limit s).exhausts

theorem follow (s : Session σ) (used more : List (Happening σ)) (use : Coordinator.Use σ) :
    Exhausts limit (Recorded.follow limit s used more use) := by
  cases use with
  | ignored => exact finished nofun
  | refused e => exact finished nofun
  | failed e => exact finished nofun
  | resumed c => exact noted (run _)

theorem delay {s : Session σ} {h : Continuation} {d : Duration}
    {use : Coordinator.Use σ → Recorded σ (Answer σ Unit)} (hu : ∀ u, Exhausts limit (use u)) :
    Exhausts limit (Recorded.delay s h d use) := by
  unfold Recorded.delay
  split
  · exact hu _
  · cases s.coordinator.schedule? d h <;> exact finished nofun

theorem between (act : Act σ α) (s : Session σ) :
    Exhausts limit (Recorded.between limit act s) := by
  induction act generalizing s with
  | done a => exact noted (pure _)
  | read k ih => exact noted (ih s.host s)
  | write x k ih => exact noted (ih _)
  | resume h k ih => exact noted ((follow _ _ _ _).bind fun r => ih r.1 r.2)
  | resumeAfter h d k ih => exact noted ((delay fun _ => follow _ _ _ _).bind fun r => ih r.1 r.2)
  | select h id k ih => exact noted ((follow _ _ _ _).bind fun r => ih r.1 r.2)
  | isStale h k ih => exact noted (ih _ s)

theorem changeStore (s : Session σ) (change : Change) :
    Exhausts limit (Recorded.changeStore s change) :=
  (within .client _ s).bind fun _ => noted (pure _)

theorem load (s : Session σ) (programs : List Program) :
    Exhausts limit (Recorded.load s programs) := by
  refine finished ?_
  rw [outcome_load, Session.load]
  split
  · nofun
  · cases Program.combine programs <;> nofun

theorem startAt (s : Session σ) (node : String) :
    Exhausts limit (Recorded.startAt limit s node) := by
  unfold Recorded.startAt
  split
  · exact finished nofun
  · split
    · exact finished nofun
    · refine noted ((within .handover _ _).bind fun r => ?_)
      obtain ⟨e | ⟨⟩, s'⟩ := r
      · exact noted (pure _)
      · exact run _

theorem proceed (s : Session σ) : Exhausts limit (Recorded.proceed limit s) := by
  unfold Recorded.proceed
  split
  · split
    · exact finished nofun
    · exact run _
  · exact finished nofun

theorem choose (s : Session σ) (id : Nat) : Exhausts limit (Recorded.choose limit s id) := by
  unfold Recorded.choose
  split
  · exact follow s _ _ _
  · exact finished nofun

theorem reset (s : Session σ) : Exhausts limit (Recorded.reset limit s) := by
  refine bind (finished nofun) fun r => (changeStore r.2 _).bind fun r => ?_
  obtain ⟨e | ⟨⟩, s'⟩ := r
  · exact pure _
  · exact startAt s' _

theorem prepare (s : Session σ) (programs : List Program) :
    Exhausts limit (Recorded.prepare limit s programs) := by
  have loads (s : Session σ) : Exhausts limit (Recorded.loadSome s programs) := by
    unfold Recorded.loadSome
    split
    · exact pure _
    · exact load s programs
  have starts (s : Session σ) : Exhausts limit (Recorded.startIfSet limit s) := by
    unfold Recorded.startIfSet
    split
    · exact startAt s _
    · exact pure _
  refine (changeStore s _).bind fun r => ?_
  obtain ⟨e | ⟨⟩, s'⟩ := r
  · exact pure _
  · refine (loads s').bind fun r => ?_
    obtain ⟨e | ⟨⟩, s''⟩ := r
    · exact pure _
    · exact starts s''

theorem resumeAll (s : Session σ) (due : List Continuation) :
    Exhausts limit (Recorded.resumeAll limit s due) := by
  induction due generalizing s with
  | nil => exact pure _
  | cons h due ih =>
    refine (follow s _ _ _).bind fun r => ?_
    obtain ⟨e | ⟨⟩, s'⟩ := r
    · exact pure _
    · exact ih s'

theorem update (s : Session σ) (delta : Duration) :
    Exhausts limit (Recorded.update limit s delta) := by
  unfold Recorded.update
  split
  · exact finished nofun
  · exact resumeAll _ _

theorem add (s : Session σ) (p : Program) :
    Exhausts limit (Recorded.perform limit s (.add p)) := by
  refine finished ?_
  rw [outcome_perform, Operation.perform, Session.add]
  cases s.coordinator.machine.add p <;> rintro ⟨⟩

theorem clear (s : Session σ) : Exhausts limit (Recorded.perform limit s .clear) := by
  refine finished ?_
  rw [outcome_perform, Operation.perform, Session.clear]
  split <;> rintro ⟨⟩

theorem perform (s : Session σ) (op : Operation σ) :
    Exhausts limit (Recorded.perform limit s op) := by
  cases op with
  | prepare programs => exact prepare s programs
  | load programs => exact load s programs
  | add p => exact add s p
  | start => exact startAt s _
  | startAt node => exact startAt s node
  | proceed => exact proceed s
  | choose id => exact choose s id
  | stop => exact finished nofun
  | reset => exact reset s
  | clear => exact clear s
  | update delta => exact update s delta
  | host act => exact (between act s).bind fun _ => pure _
  | readVariable name => exact ((within .client _ s).bind fun _ => pure _).bind fun _ => pure _
  | writeVariable name value => exact changeStore s _
  | clearVariables => exact changeStore s _
  | resetVariables => exact changeStore s _
  | equip act => exact (between _ s.lend).bind fun _ => pure _
  | setText | register | unregister | drainEvents => exact finished nofun

theorem history (ops : List (Operation σ)) (s : Session σ) :
    Exhausts limit (Recorded.history limit ops s) := by
  induction ops generalizing s with
  | nil => exact noted (pure _)
  | cons op ops ih => exact noted ((perform s op).bind fun r => ih r.2)

end Exhausts

end Recorded

namespace Session

/-- A step fetches at most one instruction more than are left of the present node: with that bound
    it comes to what it comes to without one. And where no path from the node of a start leads
    round, a session yields no more than one for the end, one for each instruction of the nodes
    that can be reached, and two for each of these nodes, whatever the presenter, the store, the
    handlers and the host do, as long as there is no other start and the program stays the same. So
    no drive needs more turns. -/
theorem runs_end (presenter : Presenter σ) (store : Store σ) (settings : Settings)
    (text : Line → String) (commands : CommandTable σ) (host : σ) (limit : Nat)
    (ops : List (Operation σ)) :
    (∀ (m : Machine) (n : Nat), m.left < n →
      Machine.Procedure.nextWithin n m = Machine.handOut m.next) ∧
    let s := opening presenter store settings text commands host
    let t := (Recorded.history limit ops s).happenings
    ∀ t₁ u t₂ node p, t = t₁ ++ .entered node :: (u ++ t₂) → (∀ a ∈ u, a.renews = false) →
      (Bare.drive (cues t₁) s.bare).2.machine.program = some p → p.Acyclic node →
      (yields u).length ≤ p.allowance node ∧
      (t₂ = [] → p.allowance node < limit → s.performAll limit ops ≠ .error .unfinished) := by
  refine ⟨fun m n enough => Machine.Procedure.nextWithin_eq enough, ?_⟩
  intro s t t₁ u t₂ node p parts keeps program acyclic
  have sound := opening_sound presenter store settings text commands host
  obtain ⟨m', course, -⟩ := Leads.history limit ops s
  have bounded : (yields u).length ≤ p.allowance node :=
    course.yields_le sound parts keeps program acyclic
  refine ⟨bounded, fun last enough unfinished => ?_⟩
  subst last
  rw [← Recorded.outcome_history] at unfinished
  obtain ⟨v, w, parts', keeps', long⟩ := Recorded.Exhausts.history ops s unfinished
  -- the drive that is broken off begins after the last start
  have behind : w <:+ u := by
    rw [List.append_nil] at parts
    have renewed : .entered node ∉ w := fun mem => by cases keeps' _ mem
    rcases List.suffix_or_suffix_of_suffix ⟨v, parts'.symm⟩ ⟨t₁, parts.symm⟩ with inside | around
    · rcases List.suffix_cons_iff.mp inside with rfl | inside
      · exact absurd List.mem_cons_self renewed
      · exact inside
    · exact absurd (around.subset List.mem_cons_self) renewed
  have most := (behind.sublist.filterMap Happening.yielded?).length_le
  exact absurd (Nat.le_trans long (Nat.le_trans most bounded)) (Nat.not_le_of_lt enough)

/-- Two nodes, of which one leads to the other. -/
def errand : Program :=
  ⟨"errand", Dict.ofList [("Start", ⟨[], [.line "a" [], .runNode "Inn"]⟩),
    ("Inn", ⟨[], [.line "b" []]⟩)]⟩

theorem errand_leadsTo {name target : String} (leads : errand.LeadsTo name target) :
    name = "Start" ∧ target = "Inn" := by
  obtain ⟨node, found, i, mem, leads⟩ := leads
  have entries : errand.nodes.entries = [("Inn", ⟨[], [.line "b" []]⟩),
      ("Start", ⟨[], [.line "a" [], .runNode "Inn"]⟩)] := by decide
  have listed := Dict.mem_entries.mpr found
  rw [entries] at listed
  simp only [List.mem_cons, Prod.mk.injEq, List.not_mem_nil, or_false] at listed
  rcases listed with ⟨rfl, rfl⟩ | ⟨rfl, rfl⟩
  · cases List.mem_singleton.mp mem
    cases leads
  · simp only [List.mem_cons, List.not_mem_nil, or_false] at mem
    rcases mem with rfl | rfl
    · cases leads
    · cases leads
      exact ⟨rfl, rfl⟩

theorem errand_acyclic : errand.Acyclic "Start" := by
  intro name _ loop
  obtain ⟨_, first, -⟩ := Relation.TransGen.head'_iff.mp loop
  obtain ⟨_, -, last⟩ := Relation.TransGen.tail'_iff.mp loop
  have same := (errand_leadsTo first).1.symm.trans (errand_leadsTo last).2
  exact absurd same (by decide)

/-- A presenter that never waits for a line. -/
def hasty : Presenter Unit :=
  { Presenter.waiting with showLine := fun _ _ _ => .done (.ok .proceed) }

theorem runs_end_errand :
    let t := (Recorded.history 9 [.add errand, .start] (plain hasty ())).happenings
    t = t.take 3 ++ .entered "Start" :: (t.drop 4 ++ []) ∧ errand.Acyclic "Start" ∧
      errand.allowance "Start" < 9 ∧ (yields (t.drop 4)).length ≤ errand.allowance "Start" ∧
      (plain hasty ()).performAll 9 [.add errand, .start] ≠ .error .unfinished := by
  intro t
  have parts : t = t.take 3 ++ .entered "Start" :: (t.drop 4 ++ []) := rfl
  have keeps : ∀ a ∈ t.drop 4, a.renews = false := by
    have none : (t.drop 4).any Happening.renews = false := rfl
    exact fun a mem => eq_false_of_ne_true (List.any_eq_false.mp none a mem)
  have enough : errand.allowance "Start" < 9 :=
    Nat.lt_of_le_of_lt (errand.allowance_le "Start") (by decide)
  obtain ⟨most, ends⟩ := (runs_end hasty (.memory .empty) .default (fun l => l.id) .empty () 9
    [.add errand, .start]).2 _ _ _ _ _ parts keeps rfl errand_acyclic
  exact ⟨parts, errand_acyclic, enough, most, ends rfl enough⟩

end Session

end DialogueEngine
