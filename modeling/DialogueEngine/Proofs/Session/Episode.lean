import DialogueEngine.Proofs.Session.Accounts

/-! # One run of a dialogue, as the host sees it

The record of a session is cut at its starts. Of what happens from one start to the next the host
sees the events, which are a beginning of one word of the grammar, and its presenter is called
once at the start and once at the end, if there is one.

* `Episode` — what is seen from one start to the next.
* `Presenter.noting` — every presenter can write a journal of its calls.
* `Session.performAll_episodes` — whatever a host does.
-/

namespace DialogueEngine

variable {σ α : Type}

namespace Hears

variable {t : List (Happening σ)} {calls : List PresenterCall}

/-- The presenter is told of no start but those in the record, and of the end as often as the host
    is. -/
theorem ends (hears : Hears t calls) (unstarted : ∀ a ∈ t, ¬ a.IsStart) :
    (∀ node, .started node ∉ calls) ∧
      calls.count .completed = (told t).count .dialogueComplete := by
  induction hears with
  | nil => exact ⟨nofun, rfl⟩
  | @cons a t calls more heard hears ih =>
    obtain ⟨rest, count⟩ := ih fun b hb => unstarted b (List.mem_cons_of_mem a hb)
    have here : ¬ a.IsStart := unstarted a List.mem_cons_self
    -- every call but that of a start is the delivery of something that the host is told of as well
    have head : (∀ node, .started node ∉ calls) ∧
        calls.count .completed = (told [a]).count .dialogueComplete := by
      cases heard with
      | started node => exact absurd trivial here
      | silent _ undelivered =>
        have none : deliveries [a] = [] := by simp only [deliveries, List.filterMap, undelivered]
        rw [told_nil_of none]
        exact ⟨nofun, rfl⟩
      | _ => exact ⟨by simp, rfl⟩
    refine ⟨fun node mem => ?_, ?_⟩
    · rcases List.mem_append.mp mem with mem | mem
      · exact head.1 node mem
      · exact rest node mem
    · rw [List.count_append, head.2, count, ← List.count_append, ← told_append]
      rfl

theorem none (hears : Hears t calls) (unstarted : ∀ a ∈ t, ¬ a.IsStart)
    (undelivered : deliveries t = []) : calls = [] := by
  induction hears with
  | nil => rfl
  | @cons a t calls more heard hears ih =>
    have here : ¬ a.IsStart := unstarted a List.mem_cons_self
    have parts : deliveries [a] ++ deliveries t = [] :=
      (deliveries_append [a] t).symm.trans undelivered
    obtain ⟨first, rest⟩ := List.append_eq_nil_iff.mp parts
    rw [ih (fun b hb => unstarted b (List.mem_cons_of_mem a hb)) rest, List.append_nil]
    cases heard with
    | started node => exact absurd trivial here
    | silent _ _ => rfl
    | handled _ _ => rfl
    | nodeStart _ _ => rfl
    | nodeComplete _ _ => rfl
    | line _ _ => cases first
    | choices _ _ => cases first
    | command _ _ => cases first
    | completed _ => cases first

end Hears

/-- What is seen of what happens after a start at a node and before the next one. -/
structure Episode (node : String) (u : List (Happening σ)) : Prop where
  events : Lifecycle node (told u)
  /-- The end is told once at most, and it is the last that is told. -/
  complete_last : ∀ before after, told u = before ++ .dialogueComplete :: after →
    .dialogueComplete ∉ before ∧ after = []
  /-- The presenter is told of the start first, and only once, and of the end if the host is. -/
  calls : ∀ calls, Hears (.entered node :: u) calls →
    ∃ rest, calls = .started node :: rest ∧ (∀ other, .started other ∉ rest) ∧
      rest.count .completed = (told u).count .dialogueComplete
  /-- After a stop, a reset or an error nothing is handed over any more. -/
  halted : ∀ u₁ e u₂, u = u₁ ++ .halted e :: u₂ → deliveries u₂ = []
  /-- The presenter is not told of the end where one of these has come before it. -/
  cut_short : ∀ u₁ e u₂, u = u₁ ++ .halted e :: u₂ → .dialogueComplete ∉ told u₁ →
    ∀ calls, Hears (.entered node :: u) calls → .completed ∉ calls

/-- After a dialogue has been ended nothing is handed over up to the next start. -/
theorem Course.halted {m m' : Moment σ} {t u : List (Happening σ)} {e : Option EngineError}
    (course : Course m (t ++ .halted e :: u) m') (sound : m.Sound)
    (unstarted : ∀ a ∈ u, ¬ a.IsStart) : deliveries u = [] := by
  obtain ⟨n, n', before, move, after⟩ := course.split rfl
  obtain ⟨resting, completed⟩ := move.halted
  have idle : n'.Idle := ⟨resting, by rw [completed]; nofun⟩
  exact (after.idle (move.sound (before.sound sound)) unstarted idle).1

theorem Course.episode {m m' : Moment σ} {t u : List (Happening σ)} {node : String}
    (course : Course m (t ++ .entered node :: u) m') (sound : m.Sound)
    (unstarted : ∀ a ∈ u, ¬ a.IsStart) : Episode node u := by
  have lifecycle := course.lifecycle sound unstarted
  have calls : ∀ calls, Hears (.entered node :: u) calls →
      ∃ rest, calls = .started node :: rest ∧ (∀ other, .started other ∉ rest) ∧
        rest.count .completed = (told u).count .dialogueComplete := by
    intro calls hears
    cases hears with
    | cons heard hears =>
      cases heard with
      | started node => exact ⟨_, rfl, hears.ends unstarted⟩
      | silent unstarted _ => exact absurd trivial unstarted
  have halted : ∀ u₁ e u₂, u = u₁ ++ .halted e :: u₂ → deliveries u₂ = [] := by
    intro u₁ e u₂ parts
    -- the course is cut again where it was halted
    subst parts
    rw [← List.cons_append, ← List.append_assoc] at course
    exact course.halted sound fun a ha =>
      unstarted a (List.mem_append_right _ (List.mem_cons_of_mem _ ha))
  refine ⟨lifecycle, fun before after parts => ?_, calls, halted, ?_⟩
  · rw [parts] at lifecycle
    exact lifecycle.complete_last
  · intro u₁ e u₂ parts unfinished all hears completed
    -- the host is told of no end before the halt, and of nothing after it
    obtain ⟨rest, rfl, _, count⟩ := calls all hears
    have none : deliveries (.halted e :: u₂) = [] := halted u₁ e u₂ parts
    rw [parts, told_append, told_nil_of none, List.append_nil,
      List.count_eq_zero.mpr unfinished, List.count_eq_zero] at count
    rcases List.mem_cons.mp completed with first | later
    · cases first
    · exact count later

theorem Machine.Holds.waits {m : Machine} {w : Suspension} (holds : m.Holds w) :
    m.queue = [] ∧ m.state ≠ .stopped := by
  cases w with
  | line => exact ⟨Machine.Ready.queue holds, by rw [Machine.Ready.state holds]; nofun⟩
  | command => exact ⟨Machine.Ready.queue holds, by rw [Machine.Ready.state holds]; nofun⟩
  | choices ids =>
    obtain ⟨cs, offers, _⟩ := holds
    exact ⟨offers.queue, by rw [offers.state]; nofun⟩

/-! ## A presenter with a journal -/

/-- Host code on a part of the state, with a journal beside it. -/
def Act.aside (act : Act σ α) : Act (σ × List PresenterCall) α :=
  act.focus Prod.fst fun x w => (x, w.2)

def Act.noting (call : PresenterCall) (act : Act σ α) : Act (σ × List PresenterCall) α :=
  .read fun w => .write (w.1, w.2 ++ [call]) act.aside

def Presenter.noting (p : Presenter σ) : Presenter (σ × List PresenterCall) where
  started node := (p.started node).noting (.started node)
  completed := p.completed.noting .completed
  showChoices cs text h := (p.showChoices cs text h).noting (.choices cs)
  showLine l text k := (p.showLine l text k).noting (.line l)
  runCommand cmd k := (p.runCommand cmd k).noting (.command cmd)

theorem Act.aside_apart (act : Act σ α) : act.aside.Apart Prod.snd := by
  intro l
  induction act with
  | done a => exact rfl
  | read k ih => exact fun w _ => ih w.1
  | write x k ih =>
    intro w hw
    change k.aside.Writes Prod.snd w.2 l
    rw [hw]
    exact ih
  | resume h k ih | resumeAfter h d k ih | select h id k ih | isStale h k ih => exact fun r => ih r

theorem Act.noting_writes (call : PresenterCall) (act : Act σ α) (l : List PresenterCall) :
    (act.noting call).Writes Prod.snd l (l ++ [call]) := by
  intro w hw
  change act.aside.Writes Prod.snd (w.2 ++ [call]) (l ++ [call])
  rw [hw]
  exact act.aside_apart _

/-- Every presenter can write a journal of its calls. -/
theorem Presenter.noting_journals (p : Presenter σ) : p.noting.Journals Prod.snd where
  started _ l := Act.noting_writes _ _ l
  completed l := Act.noting_writes _ _ l
  choices _ _ _ l := Act.noting_writes _ _ l
  line _ _ _ l := Act.noting_writes _ _ l
  command _ _ l := Act.noting_writes _ _ l

/-! ## Whatever a host does -/

namespace Session

variable (presenter : Presenter σ) (store : Store σ) (settings : Settings) (text : Line → String)
  (commands : CommandTable σ) (host : σ)

/-- Before the first start nothing is handed over, and from each start to the next the host sees
    what an episode shows, whatever it does and whatever presenter, store, texts and handlers it
    has. The events that it takes out, with those that are left, are the events of the record, and
    the calls of its presenter are those of the record. While the dialogue goes on the last event
    is the start of the present node. -/
theorem performAll_episodes (limit : Nat) (ops : List (Operation σ)) :
    let start := opening presenter store settings text commands host
    let t := (Recorded.history limit ops start).happenings
    (∀ t₁ t₂, t = t₁ ++ t₂ → (∀ a ∈ t₁, ¬ a.IsStart) →
      deliveries t₁ = [] ∧ ∀ calls, Hears t₁ calls → calls = []) ∧
    (∀ t₁ node u t₂, t = t₁ ++ .entered node :: (u ++ t₂) → (∀ a ∈ u, ¬ a.IsStart) →
      Episode node u) ∧
    ∀ s, start.performAll limit ops = .ok s →
      start.drained limit ops ++ s.coordinator.events = told t ∧
      (∀ log : σ → List PresenterCall, start.Journals log → (∀ op ∈ ops, op.Apart log) →
        ∃ calls, Hears t calls ∧ log s.host = log host ++ calls) ∧
      (s.coordinator.phase = .running → ∃ node, s.coordinator.machine.currentNode = some node ∧
        (told t).getLast? = some (.nodeStart node)) := by
  intro start t
  have sound : Moment.Sound ⟨.resting, [], start⟩ :=
    opening_sound presenter store settings text commands host
  have idle : Moment.Idle ⟨.resting, [], start⟩ := ⟨rfl, nofun⟩
  obtain ⟨m', course, ends⟩ := Leads.history limit ops start
  refine ⟨fun t₁ t₂ parts unstarted => ?_, fun t₁ node u t₂ parts unstarted => ?_, fun s done => ?_⟩
  · obtain ⟨n, first, _⟩ := course.cut parts
    have undelivered := (first.idle sound unstarted idle).1
    exact ⟨undelivered, fun calls hears => hears.none unstarted undelivered⟩
  · rw [← List.cons_append, ← List.append_assoc] at parts
    obtain ⟨n, first, _⟩ := course.cut parts
    exact first.episode sound unstarted
  · have accounts (log : σ → List PresenterCall) := performAll_accounts log done
    refine ⟨?_, fun log journals apart => (accounts log).calls apart journals, fun running => ?_⟩
    · exact (accounts fun _ => []).events
    · have course := Course.of_performAll done
      rcases course.present sound idle with ⟨_, notRunning⟩ | ⟨before, first, events, parts, trails⟩
      · exact absurd running notRunning
      · rcases course.sound sound with ended | ⟨w, held⟩
        · exact absurd running ended.notRunning
        -- what waits has left nothing in the queue, so the last that was told is where it is
        · obtain ⟨queue, waits⟩ := held.machine.waits
          obtain ⟨node, present, last⟩ := (trails.2 running).getLast? queue waits
          refine ⟨node, present, ?_⟩
          rw [parts, List.getLast?_append, last]
          rfl

/-- A line that waits is gone past, the dialogue ends, and it is started again: the presenter is
    told of two starts and one end. -/
theorem performAll_episodes_twice :
    let start := plain (Presenter.waiting : Presenter Unit).noting ((), [])
    let ops := [.add (.ofNode "Start" [.line "a" []]), .start, .drainEvents, .proceed, .start]
    let t := (Recorded.history 9 ops start).happenings
    ∃ s, start.performAll 9 ops = .ok s ∧
      start.drained 9 ops = [.nodeStart "Start"] ∧
      s.coordinator.events = [.nodeComplete "Start", .dialogueComplete, .nodeStart "Start"] ∧
      s.host.2 = [.started "Start", .line ⟨"a", []⟩, .completed, .started "Start", .line ⟨"a", []⟩] ∧
      start.drained 9 ops ++ s.coordinator.events = told t ∧
      ∃ calls, Hears t calls ∧ s.host.2 = [] ++ calls := by
  intro start ops t
  refine ⟨_, rfl, rfl, rfl, rfl, ?_⟩
  have journals : start.Journals Prod.snd := ⟨Presenter.noting_journals _, trivial, nofun⟩
  have apart : ∀ op ∈ ops, op.Apart Prod.snd := by simp [ops, Operation.Apart]
  have seen := (performAll_episodes Presenter.waiting.noting (.memory .empty) .default
    (fun l => l.id) .empty ((), []) 9 ops).2.2 _ rfl
  exact ⟨seen.1, seen.2.1 Prod.snd journals apart⟩

end Session

end DialogueEngine
