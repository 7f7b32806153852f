import DialogueEngine.Proofs.Presenter.Calls
import DialogueEngine.Proofs.Presenter.Prompts

/-! # What the queue tells of a dialogue

The queue tells that a prompt is waited for as long as it keeps a handle of it. It hears of what it
shows and of the end of a dialogue, but not of an operation that goes on without it, stops, or starts
again. So it tells of a prompt that is waited for, and of one that an operation has left.

* `Exchange`, `Session.exchanges` — calls, with the sessions before and after.
* `Prompt.SpentBy`, `Prompt.Waits`, `Prompt.Left` — calls that use the handle, a prompt that is
  waited for, and one that an operation has left.
* `Session.perform_reported`, `Session.proceed_byQueue`, `Session.choose_byQueue` — what one call does
  to what the queue tells.
* `Session.exchanges_awaited` — what the queue tells after any calls.
-/

namespace DialogueEngine

variable {τ : Type}

open Coordinator

/-! ## Calls with their sessions -/

/-- A call that has been answered, with the session before and after it. -/
structure Exchange (τ : Type) where
  before : Session (Desk τ)
  call : Call τ
  answer : Except EngineError Bool
  after : Session (Desk τ)

namespace Exchange

def called (x : Exchange τ) : Called τ := ⟨x.before.coordinator.generation, x.call, x.answer⟩

def shown (x : Exchange τ) : List PresentationEvent :=
  x.after.host.1.events.drop x.before.host.1.events.length

/-- The call is an operation, which does without the queue. -/
def IsOperation (x : Exchange τ) : Prop := ∃ op leaves, x.call = .operation op leaves

end Exchange

/-- Calls, one after the other, whatever they answer. -/
def Session.exchanges (limit : Nat) : List (Call τ) → Session (Desk τ) →
    Except Fault (List (Exchange τ) × Session (Desk τ))
  | [], s => .ok ([], s)
  | call :: calls, s =>
    match call.perform limit s with
    | .error f => .error f
    | .ok (answer, s') =>
      (exchanges limit calls s').map fun r => (⟨s, call, answer, s'⟩ :: r.1, r.2)

/-- Handlers that come with the call leave the queue alone. -/
def Call.Suits : Call τ → Prop
  | .operation (.register _ h) _ => h.Leaves
  | .operation (.equip act) _ => ∀ t : CommandTable (Desk τ), t.Leaves →
    (act t).All fun r => r.2.Leaves
  | _ => True

namespace Prompt

/-- The call goes on from the prompt by the queue, which gives its handle away. The handle of
    options is kept if the id is not offered. -/
def SpentBy : Prompt → Exchange τ → Prop
  | .line, x => x.call = .proceed
  | .choices, x =>
    (∃ id, x.call = .choose id) ∧ ∀ id, x.answer ≠ .error (.runtime (.invalidOption id))

/-- After some calls the dialogue is suspended on the prompt, and the queue has not lost its handle
    since. -/
def Waits (p : Prompt) (past : List (Exchange τ)) (s : Session (Desk τ)) : Prop :=
  p.On s.coordinator.suspension ∧ (p = .choices → ∀ x ∈ past,
    x.before.coordinator.generation = s.coordinator.generation → ¬ x.called.Loses)

/-- An operation has left the prompt, and since then the queue has shown no other one, the dialogue
    has not come to its end, and the handle has not been used. -/
inductive Left (p : Prompt) : List (Exchange τ) → Prop
  /-- The prompt stood before the operation, or has been shown in it. After it the dialogue is not
      suspended on it. -/
  | leaves {past : List (Exchange τ)} {x : Exchange τ} (operation : x.IsOperation)
    (stands : p.Stands (p.Waits past x.before) x.shown)
    (off : ¬ p.On x.after.coordinator.suspension) : Left p (past ++ [x])
  | stays {past : List (Exchange τ)} {x : Exchange τ} (left : Left p past)
    (unspent : ¬ p.SpentBy x) (undecided : ∀ e ∈ x.shown, ¬ p.DecidedBy e) : Left p (past ++ [x])

variable {p p' : Prompt} {past : List (Exchange τ)} {x : Exchange τ}

theorem Left.concat (left : p.Left (past ++ [x])) :
    (x.IsOperation ∧ p.Stands (p.Waits past x.before) x.shown) ∨
      (p.Left past ∧ ¬ p.SpentBy x ∧ ∀ e ∈ x.shown, ¬ p.DecidedBy e) := by
  generalize all : past ++ [x] = l at left
  cases left with
  | leaves operation stands _ =>
    obtain ⟨rfl, last⟩ := List.append_inj' all rfl
    cases last
    exact .inl ⟨operation, stands⟩
  | stays left unspent undecided =>
    obtain ⟨rfl, last⟩ := List.append_inj' all rfl
    cases last
    exact .inr ⟨left, unspent, undecided⟩

theorem not_left_nil (p : Prompt) : ¬ p.Left ([] : List (Exchange τ)) := by
  intro left
  generalize none : ([] : List (Exchange τ)) = l at left
  cases left with
  | leaves _ _ _ => exact absurd none (by simp)
  | stays _ _ _ => exact absurd none (by simp)

theorem not_spentBy_of_operation (operation : x.IsOperation) : ¬ p.SpentBy x := by
  obtain ⟨op, leaves, call⟩ := operation
  cases p with
  | line =>
    intro spent
    cases call.symm.trans spent
  | choices =>
    rintro ⟨⟨id, spent⟩, _⟩
    cases call.symm.trans spent

theorem spentBy_proceed (proceed : x.call = .proceed) : p.SpentBy x ↔ p = .line := by
  cases p with
  | line => exact iff_of_true proceed rfl
  | choices =>
    refine iff_of_false ?_ nofun
    rintro ⟨⟨id, choose⟩, _⟩
    cases proceed.symm.trans choose

theorem spentBy_choose {id : Nat} (choose : x.call = .choose id)
    (valid : ∀ id, x.answer ≠ .error (.runtime (.invalidOption id))) :
    p.SpentBy x ↔ p = .choices := by
  cases p with
  | line => exact iff_of_false (fun proceed => by cases choose.symm.trans proceed) nofun
  | choices => exact iff_of_true ⟨⟨id, choose⟩, valid⟩ rfl

/-- The queue gives the handle of a prompt away. -/
def release : Prompt → Session (Desk τ) → Session (Desk τ)
  | .line, s => s.withoutContinuation
  | .choices, s => s.withoutSelector

variable {s : Session (Desk τ)}

theorem coordinator_release (p : Prompt) : (p.release s).coordinator = s.coordinator := by
  cases p <;> rfl

theorem events_release (p : Prompt) : (p.release s).host.1.events = s.host.1.events := by
  cases p <;> rfl

theorem awaited_release (p p' : Prompt) :
    p.awaited (p'.release s).host.1 = true ↔ p.awaited s.host.1 = true ∧ p ≠ p' := by
  cases p <;> cases p' <;> simp [awaited, release, Session.withoutContinuation,
    Session.withoutSelector, PresentationQueue.awaitsContinue, PresentationQueue.awaitsChoice]

theorem release_orderly (orderly : s.Orderly) (p : Prompt) : (p.release s).Orderly := by
  obtain ⟨equipped, commands, handle⟩ := orderly
  cases p with
  | line => exact ⟨equipped.keeps (.refl _), commands, .inl fun k none => by cases none⟩
  | choices => exact ⟨equipped.keeps (.refl _), commands, handle⟩

end Prompt

/-! ## What a call does to what the queue tells -/

namespace Exchange

/-- What the queue tells after the call follows from what it has shown, if the call has not used the
    handle. -/
structure Reported (x : Exchange τ) : Prop where
  orderly : x.after.Orderly
  awaited : ∀ p : Prompt, p.awaited x.after.host.1 = true ↔
    p.Stands (p.awaited x.before.host.1 = true ∧ ¬ p.SpentBy x) x.shown

/-- So it is after a call of the queue. This one rests on a prompt that it has shown, and does not
    end the suspension on another one than its own. -/
structure ByQueue (x : Exchange τ) : Prop extends Reported x where
  rests : ∀ p : Prompt, (∃ e ∈ x.shown, p.ShownBy e) → p.On x.after.coordinator.suspension
  keeps : ∀ p : Prompt, ¬ p.SpentBy x → p.On x.before.coordinator.suspension →
    p.On x.after.coordinator.suspension

variable {x : Exchange τ} {es : List PresentationEvent}

theorem shown_eq (events : x.after.host.1.events = x.before.host.1.events ++ es) :
    x.shown = es := by
  rw [shown, events, List.drop_left]

/-- Nothing has been shown, and no handle given away. -/
theorem ByQueue.of_untouched (orderly : x.before.Orderly) (untouched : x.after = x.before)
    (unspent : ∀ p : Prompt, p.awaited x.before.host.1 = true → ¬ p.SpentBy x) : x.ByQueue := by
  have none : x.shown = [] := shown_eq (by rw [untouched, List.append_nil])
  refine ⟨⟨untouched ▸ orderly, fun p => ?_⟩, fun p shown => ?_, fun p _ on => ?_⟩
  · rw [none, untouched]
    exact ⟨fun stood => ⟨stood, unspent p stood⟩, And.left⟩
  · exact (p.not_shown_nil (none ▸ shown)).elim
  · rwa [untouched]

/-- The handle has been given away, and the dialogue perhaps driven on. -/
theorem ByQueue.of_released {p : Prompt} (spent : ∀ p' : Prompt, p'.SpentBy x ↔ p' = p)
    (orderly : x.after.Orderly) (shows : (p.release x.before).host.1.Shows es x.after.host.1)
    (rests : ∀ p' : Prompt, (∃ e ∈ es, p'.ShownBy e) → p'.On x.after.coordinator.suspension)
    (keeps : ∀ p' : Prompt, p' ≠ p → p'.On x.before.coordinator.suspension →
      p'.On x.after.coordinator.suspension) : x.ByQueue := by
  have shown : x.shown = es := shown_eq (by rw [shows.events, p.events_release])
  refine ⟨⟨orderly, fun p' => ?_⟩, fun p' some => rests p' (shown ▸ some), fun p' unspent => ?_⟩
  · rw [shows.awaited p', shown, propext (Prompt.awaited_release p' p), spent]
  · exact keeps p' fun own => unspent ((spent p').mpr own)

/-- The handle has been given away in vain. -/
theorem ByQueue.of_ignored {p : Prompt} (spent : ∀ p' : Prompt, p'.SpentBy x ↔ p' = p)
    (orderly : (p.release x.before).Orderly) (released : x.after = p.release x.before) :
    x.ByQueue := by
  have shows : (p.release x.before).host.1.Shows [] x.after.host.1 := by
    rw [released]
    exact .refl _
  refine .of_released spent (released ▸ orderly) shows
    (fun p' shown => (p'.not_shown_nil shown).elim) fun p' _ on => ?_
  rwa [released, p.coordinator_release]

end Exchange

theorem Call.Suits.operation {op : Operation (Desk τ)} {leaves : op.Leaves}
    (suits : (Call.operation op leaves).Suits) : op.Suits CommandTable.Leaves := by
  cases op with
  | register name h => exact fun t kept => CommandTable.insert_leaves kept suits
  | unregister name => exact fun t kept => CommandTable.remove_leaves kept name
  | equip act => exact ⟨CommandTable.empty_leaves, suits⟩
  | _ => trivial

namespace Session

variable {s s' : Session (Desk τ)} {past : List (Exchange τ)}

theorem perform_reported (limit : Nat) {op : Operation (Desk τ)} {leaves : op.Leaves}
    (suits : (Call.operation op leaves).Suits) (orderly : s.Orderly) :
    Ensures ((Call.operation op leaves).perform limit s) fun r =>
      Exchange.Reported ⟨s, .operation op leaves, r.1, r.2⟩ := by
  have performed := presents_passage.perform limit leaves suits.operation orderly.presents
  refine performed.map fun r ⟨orderly, es, shows⟩ => ⟨orderly, fun p => ?_⟩
  rw [Exchange.shown_eq shows.events, shows.awaited p]
  have unspent := Prompt.not_spentBy_of_operation (p := p)
    (x := ⟨s, .operation op leaves, r.1.map fun _ => true, r.2⟩) ⟨op, leaves, rfl⟩
  rw [and_iff_left unspent]

/-- The handle of a line that the queue keeps does not end the suspension on options. -/
theorem Orderly.useContinuation_ignored {ids : List Nat} {k : Continuation} (orderly : s.Orderly)
    (suspended : s.coordinator.suspension = some (.choices ids))
    (held : s.host.1.continuation = some k) : s.coordinator.useContinuation k = .ignored := by
  rcases orderly.handle with older | ⟨line, _⟩
  · have stale : s.coordinator.isLive k.generation = false := by
      simp [isLive, Nat.ne_of_gt (older k held)]
    exact useContinuation_stale stale
  · cases suspended.symm.trans line

theorem proceed_byQueue (limit : Nat) (orderly : s.Orderly) :
    Ensures (Call.proceed.perform limit s) fun r => Exchange.ByQueue ⟨s, .proceed, r.1, r.2⟩ := by
  have spent (answer : Except EngineError Bool) (after : Session (Desk τ)) (p : Prompt) :
      p.SpentBy ⟨s, .proceed, answer, after⟩ ↔ p = .line := Prompt.spentBy_proceed rfl
  have released := Prompt.release_orderly orderly .line
  cases held : s.host.1.continuation with
  | none =>
    rw [proceed_of_none limit held]
    refine .ok (.of_untouched orderly rfl fun p stood own => ?_)
    cases (spent _ _ p).mp own
    simp [Prompt.awaited, PresentationQueue.awaitsContinue, held] at stood
  | some k =>
    rw [proceed_of_some limit held]
    obtain used | ⟨c, used⟩ := s.coordinator.useContinuation_cases k
    · rw [used]
      exact .ok (.of_ignored (spent _ _) released rfl)
    · rw [used]
      refine (drive_plays limit released (useContinuation_opens used)).map fun r ends => ?_
      obtain ⟨es, plays⟩ := ends
      refine .of_released (spent _ _) plays.orderly plays.shows plays.rests fun p other on => ?_
      cases p with
      | line => exact absurd rfl other
      | choices =>
        obtain ⟨ids, suspended⟩ := on
        cases used.symm.trans (orderly.useContinuation_ignored suspended held)

/-- A choice that has not been refused because of its id. -/
theorem chosen_valid {r : Answer (Desk τ) Unit} (h : Selector)
    (valid : ∀ id, r.1 ≠ .error (.runtime (.invalidOption id))) :
    chosen h r = (r.1.map fun _ => true, r.2) := by
  obtain ⟨e | ⟨⟩, s'⟩ := r
  · unfold chosen
    split
    · rename_i done
      cases done
    · rename_i refused
      exact absurd refused (valid _)
    · rename_i failed
      cases failed
      rfl
  · rfl

theorem choose_byQueue (limit : Nat) (orderly : s.Orderly) (id : Nat) :
    Ensures ((Call.choose id).perform limit s) fun r =>
      Exchange.ByQueue ⟨s, .choose id, r.1, r.2⟩ := by
  have spent {answer : Except EngineError Bool} (after : Session (Desk τ))
      (valid : ∀ id, answer ≠ .error (.runtime (.invalidOption id))) (p : Prompt) :
      p.SpentBy ⟨s, .choose id, answer, after⟩ ↔ p = .choices :=
    Prompt.spentBy_choose rfl valid
  have released := Prompt.release_orderly orderly .choices
  cases held : s.host.1.selector with
  | none =>
    rw [choose_of_none limit held]
    refine .ok (.of_untouched orderly rfl fun p stood own => ?_)
    cases (spent s (fun _ h => by cases h) p).mp own
    simp [Prompt.awaited, PresentationQueue.awaitsChoice, held] at stood
  | some h =>
    rw [choose_of_some limit held]
    have unanswered (e : EngineError) :
        Ensures (.ok (chosen h (.error e, s.withoutSelector))) fun r =>
          Exchange.ByQueue ⟨s, .choose id, r.1, r.2⟩ := by
      by_cases invalid : ∃ id', e = .runtime (.invalidOption id')
      · obtain ⟨id', rfl⟩ := invalid
        refine .ok (.of_untouched orderly (withSelector_withoutSelector held) fun p _ own => ?_)
        cases p with
        | line => cases own
        | choices => exact own.2 id' rfl
      · have valid (id' : Nat) :
            (.error e : Except EngineError Unit) ≠ .error (.runtime (.invalidOption id')) :=
          fun refused => invalid ⟨id', by cases refused; rfl⟩
        rw [chosen_valid h valid]
        refine .ok (.of_ignored (spent _ fun id' refused => valid id' ?_) released rfl)
        cases refused
        rfl
    cases used : s.coordinator.useSelector h id with
    | ignored => exact .ok (.of_ignored (spent _ fun _ h => by cases h) released rfl)
    | refused e => exact unanswered e
    | failed e => exact unanswered e
    | resumed c =>
      obtain ⟨ids, _, suspended, _⟩ := pick_resumed (useSelector_resumed used).2
      refine (drive_plays limit released (useSelector_opens used)).map fun r ends => ?_
      obtain ⟨es, plays⟩ := ends
      rw [chosen_valid h plays.valid]
      refine .of_released (spent _ fun id' refused => ?_) plays.orderly plays.shows plays.rests
        fun p other on => ?_
      · obtain ⟨e | ⟨⟩, s'⟩ := r
        · cases refused
          exact plays.valid id' rfl
        · cases refused
      · cases p with
        | choices => exact absurd rfl other
        | line => cases suspended.symm.trans on

/-! ## What the queue tells after some calls -/

/-- A session after some calls, and what the queue tells of it. -/
structure Reports (s : Session (Desk τ)) (past : List (Exchange τ)) : Prop where
  attended : s.Attended (past.map Exchange.called)
  orderly : s.Orderly
  awaited : ∀ p : Prompt, p.awaited s.host.1 = true ↔ p.Waits past s ∨ p.Left past

/-- On a prompt the queue keeps the handle, unless it has lost it. -/
theorem Attended.awaited_iff {p : Prompt} (attended : s.Attended (past.map Exchange.called))
    (on : p.On s.coordinator.suspension) : p.awaited s.host.1 = true ↔ p.Waits past s := by
  cases p with
  | line =>
    have kept : s.host.1.awaitsContinue = true := congrArg Option.isSome (attended.line on)
    exact iff_of_true kept ⟨on, nofun⟩
  | choices =>
    obtain ⟨ids, suspended⟩ := on
    rcases attended.choices ids suspended with ⟨kept, none⟩ | ⟨gone, c, mem, same, loses⟩
    · have kept : s.host.1.awaitsChoice = true := congrArg Option.isSome kept
      refine iff_of_true kept ⟨⟨ids, suspended⟩, fun _ x mem same => ?_⟩
      exact none x.called (List.mem_map_of_mem mem) same
    · have gone : ¬ s.host.1.awaitsChoice = true := by
        simp [PresentationQueue.awaitsChoice, gone]
      obtain ⟨x, before, rfl⟩ := List.mem_map.mp mem
      exact iff_of_false gone fun waits => waits.2 rfl x before same loses

/-- What a call does to what the queue tells, whoever has made it. -/
theorem Reports.concat {x : Exchange τ} (reports : x.before.Reports past) (reported : x.Reported)
    (attended : x.after.Attended ((past ++ [x]).map Exchange.called))
    (parts : x.IsOperation ∨ x.ByQueue) : x.after.Reports (past ++ [x]) := by
  refine ⟨attended, reported.orderly, fun p => ⟨fun awaited => ?_, fun holds => ?_⟩⟩
  · by_cases on : p.On x.after.coordinator.suspension
    · exact .inl ((attended.awaited_iff on).mp awaited)
    · -- the prompt stands, and the dialogue is not suspended on it
      refine .inr ?_
      have stands := (reported.awaited p).mp awaited
      rcases Prompt.stands_iff.mp stands with shown | ⟨⟨before, unspent⟩, undecided⟩
      · rcases parts with operation | byQueue
        · exact .leaves operation (shown.mono False.elim) on
        · exact absurd (byQueue.rests p shown.shown) on
      · rcases (reports.awaited p).mp before with waits | left
        · rcases parts with operation | byQueue
          · exact .leaves operation (.of_undecided waits undecided) on
          · exact absurd (byQueue.keeps p unspent waits.1) on
        · exact .stays left unspent undecided
  · rcases holds with waits | left
    · exact (attended.awaited_iff waits.1).mpr waits
    · refine (reported.awaited p).mpr ?_
      rcases left.concat with ⟨operation, stands⟩ | ⟨left, unspent, undecided⟩
      · refine stands.mono fun waits => ⟨(reports.awaited p).mpr (.inl waits), ?_⟩
        exact Prompt.not_spentBy_of_operation operation
      · exact .of_undecided ⟨(reports.awaited p).mpr (.inr left), unspent⟩ undecided

theorem Reports.perform (limit : Nat) (reports : s.Reports past) {call : Call τ}
    (suits : call.Suits) : Ensures (call.perform limit s) fun r =>
      r.2.Reports (past ++ [⟨s, call, r.1, r.2⟩]) := by
  intro r performed
  have attended :
      r.2.Attended ((past ++ [(⟨s, call, r.1, r.2⟩ : Exchange τ)]).map Exchange.called) := by
    rw [List.map_append]
    exact reports.attended.perform limit call r performed
  cases call with
  | operation op leaves =>
    have reported := perform_reported limit suits reports.orderly r performed
    exact reports.concat reported attended (.inl ⟨op, leaves, rfl⟩)
  | proceed =>
    have byQueue := proceed_byQueue limit reports.orderly r performed
    exact reports.concat byQueue.toReported attended (.inr byQueue)
  | choose id =>
    have byQueue := choose_byQueue limit reports.orderly id r performed
    exact reports.concat byQueue.toReported attended (.inr byQueue)

theorem Reports.exchanges (limit : Nat) (calls : List (Call τ)) (suits : ∀ call ∈ calls, call.Suits)
    (reports : s.Reports past) : Ensures (s.exchanges limit calls) fun r =>
      r.2.Reports (past ++ r.1) := by
  induction calls generalizing s past with
  | nil => exact .ok (by rwa [List.append_nil])
  | cons call calls ih =>
    obtain ⟨first, rest⟩ := List.forall_mem_cons.mp suits
    unfold Session.exchanges
    cases performed : call.perform limit s with
    | error f => exact .fault
    | ok r =>
      refine (ih rest (reports.perform limit first r performed)).map fun r reports => ?_
      rwa [List.append_assoc] at reports

/-- Whatever a host does with a session whose presenter is the queue, by operations and by the calls
    of the queue, and whatever prompt it asks the queue for: the queue tells that the prompt is
    waited for exactly if the dialogue is suspended on it, and no choice has lost the handle, or if
    an operation has left it and since then the queue has neither shown another one nor seen the end
    of a dialogue nor used the handle. So while a dialogue goes on the queue tells only what is waited
    for, unless an operation has left a prompt past the queue. -/
theorem exchanges_awaited (limit : Nat) (store : Store (Desk τ)) (leaves : store.Leaves)
    (settings : Settings) (text : Line → String) (commands : CommandTable (Desk τ))
    (apart : commands.Leaves) (rest : τ) (calls : List (Call τ))
    (suits : ∀ call ∈ calls, call.Suits) {past : List (Exchange τ)} {s : Session (Desk τ)}
    (done : (opening PresentationQueue.desk store settings text commands (.empty, rest)).exchanges
      limit calls = .ok (past, s)) (p : Prompt) :
    p.awaited s.host.1 = true ↔ p.Waits past s ∨ p.Left past := by
  have opened : (opening PresentationQueue.desk store settings text commands
      (.empty, rest)).Reports [] := by
    refine ⟨⟨⟨nofun, nofun⟩, opening_sound _ store settings text commands _, ⟨rfl, leaves⟩, nofun⟩,
      ⟨⟨rfl, leaves⟩, apart, .inl fun k none => by cases none⟩, fun p => ?_⟩
    refine iff_of_false (by cases p <;> exact Bool.false_ne_true) (not_or.mpr ⟨?_, p.not_left_nil⟩)
    rintro ⟨on, _⟩
    cases p with
    | line => cases on
    | choices =>
      obtain ⟨ids, suspended⟩ := on
      cases suspended
  exact (opened.exchanges limit calls suits _ done).awaited p

/-- Calls that stop a dialogue while it waits with a line, and start another one that waits with
    options. -/
def leaving : List (Call Unit) :=
  [.operation (.add (.ofNode "Line" [.line "a" []])) trivial,
    .operation (.add (.ofNode "Options" [.addOption "b" [] "Line", .showOptions])) trivial,
    .operation (.startAt "Line") trivial, .operation .stop trivial,
    .operation (.startAt "Options") trivial]

/-- While the second dialogue waits with options the queue still tells of the line of the first. -/
theorem exchanges_awaited_leaving :
    ∃ past s, (plain PresentationQueue.desk (.empty, ())).exchanges 9 leaving = .ok (past, s) ∧
      s.coordinator.isRunning = true ∧ s.coordinator.suspension = some (.choices [0]) ∧
      s.host.1.awaitsContinue = true ∧ Prompt.line.Left past := by
  refine ⟨_, _, rfl, rfl, rfl, rfl, ?_⟩
  have suits : ∀ call ∈ leaving, call.Suits := by simp [leaving, Call.Suits]
  have told := exchanges_awaited 9 (.memory .empty) trivial .default (fun l => l.id) .empty
    CommandTable.empty_leaves () leaving suits rfl .line
  exact (told.mp rfl).resolve_left fun waits => by cases waits.1

end Session

end DialogueEngine
