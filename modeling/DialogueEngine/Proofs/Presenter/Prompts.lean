import DialogueEngine.Proofs.Presenter.Passage
import DialogueEngine.Proofs.Session.Courses

/-! # What the queue tells

A host asks the queue whether a line is waited for, and whether options are. As long as it uses no
handle, what the queue tells follows from the events that it queues: a line or options stand from
the event that shows them on, and nothing stands after the end of a dialogue.

* `Prompt`, `Prompt.Stands` — lines and options, and when one stands after some events.
* `PresentationQueue.Shows` — the queue has queued events, and tells what follows from them.
* `Session.run_plays` — a drive that shows a line or options rests on it.
* `Session.presents_passage` — whatever a host does, what the queue tells follows its events.
-/

namespace DialogueEngine

variable {τ α : Type}

open Session Coordinator

/-- What a dialogue asks its host for: to go on from a line, or to choose one of some options. -/
inductive Prompt where
  | line
  | choices
  deriving DecidableEq

namespace Prompt

/-- What the queue tells: whether the prompt is waited for. -/
def awaited : Prompt → PresentationQueue → Bool
  | .line => PresentationQueue.awaitsContinue
  | .choices => PresentationQueue.awaitsChoice

/-- What a dialogue that is suspended on the prompt is suspended on. -/
def On : Prompt → Option Suspension → Prop
  | .line, w => w = some .line
  | .choices, w => ∃ ids, w = some (.choices ids)

/-- The event shows the prompt. -/
def ShownBy : Prompt → PresentationEvent → Prop
  | .line, e => ∃ text, e = .displayLine text
  | .choices, e => ∃ options, e = .displayOptions options

/-- After the event it does not matter any more whether the prompt stood before. -/
def DecidedBy (p : Prompt) (e : PresentationEvent) : Prop := p.ShownBy e ∨ e = .dialogueComplete

/-- Whether the prompt stands after an event. -/
def next (p : Prompt) (before : Prop) (e : PresentationEvent) : Prop :=
  p.ShownBy e ∨ before ∧ e ≠ .dialogueComplete

/-- Whether the prompt stands after some events. -/
def Stands (p : Prompt) (before : Prop) (es : List PresentationEvent) : Prop :=
  es.foldl p.next before

theorem not_shown_nil (p : Prompt) : ¬ ∃ e ∈ ([] : List PresentationEvent), p.ShownBy e := by simp

variable {p : Prompt} {before before' : Prop} {es es' : List PresentationEvent}

theorem stands_append : p.Stands before (es ++ es') = p.Stands (p.Stands before es) es' :=
  List.foldl_append

/-- The prompt stands if the events alone make it stand, or if it stood before and no event
    decides. -/
theorem stands_iff :
    p.Stands before es ↔ p.Stands False es ∨ before ∧ ∀ e ∈ es, ¬ p.DecidedBy e := by
  induction es generalizing before with
  | nil => simp [Stands]
  | cons e es ih =>
    have first : p.next before e ↔ p.next False e ∨ before ∧ ¬ p.DecidedBy e := by
      unfold next DecidedBy
      by_cases shown : p.ShownBy e <;> simp [shown]
    have kept : p.Stands False (e :: es) ↔
        p.Stands False es ∨ p.next False e ∧ ∀ e ∈ es, ¬ p.DecidedBy e := ih
    rw [kept, List.forall_mem_cons]
    change p.Stands (p.next before e) es ↔ _
    rw [ih, first, or_and_right, or_assoc, and_assoc]

theorem Stands.mono (stands : p.Stands before es) (imp : before → before') :
    p.Stands before' es :=
  stands_iff.mpr ((stands_iff.mp stands).imp_right (And.imp_left imp))

theorem Stands.of_undecided (stood : before) (undecided : ∀ e ∈ es, ¬ p.DecidedBy e) :
    p.Stands before es :=
  stands_iff.mpr (.inr ⟨stood, undecided⟩)

/-- Events that make the prompt stand by themselves show it. -/
theorem Stands.shown (stands : p.Stands False es) : ∃ e ∈ es, p.ShownBy e := by
  induction es with
  | nil => exact stands.elim
  | cons e es ih =>
    have after : p.Stands (p.next False e) es := stands
    rcases stands_iff.mp after with rest | ⟨here | ⟨none, _⟩, _⟩
    · obtain ⟨e', mem, shown⟩ := ih rest
      exact ⟨e', List.mem_cons_of_mem e mem, shown⟩
    · exact ⟨e, List.mem_cons_self, here⟩
    · exact none.elim

end Prompt

/-! ## What the queue shows -/

namespace PresentationQueue

/-- The queue has queued events, and what it tells of each prompt is what follows from them. -/
structure Shows (q : PresentationQueue) (es : List PresentationEvent) (q' : PresentationQueue) :
    Prop where
  events : q'.events = q.events ++ es
  awaited : ∀ p : Prompt, p.awaited q' = true ↔ p.Stands (p.awaited q = true) es

variable {q q' q'' : PresentationQueue} {es es' : List PresentationEvent}

theorem Shows.refl (q : PresentationQueue) : q.Shows [] q :=
  ⟨(List.append_nil _).symm, fun _ => .rfl⟩

theorem Shows.trans (shows : q.Shows es q') (shows' : q'.Shows es' q'') :
    q.Shows (es ++ es') q'' := by
  refine ⟨?_, fun p => ?_⟩
  · rw [shows'.events, shows.events, List.append_assoc]
  · rw [shows'.awaited, Prompt.stands_append, propext (shows.awaited p)]

/-- An event that has to do with no prompt. -/
theorem shows_push {e : PresentationEvent} (undecided : ∀ p : Prompt, ¬ p.DecidedBy e) :
    q.Shows [e] (q.push e) := by
  refine ⟨rfl, fun p => ?_⟩
  have same : p.awaited (q.push e) = p.awaited q := by cases p <;> rfl
  rw [same]
  refine ⟨fun stood => .of_undecided stood fun e' mem => ?_, fun stands => ?_⟩
  · exact List.mem_singleton.mp mem ▸ undecided p
  · rcases Prompt.stands_iff.mp stands with alone | ⟨stood, _⟩
    · obtain ⟨e', mem, shown⟩ := alone.shown
      exact absurd (.inl (List.mem_singleton.mp mem ▸ shown)) (undecided p)
    · exact stood

theorem shows_started (node : String) :
    q.Shows [.dialogueStarted node] (q.push (.dialogueStarted node)) :=
  shows_push fun p => by cases p <;> simp [Prompt.DecidedBy, Prompt.ShownBy]

theorem shows_command (text : String) :
    q.Shows [.unhandledCommand text] (q.push (.unhandledCommand text)) :=
  shows_push fun p => by cases p <;> simp [Prompt.DecidedBy, Prompt.ShownBy]

theorem shows_line (text : String) (k : Continuation) :
    q.Shows [.displayLine text] ({ q with continuation := some k }.push (.displayLine text)) := by
  refine ⟨rfl, fun p => ?_⟩
  change _ ↔ p.ShownBy _ ∨ _
  cases p with
  | line => exact ⟨fun _ => .inl ⟨text, rfl⟩, fun _ => rfl⟩
  | choices => simp [Prompt.awaited, Prompt.ShownBy, awaitsChoice, push]

theorem shows_choices (options : Dict Nat String) (h : Selector) :
    q.Shows [.displayOptions options]
      ({ q with selector := some h }.push (.displayOptions options)) := by
  refine ⟨rfl, fun p => ?_⟩
  change _ ↔ p.ShownBy _ ∨ _
  cases p with
  | line => simp [Prompt.awaited, Prompt.ShownBy, awaitsContinue, push]
  | choices => exact ⟨fun _ => .inl ⟨options, rfl⟩, fun _ => rfl⟩

theorem shows_end :
    q.Shows [.dialogueComplete]
      ({ q with continuation := none, selector := none }.push .dialogueComplete) := by
  refine ⟨rfl, fun p => ?_⟩
  change _ ↔ p.ShownBy _ ∨ _
  cases p <;> simp [Prompt.awaited, Prompt.ShownBy, awaitsContinue, awaitsChoice, push]

end PresentationQueue

/-! ## Command handlers -/

def Handler.Leaves : Handler (Desk τ) → Prop
  | .immediate run => ∀ args q, (run args).Leaves q
  | .blocking run => ∀ args k q, (run args k).Leaves q

/-- Command handlers that leave the queue alone. -/
def CommandTable.Leaves (t : CommandTable (Desk τ)) : Prop :=
  ∀ name h, t.find? name = some h → h.Leaves

namespace CommandTable

variable {t : CommandTable (Desk τ)}

theorem empty_leaves : (empty : CommandTable (Desk τ)).Leaves := fun _ _ found => by cases found

theorem insert_leaves {name : String} {h : Handler (Desk τ)} (leaves : t.Leaves)
    (also : h.Leaves) : (t.insert name h).2.Leaves := by
  intro name' h' found
  rcases find?_of_insert found with rfl | found
  · exact also
  · exact leaves name' h' found

theorem remove_leaves (leaves : t.Leaves) (name : String) : (t.remove name).2.Leaves :=
  fun name' h' found => leaves name' h' (find?_of_remove found)

end CommandTable

/-! ## One turn -/

namespace Session

variable {s s' : Session (Desk τ)} {n : Nat} {q : PresentationQueue}
  {es : List PresentationEvent}

/-- Every handle of a line in the queue is older than a suspension. -/
def Older (n : Nat) (q : PresentationQueue) : Prop := ∀ k, q.continuation = some k → k.generation < n

/-- What a turn has shown. If it has shown a prompt the dialogue rests on it. -/
structure Cued (n : Nat) (q : PresentationQueue) (es : List PresentationEvent)
    (r : Turn × Session (Desk τ)) : Prop where
  shows : q.Shows es r.2.host.1
  commands : r.2.coordinator.commands.Leaves
  rests : ∀ p : Prompt, (∃ e ∈ es, p.ShownBy e) → r.1 = .rest ∧ p.On r.2.coordinator.suspension
  handle : Older n r.2.host.1 ∨ r.1 = .rest ∧ r.2.coordinator.suspension = some .line ∧
    r.2.host.1.continuation = some ⟨r.2.coordinator.generation⟩
  valid : ∀ id, r.1 ≠ .failed (.runtime (.invalidOption id))

/-- A hand-over that has shown no prompt. -/
theorem afterHandover_cued (shows : q.Shows es s.host.1) (commands : s.coordinator.commands.Leaves)
    (silent : ∀ p : Prompt, ¬ ∃ e ∈ es, p.ShownBy e) (older : Older n s.host.1) (pace : Pace) :
    Cued n q es (s.afterHandover pace) := by
  have quiet {P : Prop} (p : Prompt) (shown : ∃ e ∈ es, p.ShownBy e) : P :=
    absurd shown (silent p)
  unfold afterHandover
  dsimp only
  split
  · exact ⟨shows, commands, fun p => quiet p, .inl older, fun id h => by cases h⟩
  · cases pace with
    | proceed => exact ⟨shows, commands, fun p => quiet p, .inl older, fun id h => by cases h⟩
    | pause => exact ⟨shows, commands, fun p => quiet p, .inl older, fun id h => by cases h⟩

/-- Taking a yield shows nothing. -/
theorem nextYield_quiet (equipped : s.Equipped) :
    Ensures s.nextYield fun r => r.2.host.1 = s.host.1 ∧
      r.2.coordinator.commands = s.coordinator.commands ∧
      ∀ id, r.1 ≠ .error (.runtime (.invalidOption id)) := by
  intro r answered
  unfold nextYield at answered
  dsimp only at answered
  cases ran : (s.coordinator.machine.next.onStore s.coordinator.store).within .store s with
  | error f =>
    rw [ran] at answered
    cases answered
  | ok r =>
    rw [ran] at answered
    cases answered
    have steps := (s.coordinator.machine.next_steps.onStore s.coordinator.store).within ran
    refine ⟨?_, (Act.within_keeps ran).commands, fun id => steps.valid id⟩
    exact Act.within_leaves (Store.onStore_leaves equipped.store _ _) r ran

theorem within_quiet {act : Act (Desk τ) α} {place : Place} (leaves : act.Leaves s.host.1) :
    Ensures (act.within place s) fun r => r.2.host.1 = s.host.1 ∧
      r.2.coordinator.commands = s.coordinator.commands :=
  fun r ran => ⟨Act.within_leaves leaves r ran, (Act.within_keeps ran).commands⟩

section

variable (driving : s.Driving n) (commands : s.coordinator.commands.Leaves)
  (older : Older n s.host.1)

include driving commands

theorem deliverLine_cued (l : Line) :
    Ensures (s.deliverLine l) fun r => ∃ es, Cued n s.host.1 es r := by
  let c := s.coordinator.suspend .line
  have presenter : c.presenter = PresentationQueue.desk := driving.equipped.presenter
  unfold deliverLine
  dsimp only
  rw [presenter]
  let q := { s.host.1 with continuation := some ⟨c.generation⟩ }.push (.displayLine (c.text l))
  refine .ok ⟨[.displayLine (c.text l)], ?_⟩
  change Cued n _ _ (afterHandover ⟨c, (q, s.host.2)⟩ .pause)
  rw [afterHandover_pause (s := ⟨c, (q, s.host.2)⟩) driving.asleep]
  refine ⟨PresentationQueue.shows_line _ _, commands, fun p shown => ⟨rfl, ?_⟩,
    .inr ⟨rfl, rfl, rfl⟩, fun id h => by cases h⟩
  cases p with
  | line => rfl
  | choices => simp [Prompt.ShownBy] at shown

include older

theorem deliverChoices_cued (cs : Choices) :
    Ensures (s.deliverChoices cs) fun r => ∃ es, Cued n s.host.1 es r := by
  let c := s.coordinator.suspend (.choices cs.ids)
  have presenter : c.presenter = PresentationQueue.desk := driving.equipped.presenter
  unfold deliverChoices
  dsimp only
  rw [presenter]
  let texts := PresentationQueue.optionTexts cs c.text
  let q := { s.host.1 with selector := some ⟨c.generation⟩ }.push (.displayOptions texts)
  refine .ok ⟨[.displayOptions texts], ?_⟩
  change Cued n _ _ (afterHandover ⟨c, (q, s.host.2)⟩ .pause)
  rw [afterHandover_pause (s := ⟨c, (q, s.host.2)⟩) driving.asleep]
  refine ⟨PresentationQueue.shows_choices _ _, commands, fun p shown => ⟨rfl, ?_⟩,
    .inl older, fun id h => by cases h⟩
  cases p with
  | line => simp [Prompt.ShownBy] at shown
  | choices => exact ⟨cs.ids, rfl⟩

/-- The handlers leave the queue alone, and without one the command is only queued. -/
theorem deliverCommand_cued (cmd : Command) :
    Ensures (s.deliverCommand cmd) fun r => ∃ es, Cued n s.host.1 es r := by
  have presenter : (s.coordinator.suspend .command).presenter = PresentationQueue.desk :=
    driving.equipped.presenter
  have passed {s' : Session (Desk τ)} (pace : Pace) (queue : s'.host.1 = s.host.1)
      (kept : s'.coordinator.commands = s.coordinator.commands) :
      ∃ es, Cued n s.host.1 es (s'.afterHandover pace) := by
    refine ⟨[], afterHandover_cued (queue ▸ .refl _) (kept ▸ commands) ?_ (queue ▸ older) pace⟩
    exact fun p => p.not_shown_nil
  unfold deliverCommand
  split
  · exact .pure (passed .proceed rfl rfl)
  · split
    · dsimp only
      rw [presenter]
      split
      · exact .fault
      · let q := s.host.1.push (.unhandledCommand cmd.text)
        refine .ok ⟨[.unhandledCommand cmd.text], ?_⟩
        refine afterHandover_cued (s := ⟨s.coordinator.suspend .command, (q, s.host.2)⟩)
          (PresentationQueue.shows_command _) commands (fun p => ?_) older .proceed
        cases p <;> simp [Prompt.ShownBy]
    · rename_i run args resolved
      obtain ⟨name, found⟩ := CommandTable.find?_of_resolve resolved
      refine .bind (within_quiet (commands name _ found args _)) fun r ⟨queue, kept⟩ => ?_
      exact .pure (passed .proceed queue kept)
    · rename_i run args resolved
      obtain ⟨name, found⟩ := CommandTable.find?_of_resolve resolved
      refine .bind (within_quiet (commands name _ found args _ _)) fun r ⟨queue, kept⟩ => ?_
      exact .pure (passed .pause queue kept)

omit older in
theorem deliverEnd_cued : Ensures s.deliverEnd fun r => ∃ es, Cued n s.host.1 es r := by
  let c := { s.coordinator with phase := .completed }.invalidate
  let ended := { c with timers := c.timers.clear }.emit .dialogueComplete
  have presenter : ended.presenter = PresentationQueue.desk := driving.equipped.presenter
  change Ensures (ended.presenter.completed.within .handover (s.withCoordinator ended) >>= _) _
  rw [presenter]
  refine .ok ⟨[.dialogueComplete], PresentationQueue.shows_end, commands, fun p shown => ?_,
    .inl fun k none => (by cases none), fun id h => (by cases h)⟩
  cases p <;> simp [Prompt.ShownBy] at shown

theorem deliver_cued (y : Yield) :
    Ensures (s.deliver y) fun r => ∃ es, Cued n s.host.1 es r := by
  cases y with
  | line l => exact deliverLine_cued driving commands l
  | choices cs => exact deliverChoices_cued driving commands older cs
  | command cmd => exact deliverCommand_cued driving commands older cmd
  | nodeStart node | nodeComplete node =>
    exact .ok ⟨[], .refl _, commands, fun p shown => (p.not_shown_nil shown).elim, .inl older,
      fun id h => by cases h⟩
  | dialogueComplete => exact deliverEnd_cued driving commands

theorem turn_cued : Ensures s.turn fun r => ∃ es, Cued n s.host.1 es r := by
  have still {t : Turn} {s' : Session (Desk τ)} (queue : s'.host.1 = s.host.1)
      (kept : s'.coordinator.commands = s.coordinator.commands)
      (valid : ∀ id, t ≠ .failed (.runtime (.invalidOption id))) :
      ∃ es, Cued n s.host.1 es (t, s') :=
    ⟨[], queue ▸ .refl _, kept ▸ commands, fun p shown => (p.not_shown_nil shown).elim,
      .inl (queue ▸ older), valid⟩
  unfold turn
  split
  · have next := (nextYield_quiet driving.equipped).and (nextYield_driving driving)
    refine next.bind fun r ⟨⟨queue, kept, valid⟩, driving⟩ => ?_
    obtain ⟨e | y, s'⟩ := r
    · exact .pure (still queue kept fun id h => by cases h; exact valid id rfl)
    · rw [← queue] at older ⊢
      exact deliver_cued driving (kept ▸ commands) older y
  · exact .pure (still rfl rfl fun id h => by cases h)

end

/-! ## Drives -/

theorem Older.mono {n' : Nat} (older : Older n q) (le : n ≤ n') : Older n' q :=
  fun k kept => Nat.lt_of_lt_of_le (older k kept) le

/-- The presenter is the queue, which no other code touches, and the handle of a line in it is that
    of the line that is waited for, or one of an earlier suspension. -/
structure Orderly (s : Session (Desk τ)) : Prop extends Equipped s where
  commands : s.coordinator.commands.Leaves
  handle : Older s.coordinator.generation s.host.1 ∨ s.coordinator.suspension = some .line ∧
    s.host.1.continuation = some ⟨s.coordinator.generation⟩

/-- What a drive has shown. If it has shown a prompt the dialogue is suspended on it. -/
structure Plays (q : PresentationQueue) (es : List PresentationEvent)
    (r : Answer (Desk τ) Unit) : Prop where
  orderly : r.2.Orderly
  shows : q.Shows es r.2.host.1
  rests : ∀ p : Prompt, (∃ e ∈ es, p.ShownBy e) → p.On r.2.coordinator.suspension
  valid : ∀ id, r.1 ≠ .error (.runtime (.invalidOption id))

theorem run_plays (limit : Nat) (driving : s.Driving n) (commands : s.coordinator.commands.Leaves)
    (older : Older n s.host.1) : Ensures (run limit s) fun r => ∃ es, Plays s.host.1 es r := by
  induction limit generalizing s with
  | zero => exact .fault
  | succ limit ih =>
    unfold run
    cases turned : s.turn with
    | error f => exact .fault
    | ok r =>
      have after := turn_turned driving r turned
      obtain ⟨es, shows, commands, rests, handle, valid⟩ :=
        turn_cued driving commands older r turned
      obtain ⟨_ | _ | e, s'⟩ := r
      · have older : Older n s'.host.1 := handle.resolve_right fun h => by cases h.1
        refine (ih after commands older).imp fun r ends => ?_
        obtain ⟨es', plays⟩ := ends
        refine ⟨es ++ es', plays.orderly, shows.trans plays.shows, fun p shown => ?_, plays.valid⟩
        obtain ⟨e, mem, shown⟩ := shown
        rcases List.mem_append.mp mem with before | later
        · cases (rests p ⟨e, before, shown⟩).1
        · exact plays.rests p ⟨e, later, shown⟩
      · obtain ⟨equipped, bound, keeps⟩ : s'.Rested n := after
        refine .ok ⟨es, ⟨⟨equipped.presenter, equipped.store⟩, commands, ?_⟩, shows,
          fun p shown => (rests p shown).2, fun id h => by cases h⟩
        exact handle.imp (Older.mono · bound) And.right
      · obtain ⟨equipped, bound⟩ : s'.Equipped ∧ n ≤ s'.coordinator.generation := after
        have older : Older n s'.host.1 := handle.resolve_right fun h => by cases h.1
        refine .ok ⟨es, ⟨⟨equipped.presenter, equipped.store⟩, commands,
          .inl (older.mono (Nat.le_succ_of_le bound))⟩, shows, fun p shown => ?_,
          fun id h => by cases h; exact valid id rfl⟩
        cases (rests p shown).1

/-- The handle of a line in the queue is older than any later suspension. -/
theorem Orderly.older (orderly : s.Orderly) (later : s.coordinator.generation < n) :
    Older n s.host.1 := by
  rcases orderly.handle with older | ⟨_, kept⟩
  · exact older.mono (Nat.le_of_lt later)
  · intro k held
    cases kept.symm.trans held
    exact later

/-- A drive from a session whose suspension ends. -/
theorem drive_plays (limit : Nat) {c : Coordinator (Desk τ)} (orderly : s.Orderly)
    (opens : s.coordinator.Opens c) :
    Ensures (drive limit ⟨c, s.host⟩) fun r => ∃ es, Plays s.host.1 es r := by
  have there : Equipped ⟨c, s.host⟩ := orderly.toEquipped.keeps opens.kept
  have driving : Driving c.generation (settle ⟨c, s.host⟩) :=
    ⟨⟨there.presenter, there.store⟩, Nat.le_refl _, opens.free, rfl⟩
  exact run_plays limit driving (opens.kept.commands ▸ orderly.commands)
    (orderly.older opens.later)

/-! ## Everything that a host does -/

/-- A session that has come of another, and what the queue tells follows what it has shown. -/
structure Presents (s s' : Session (Desk τ)) : Prop where
  orderly : s'.Orderly
  shows : ∃ es, s.host.1.Shows es s'.host.1

theorem Orderly.presents (orderly : s.Orderly) : s.Presents s := ⟨orderly, [], .refl _⟩

theorem Plays.presents {r : Answer (Desk τ) Unit} (plays : Plays s.host.1 es r) :
    s.Presents r.2 :=
  ⟨plays.orderly, es, plays.shows⟩

theorem presents_passage : Passage (τ := τ) Presents CommandTable.Leaves where
  refl presents := presents.orderly.presents
  trans presents presents' := by
    obtain ⟨es, shows⟩ := presents.shows
    obtain ⟨es', shows'⟩ := presents'.shows
    exact ⟨presents'.orderly, es ++ es', shows.trans shows'⟩
  equipped presents := presents.orderly.toEquipped
  commands presents := presents.orderly.commands
  aside here presenter store commands generation suspension := by
    obtain ⟨⟨presenter', _⟩, _, handle⟩ := here.orderly
    refine ⟨⟨⟨presenter.trans presenter', store⟩, commands, ?_⟩, [], .refl _⟩
    rwa [withCoordinator, generation, suspension]
  write := by
    intro s x here queue
    obtain ⟨equipped, commands, handle⟩ := here.orderly
    refine ⟨⟨equipped.keeps (.refl _), commands, ?_⟩, [], queue ▸ .refl _⟩
    change Older _ x.1 ∨ _ ∧ x.1.continuation = _
    rwa [queue]
  started node here := by
    obtain ⟨equipped, commands, handle⟩ := here.orderly
    exact ⟨⟨equipped.keeps (.refl _), commands, handle⟩, _, PresentationQueue.shows_started node⟩
  halt here := by
    obtain ⟨equipped, commands, _⟩ := here.orderly
    have older := here.orderly.older (Nat.lt_succ_self _)
    exact ⟨⟨⟨equipped.presenter, equipped.store⟩, commands, .inl older⟩, [], .refl _⟩
  drive limit _ _ here opens :=
    (drive_plays limit here.orderly opens).imp fun _ ⟨_, plays⟩ => plays.presents

end Session

end DialogueEngine
