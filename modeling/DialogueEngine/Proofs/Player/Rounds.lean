import DialogueEngine.Player.Play
import DialogueEngine.Proofs.Machine.Yields
import DialogueEngine.Proofs.Player.Interpreter

/-! # Rounds of the player

What the player does at each stage of a dialogue that nobody else takes part in: how the drive
takes one yield after the other, what waits when it comes to rest, and what a round of the player
makes of it.

* `Stage.flowing`, `Stage.saying`, `Stage.offering`, `Stage.sleeping`, `Stage.ended` — stages.
* `Stage.deliver_line`, `Stage.deliver_wait_some` and so on — what each yield leads to.
* `Stage.Plays`, `Stage.PlaysOn` — how a playthrough goes on from a drive and from a rest.
* `Stage.playsOn_line`, `Stage.playsOn_ask`, `Stage.playsOn_wait` — rounds.
-/

namespace DialogueEngine

/-! ## The table that knows `wait` alone -/

namespace CommandTable

variable {σ : Type}

theorem find?_builtin (name : String) : (builtin (σ := σ)).find? name =
    if name = waitCommand then some (.blocking waitHandler) else none := by
  have table : builtin (σ := σ) =
    ⟨(Dict.empty : Dict String (Handler σ)).insert waitCommand (.blocking waitHandler)⟩ := rfl
  rw [table, find?, Dict.find?_insert]
  rfl

/-- The name of a command of an object has a colon in it. -/
theorem scopedName_ne_wait (object name : String) : scopedName object name ≠ waitCommand := by
  intro same
  have colon : ':' ∈ (scopedName object name).toList := by
    simp [scopedName, String.toList_append]
  rw [same] at colon
  revert colon
  decide

theorem resolve_wait (args : List String) : (builtin (σ := σ)).resolve (waitCommand :: args) =
    some ⟨waitCommand, .blocking waitHandler, args⟩ := by
  simp only [resolve, find?_builtin, if_pos]

theorem resolve_unknown {name : String} (unknown : name ≠ waitCommand) (args : List String) :
    (builtin (σ := σ)).resolve (name :: args) = none := by
  simp only [resolve, find?_builtin, if_neg unknown]
  rcases args with _ | ⟨object, _ | ⟨arg, rest⟩⟩
  · rfl
  · rfl
  · simp only [if_neg (scopedName_ne_wait object name)]
    rfl

end CommandTable

/-- The time from a duration to a sum with it. -/
theorem Duration.sub_of_add {a b d : Duration} (added : a.add? d = some b) : b.sub a = d := by
  unfold Duration.add? Duration.ofNanos? at added
  split at added
  · cases added
    unfold Duration.sub
    congr 1
    simp only
    omega
  · cases added

namespace Stage

/-! ## Stages -/

section

variable (settings : Settings) (text : Line → String)

/-- A stage of a dialogue that only the player takes part in. -/
def scene (phase : Phase) (m : Machine) (memory : MemoryStore) (timers : Timers) (generation : Nat)
    (suspension : Option Suspension) (events : List LifecycleEvent) (queue : PresentationQueue) :
    Stage where
  host := queue
  coordinator :=
    { machine := m
      store := .memory memory
      phase := phase
      settings := settings
      presenter := PresentationQueue.presenter
      text := text
      commands := .builtin
      lent := false
      timers := timers
      generation := generation
      suspension := suspension
      events := events
      woken := false }

/-- The dialogue goes on, and nothing is waited for. -/
def flowing (m : Machine) (memory : MemoryStore) (now : Duration) (generation : Nat)
    (events : List LifecycleEvent) (shown : List PresentationEvent) : Stage :=
  scene settings text .running m memory ⟨now, []⟩ generation none events ⟨shown, none, none⟩

def saying (m : Machine) (memory : MemoryStore) (now : Duration) (generation : Nat)
    (events : List LifecycleEvent) (shown : List PresentationEvent) : Stage :=
  scene settings text .running m memory ⟨now, []⟩ generation (some .line) events
    ⟨shown, some ⟨generation⟩, none⟩

/-- Options of the given numbers are shown. -/
def offering (m : Machine) (memory : MemoryStore) (now : Duration) (generation : Nat)
    (ids : List Nat) (events : List LifecycleEvent) (shown : List PresentationEvent) : Stage :=
  scene settings text .running m memory ⟨now, []⟩ generation (some (.choices ids)) events
    ⟨shown, none, some ⟨generation⟩⟩

/-- A command waits for a deadline. -/
def sleeping (m : Machine) (memory : MemoryStore) (now deadline : Duration) (generation : Nat)
    (events : List LifecycleEvent) (shown : List PresentationEvent) : Stage :=
  scene settings text .running m memory ⟨now, [⟨deadline, ⟨generation⟩⟩]⟩ generation
    (some .command) events ⟨shown, none, none⟩

def ended (m : Machine) (memory : MemoryStore) (now : Duration) (generation : Nat)
    (events : List LifecycleEvent) (shown : List PresentationEvent) : Stage :=
  scene settings text .completed m memory ⟨now, []⟩ generation none events ⟨shown, none, none⟩

variable {m m' : Machine} {memory memory' : MemoryStore} {now : Duration} {g : Nat}
  {events : List LifecycleEvent} {shown : List PresentationEvent}

/-! ## Handles -/

theorem invalidate_scene (phase : Phase) (m : Machine) (memory : MemoryStore) (timers : Timers)
    (g : Nat) (suspension : Option Suspension) (events : List LifecycleEvent)
    (queue : PresentationQueue) :
    (scene settings text phase m memory timers g suspension events queue).coordinator.invalidate =
      (scene settings text phase m memory ⟨timers.now, []⟩ (g + 1) none events
        queue).coordinator := by
  simp [scene, Coordinator.invalidate, Timers.retain, Coordinator.isLive]

theorem useContinuation_scene (m : Machine) (memory : MemoryStore) (timers : Timers) (g : Nat)
    (w : Suspension) (events : List LifecycleEvent) (queue : PresentationQueue) :
    Coordinator.useContinuation
      (scene settings text .running m memory timers g (some w) events queue).coordinator ⟨g⟩ =
        .resumed (scene settings text .running m memory ⟨timers.now, []⟩ (g + 1) none events
          queue).coordinator := by
  unfold Coordinator.useContinuation
  rw [if_pos (by simp [scene, Coordinator.isLive, Coordinator.isRunning]), invalidate_scene]

theorem follow_scene (limit : Nat) (m : Machine) (memory : MemoryStore) (timers : Timers) (g : Nat)
    (w : Suspension) (events : List LifecycleEvent) (shown : List PresentationEvent) :
    Session.follow limit (scene settings text .running m memory timers g (some w) events
      ⟨shown, none, none⟩) (Coordinator.useContinuation (scene settings text .running m memory
        timers g (some w) events ⟨shown, none, none⟩).coordinator ⟨g⟩) =
      (flowing settings text m memory timers.now (g + 1) events shown).run limit := by
  rw [useContinuation_scene]
  rfl

theorem useSelector_refused (m : Machine) (memory : MemoryStore) (timers : Timers) (g : Nat)
    {ids : List Nat} (events : List LifecycleEvent) (queue : PresentationQueue) {id : Nat}
    (unknown : id ∉ ids) :
    Coordinator.useSelector (scene settings text .running m memory timers g (some (.choices ids))
      events queue).coordinator ⟨g⟩ id = .refused (.runtime (.invalidOption id)) := by
  unfold Coordinator.useSelector
  rw [if_pos (by simp [scene, Coordinator.isLive])]
  exact if_neg unknown

theorem useSelector_chosen {m m' : Machine} (memory : MemoryStore) (timers : Timers) (g : Nat)
    {ids : List Nat} (events : List LifecycleEvent) (queue : PresentationQueue) {id : Nat}
    (offered : id ∈ ids) (chosen : m.choose id = .ok m') :
    Coordinator.useSelector (scene settings text .running m memory timers g (some (.choices ids))
      events queue).coordinator ⟨g⟩ id =
        .resumed (scene settings text .running m' memory ⟨timers.now, []⟩ (g + 1) none events
          queue).coordinator := by
  have picked : (scene settings text .running m memory timers g (some (.choices ids)) events
      queue).coordinator.machine.choose id = .ok m' := chosen
  unfold Coordinator.useSelector
  rw [if_pos (by simp [scene, Coordinator.isLive])]
  refine (if_pos offered).trans ?_
  rw [picked]
  exact congrArg _ (invalidate_scene settings text .running m' memory timers g
    (some (.choices ids)) events queue)

theorem follow_chosen (limit : Nat) {m m' : Machine} (memory : MemoryStore) (timers : Timers)
    (g : Nat) {ids : List Nat} {id : Nat} (events : List LifecycleEvent)
    (shown : List PresentationEvent) (offered : id ∈ ids) (chosen : m.choose id = .ok m') :
    Session.follow limit (scene settings text .running m memory timers g (some (.choices ids))
      events ⟨shown, none, none⟩) (Coordinator.useSelector (scene settings text .running m memory
        timers g (some (.choices ids)) events ⟨shown, none, none⟩).coordinator ⟨g⟩ id) =
      (flowing settings text m' memory timers.now (g + 1) events shown).run limit := by
  rw [useSelector_chosen settings text memory timers g events _ offered chosen]
  rfl

/-! ## The drive -/

theorem nextYield_flowing (m : Machine) (memory : MemoryStore) :
    (flowing settings text m memory now g events shown).nextYield =
      .ok ((m.next.onMemory memory).1.1, flowing settings text (m.next.onMemory memory).1.2
        (m.next.onMemory memory).2 now g events shown) := by
  unfold Session.nextYield
  change ((m.next.onStore (.memory memory)).within .store _ >>= _) = _
  rw [Access.onStore_done]
  rfl

theorem turn_flowing {y : Yield} (next : m.next.onMemory memory = ((.ok y, m'), memory')) :
    (flowing settings text m memory now g events shown).turn =
      (flowing settings text m' memory' now g events shown).deliver y := by
  have running : (flowing settings text m memory now g events shown).coordinator.isRunning = true :=
    rfl
  unfold Session.turn
  rw [if_pos running, nextYield_flowing, next]
  rfl

theorem run_flowing_congr (same : m.next.onMemory memory = m'.next.onMemory memory') (n : Nat) :
    (flowing settings text m memory now g events shown).run n =
      (flowing settings text m' memory' now g events shown).run n := by
  have turns : (flowing settings text m memory now g events shown).turn =
      (flowing settings text m' memory' now g events shown).turn := by
    have running (m : Machine) (memory : MemoryStore) :
        (flowing settings text m memory now g events shown).coordinator.isRunning = true := rfl
    unfold Session.turn
    rw [if_pos (running _ _), if_pos (running _ _), nextYield_flowing, nextYield_flowing, same]
  cases n with
  | zero => rfl
  | succ n =>
    unfold Session.run
    rw [turns]

theorem deliver_line (l : Line) :
    (flowing settings text m memory now g events shown).deliver (.line l) = .ok (.rest,
      saying settings text m memory now (g + 1) events (shown ++ [.displayLine (text l)])) := rfl

theorem deliver_choices (cs : Choices) :
    (flowing settings text m memory now g events shown).deliver (.choices cs) = .ok (.rest,
      offering settings text m memory now (g + 1) cs.ids events
        (shown ++ [.displayOptions (PresentationQueue.optionTexts cs text)])) := rfl

theorem deliver_blank {c : Command} (blank : c.tokens = []) :
    (flowing settings text m memory now g events shown).deliver (.command c) =
      .ok (.again, flowing settings text m memory now (g + 1) events shown) := by
  change Session.deliverCommand _ _ = _
  unfold Session.deliverCommand
  rw [blank]
  rfl

/-- A command that nobody handles is shown and passed over. -/
theorem deliver_unhandled {c : Command} {name : String} {args : List String}
    (words : c.tokens = name :: args) (unknown : name ≠ waitCommand) :
    (flowing settings text m memory now g events shown).deliver (.command c) =
      .ok (.again, flowing settings text m memory now (g + 2) events
        (shown ++ [.unhandledCommand c.text])) := by
  have resolved : (flowing settings text m memory now g events shown).coordinator.commands.resolve
      c.tokens = none := by
    rw [words]
    exact CommandTable.resolve_unknown unknown args
  change Session.deliverCommand _ _ = _
  unfold Session.deliverCommand
  rw [resolved, words]
  rfl

/-- The command `wait`, as far as its handler decides what comes of it. -/
theorem deliver_wait {c : Command} {args : List String} (words : c.tokens = waitCommand :: args) :
    (flowing settings text m memory now g events shown).deliver (.command c) =
      ((waitHandler args ⟨g + 1⟩).within .handover (scene settings text .running m memory ⟨now, []⟩
        (g + 1) (some .command) events ⟨shown, none, none⟩)).map fun r =>
          r.2.afterHandover .pause := by
  have resolved : (flowing settings text m memory now g events shown).coordinator.commands.resolve
      c.tokens = some ⟨waitCommand, .blocking waitHandler, args⟩ := by
    rw [words]
    exact CommandTable.resolve_wait args
  change Session.deliverCommand _ _ = _
  unfold Session.deliverCommand
  rw [resolved, words]
  rfl

/-- Without a time to wait the dialogue goes on at once. -/
theorem deliver_wait_none {c : Command} {args : List String}
    (words : c.tokens = waitCommand :: args)
    (atOnce : ∀ d, Duration.parse? args = some d → d.isZero = true) :
    (flowing settings text m memory now g events shown).deliver (.command c) =
      .ok (.again, flowing settings text m memory now (g + 2) events shown) := by
  rw [deliver_wait settings text words]
  have resumed := useContinuation_scene settings text m memory ⟨now, []⟩ (g + 1) .command events
    ⟨shown, none, none⟩
  unfold waitHandler
  cases parsed : Duration.parse? args with
  | none =>
    simp only [Act.within, resumed]
    rfl
  | some d =>
    simp only [Act.within, Session.delay, atOnce d parsed, if_true, resumed]
    rfl

theorem deliver_wait_some {c : Command} {args : List String} {d deadline : Duration}
    (words : c.tokens = waitCommand :: args) (parsed : Duration.parse? args = some d)
    (later : d.isZero = false) (added : now.add? d = some deadline) :
    (flowing settings text m memory now g events shown).deliver (.command c) =
      .ok (.rest, sleeping settings text m memory now deadline (g + 1) events shown) := by
  rw [deliver_wait settings text words]
  have scheduled : (scene settings text .running m memory ⟨now, []⟩ (g + 1) (some .command) events
      ⟨shown, none, none⟩).coordinator.schedule? d ⟨g + 1⟩ =
        some (sleeping settings text m memory now deadline (g + 1) events shown).coordinator := by
    simp only [Coordinator.schedule?, Timers.schedule?, scene, added]
    rfl
  unfold waitHandler
  rw [parsed]
  simp only [Act.within, Session.delay, later, scheduled]
  rfl

theorem deliver_end :
    (flowing settings text m memory now g events shown).deliver .dialogueComplete = .ok (.rest,
      ended settings text m memory now (g + 1) (events ++ [.dialogueComplete])
        (shown ++ [.dialogueComplete])) := rfl

end

/-! ## Rounds -/

theorem renderAll_append {es es' : List PresentationEvent} {w w' : List TerminalEvent}
    (first : renderAll es = (w, .ok ())) (second : renderAll es' = (w', .ok ())) :
    renderAll (es ++ es') = (w ++ w', .ok ()) := by
  induction es generalizing w with
  | nil =>
    cases first
    exact second
  | cons e es ih =>
    unfold renderAll at first
    cases rendered : e.rendering with
    | error err =>
      rw [rendered] at first
      cases first
    | ok text =>
      rw [rendered] at first
      cases h : renderAll es with
      | mk shown r =>
        rw [h] at first
        cases first
        rw [List.cons_append, renderAll, rendered, ih h]
        simp only [List.append_assoc]

theorem renderAll_one {e : PresentationEvent} {text : String} (rendered : e.rendering = .ok text)
    (some : text.isEmpty = false) : renderAll [e] = ([.wrote text], .ok ()) := by
  simp only [renderAll, rendered, write, some]
  rfl

/-- From a stage at rest the playthrough goes on to its end, given enough turns and rounds. -/
def PlaysOn (s : Stage) (input : List String) (trace : List TerminalEvent) : Prop :=
  ∃ enough, ∀ limit rounds, enough ≤ limit → enough ≤ rounds →
    ∃ after, playOn limit rounds s (input.map some) = .ok ⟨trace, .ok (), after⟩ ∧
      after.coordinator.isRunning = false

def Plays (s : Stage) (input : List String) (trace : List TerminalEvent) : Prop :=
  ∃ enough, ∀ turns limit rounds, enough ≤ turns → enough ≤ limit → enough ≤ rounds →
    ∃ rested after, s.run turns = .ok (.ok (), rested) ∧
      playOn limit rounds rested (input.map some) = .ok ⟨trace, .ok (), after⟩ ∧
      after.coordinator.isRunning = false

variable {s s' : Stage} {w trace more : List TerminalEvent} {input input' : List String}

/-- A round that leads to the next one. -/
theorem playOn_on {limit rounds : Nat} {lines lines' : List InputLine} {text : String}
    {rested after : Stage} (shows : renderAll s.host.events = (w, .ok ()))
    (meets : s.takeEvents.2.meet limit lines = .ok (trace, ⟨text, .on, rested⟩, lines'))
    (later : playOn limit rounds rested lines' = .ok ⟨more, .ok (), after⟩) :
    playOn limit (rounds + 1) s lines = .ok ⟨w ++ trace ++ more, .ok (), after⟩ := by
  have events : s.takeEvents.1 = s.host.events := rfl
  unfold playOn
  dsimp only
  rw [events, shows, meets]
  change (playOn limit rounds rested lines').map (·.after (w ++ trace)) = _
  rw [later]
  rfl

namespace PlaysOn

/-- The last round. -/
theorem ends {rest : List InputLine} (shows : renderAll s.host.events = (w, .ok ()))
    (meets : ∀ limit, s.takeEvents.2.meet limit (input.map some) =
      .ok (trace, ⟨"", .over, s'⟩, rest))
    (notRunning : s'.coordinator.isRunning = false) : s.PlaysOn input (w ++ trace) := by
  refine ⟨1, fun limit rounds _ enough => ⟨s', ?_, notRunning⟩⟩
  obtain ⟨r, rfl⟩ : ∃ r, rounds = r + 1 := ⟨rounds - 1, by omega⟩
  have events : s.takeEvents.1 = s.host.events := rfl
  unfold playOn
  dsimp only
  rw [events, shows, meets]
  rfl

/-- The player leaves the dialogue. -/
theorem quits (rest : List InputLine) (shows : renderAll s.host.events = (w, .ok ()))
    (meets : ∀ limit, s.takeEvents.2.meet limit (input.map some) =
      .ok (trace, s.takeEvents.2.quit, rest)) : s.PlaysOn input (w ++ trace) :=
  ends shows meets rfl

/-- A round that leaves the dialogue at rest. -/
theorem again (said : String) (shows : renderAll s.host.events = (w, .ok ()))
    (meets : ∀ limit, s.takeEvents.2.meet limit (input.map some) =
      .ok (trace, ⟨said, .on, s'⟩, input'.map some))
    (later : s'.PlaysOn input' more) : s.PlaysOn input (w ++ trace ++ more) := by
  obtain ⟨enough, plays⟩ := later
  refine ⟨enough + 1, fun limit rounds hl hr => ?_⟩
  obtain ⟨r, rfl⟩ : ∃ r, rounds = r + 1 := ⟨rounds - 1, by omega⟩
  obtain ⟨after, later, notRunning⟩ := plays limit r (by omega) (by omega)
  exact ⟨after, playOn_on shows (meets limit) later, notRunning⟩

/-- A round after which the dialogue is driven on. -/
theorem goes (shows : renderAll s.host.events = (w, .ok ()))
    (meets : ∀ limit rested, s'.run limit = .ok (.ok (), rested) →
      s.takeEvents.2.meet limit (input.map some) =
        .ok (trace, ⟨"", .on, rested⟩, input'.map some))
    (later : s'.Plays input' more) : s.PlaysOn input (w ++ trace ++ more) := by
  obtain ⟨enough, plays⟩ := later
  refine ⟨enough + 1, fun limit rounds hl hr => ?_⟩
  obtain ⟨r, rfl⟩ : ∃ r, rounds = r + 1 := ⟨rounds - 1, by omega⟩
  obtain ⟨rested, after, ran, later, notRunning⟩ :=
    plays limit limit r (by omega) (by omega) (by omega)
  exact ⟨after, playOn_on shows (meets limit rested ran) later, notRunning⟩

end PlaysOn

namespace Plays

/-- The drive comes to rest. -/
theorem rests (rest : ∀ turns, s.run (turns + 1) = .ok (.ok (), s'))
    (later : s'.PlaysOn input trace) : s.Plays input trace := by
  obtain ⟨enough, plays⟩ := later
  refine ⟨enough + 1, fun turns limit rounds ht hl hr => ?_⟩
  obtain ⟨t, rfl⟩ : ∃ t, turns = t + 1 := ⟨turns - 1, by omega⟩
  obtain ⟨after, later, notRunning⟩ := plays limit rounds (by omega) (by omega)
  exact ⟨s', after, rest t, later, notRunning⟩

/-- The drive takes some turns. -/
theorem turns (k : Nat) (same : ∀ turns, s.run (turns + k) = s'.run turns)
    (later : s'.Plays input trace) : s.Plays input trace := by
  obtain ⟨enough, plays⟩ := later
  refine ⟨enough + k, fun turns limit rounds ht hl hr => ?_⟩
  obtain ⟨t, rfl⟩ : ∃ t, turns = t + k := ⟨turns - k, by omega⟩
  rw [same]
  exact plays t limit rounds (by omega) (by omega) (by omega)

end Plays

/-! ## What the player waits for -/

theorem numberWanted_nonempty : numberWanted.isEmpty = false := by
  simp [numberWanted]

theorem notOffered_nonempty (id : Nat) : (notOffered id).isEmpty = false := by
  have lineFeed (s : String) : (s ++ "\n").isEmpty = false := by simp
  exact lineFeed _

/-- An option that is not offered leaves the handle where it was. -/
theorem between_choose_refused (limit : Nat) {c : Coordinator PresentationQueue}
    (shown : List PresentationEvent) (k : Option Continuation) {h : Selector} {id : Nat}
    (refused : c.useSelector h id = .refused (.runtime (.invalidOption id))) :
    (PresentationQueue.choose id).between limit ⟨c, ⟨shown, k, some h⟩⟩ =
      .ok (.error (.runtime (.invalidOption id)), ⟨c, ⟨shown, k, some h⟩⟩) := by
  change Act.between limit (.select h id _) ⟨c, ⟨shown, k, none⟩⟩ = _
  simp only [Act.between, refused, Session.follow]
  rfl

theorem between_choose_resumed {limit : Nat} {c : Coordinator PresentationQueue}
    {shown : List PresentationEvent} {k : Option Continuation} {h : Selector} {id : Nat}
    {rested : Stage}
    (followed : Session.follow limit ⟨c, ⟨shown, k, none⟩⟩ (c.useSelector h id) =
      .ok (.ok (), rested)) :
    (PresentationQueue.choose id).between limit ⟨c, ⟨shown, k, some h⟩⟩ =
      .ok (.ok true, rested) := by
  change Act.between limit (.select h id _) ⟨c, ⟨shown, k, none⟩⟩ = _
  simp only [Act.between, followed]
  rfl

/-- The handle of a line is taken out and used. -/
theorem between_proceed (limit : Nat) (c : Coordinator PresentationQueue)
    (shown : List PresentationEvent) (k : Continuation) (h : Option Selector) :
    PresentationQueue.proceed.between limit ⟨c, ⟨shown, some k, h⟩⟩ =
      (Session.follow limit ⟨c, ⟨shown, none, h⟩⟩ (c.useContinuation k)).map fun r =>
        (r.1.map fun _ => true, r.2) := by
  change Act.between limit (.resume k fun r => .done (r.map fun _ => true))
    ⟨c, ⟨shown, none, h⟩⟩ = _
  simp only [Act.between]
  cases Session.follow limit ⟨c, ⟨shown, none, h⟩⟩ (c.useContinuation k) <;> rfl

section

variable (settings : Settings) (text : Line → String) {m : Machine} {memory : MemoryStore}
  {now : Duration} {g : Nat} {events : List LifecycleEvent} {shown : List PresentationEvent}
  {w trace more : List TerminalEvent} {line : String} {input : List String}

/-! ### Turns -/

theorem plays_rest {y : Yield} {m' : Machine} {memory' : MemoryStore} {s : Stage}
    (yielded : m.next.onMemory memory = ((.ok y, m'), memory'))
    (delivered : (flowing settings text m' memory' now g events shown).deliver y = .ok (.rest, s))
    (settled : s.settle = s) (later : s.PlaysOn input trace) :
    (flowing settings text m memory now g events shown).Plays input trace := by
  refine .rests (fun turns => ?_) later
  unfold Session.run
  rw [turn_flowing settings text yielded, delivered]
  simp only [settled]

theorem plays_again {y : Yield} {m' : Machine} {memory' : MemoryStore} {s : Stage}
    (yielded : m.next.onMemory memory = ((.ok y, m'), memory'))
    (delivered : (flowing settings text m' memory' now g events shown).deliver y = .ok (.again, s))
    (later : s.Plays input trace) :
    (flowing settings text m memory now g events shown).Plays input trace := by
  refine .turns 1 (fun turns => ?_) later
  rw [Session.run, turn_flowing settings text yielded, delivered]

/-- A machine that does the same next plays the same. -/
theorem plays_congr {m' : Machine} {memory' : MemoryStore}
    (same : m.next.onMemory memory = m'.next.onMemory memory')
    (later : (flowing settings text m' memory' now g events shown).Plays input trace) :
    (flowing settings text m memory now g events shown).Plays input trace :=
  .turns 0 (run_flowing_congr settings text same) later

/-- The end of the dialogue is the end of the playthrough. -/
theorem playsOn_ended (shows : renderAll shown = (w, .ok ())) :
    (ended settings text m memory now g events shown).PlaysOn input w := by
  rw [← List.append_nil w]
  exact .ends shows (fun _ => rfl) rfl

/-! ### Lines -/

theorem playsOn_line_nil (shows : renderAll shown = (w, .ok ())) :
    (saying settings text m memory now g events shown).PlaysOn [] w := by
  rw [← List.append_nil w]
  exact .quits [] shows fun _ => rfl

theorem playsOn_line_quit (shows : renderAll shown = (w, .ok ()))
    (quits : PlayerInput.ofLine line = .quit) :
    (saying settings text m memory now g events shown).PlaysOn (line :: input)
      (w ++ [.read line]) := by
  refine .quits (input.map some) shows fun limit => ?_
  have answer (s : Stage) : answerLine limit s line = .ok s.quit := by
    unfold answerLine
    rw [quits]
  change (answerLine limit _ line >>= _) = _
  rw [answer]
  rfl

theorem playsOn_line (shows : renderAll shown = (w, .ok ()))
    (goes : PlayerInput.ofLine line ≠ .quit)
    (later : (flowing settings text m memory now (g + 1) events []).Plays input more) :
    (saying settings text m memory now g events shown).PlaysOn (line :: input)
      (w ++ [.read line] ++ more) := by
  refine .goes shows (fun limit rested ran => ?_) later
  have answer (s : Stage) : answerLine limit s line =
      (PresentationQueue.proceed.between limit s).map carryOn := by
    unfold answerLine
    split
    · rename_i quits
      exact absurd quits goes
    · rfl
  have resumed : PresentationQueue.proceed.between limit
      (saying settings text m memory now g events []) = .ok (.ok true, rested) := by
    refine (between_proceed limit _ [] ⟨g⟩ none).trans ?_
    have followed := follow_scene settings text limit m memory ⟨now, []⟩ g .line events []
    rw [ran] at followed
    exact congrArg _ followed
  change (answerLine limit (saying settings text m memory now g events []) line >>= _) = _
  rw [answer, resumed]
  rfl

/-! ### Time -/

theorem playsOn_wait {d later : Duration} (shows : renderAll shown = (w, .ok ()))
    (added : now.add? d = some later)
    (plays : (flowing settings text m memory later (g + 1) events []).Plays input more) :
    (sleeping settings text m memory now later g events shown).PlaysOn input
      (w ++ [.slept d] ++ more) := by
  refine .goes shows (fun limit rested ran => ?_) plays
  have need : (sleeping settings text m memory now later g events []).need = .time d := by
    change Need.time (later.sub now) = _
    rw [Duration.sub_of_add added]
  -- the clock comes to the deadline of the only timer there is
  have advanced : (sleeping settings text m memory now later g events
      []).coordinator.timers.advance? d = some ([⟨g⟩], ⟨later, []⟩) := by
    simp [sleeping, scene, Timers.advance?, added, Timers.isDue, Timers.sortByDeadline,
      Timers.insertByDeadline]
  have updated : Session.update limit (sleeping settings text m memory now later g events []) d =
      .ok (.ok (), rested) := by
    unfold Session.update
    rw [advanced]
    change (Session.follow limit (scene settings text .running m memory ⟨later, []⟩ g
      (some .command) events ⟨[], none, none⟩) (Coordinator.useContinuation (scene settings text
        .running m memory ⟨later, []⟩ g (some .command) events
          ⟨[], none, none⟩).coordinator ⟨g⟩) >>= _) = _
    rw [follow_scene, ran]
    rfl
  change meet limit (sleeping settings text m memory now later g events []) _ = _
  unfold meet
  rw [need]
  change (sleep limit (sleeping settings text m memory now later g events []) d >>= _) = _
  unfold sleep
  rw [updated]
  rfl

/-! ### Choices -/

theorem meet_offering {limit : Nat} {ids : List Nat} {r : Reaction} {lines : List InputLine}
    (answers : answerChoice limit (offering settings text m memory now g ids events []) line =
      .ok r) :
    (offering settings text m memory now g ids events []).meet limit (some line :: lines) =
      .ok (.wrote prompt :: .read line :: write r.text, r, lines) := by
  change ((answerChoice limit (offering settings text m memory now g ids events []) line >>= _) >>=
    _) = _
  rw [answers]
  rfl

/-- An answer that chooses nothing. -/
theorem playsOn_choice_again {ids : List Nat} {said : String}
    (shows : renderAll shown = (w, .ok ())) (nonempty : said.isEmpty = false)
    (answers : ∀ limit, answerChoice limit (offering settings text m memory now g ids events [])
      line = .ok ⟨said, .on, offering settings text m memory now g ids events []⟩)
    (later : (offering settings text m memory now g ids events []).PlaysOn input more) :
    (offering settings text m memory now g ids events shown).PlaysOn (line :: input)
      (w ++ [.wrote prompt, .read line, .wrote said] ++ more) := by
  refine .again said shows (fun limit => ?_) later
  refine (meet_offering settings text (answers limit)).trans ?_
  simp only [write, nonempty]
  rfl

theorem playsOn_choice {ids : List Nat} {id : Nat} {m' : Machine}
    (shows : renderAll shown = (w, .ok ())) (said : PlayerInput.ofLine line = .choice id)
    (offered : id ∈ ids) (chosen : m.choose id = .ok m')
    (later : (flowing settings text m' memory now (g + 1) events []).Plays input more) :
    (offering settings text m memory now g ids events shown).PlaysOn (line :: input)
      (w ++ [.wrote prompt, .read line] ++ more) := by
  refine .goes shows (fun limit rested ran => ?_) later
  refine meet_offering settings text (r := ⟨"", .on, rested⟩) ?_
  unfold answerChoice
  rw [said]
  have followed := follow_chosen settings text limit memory ⟨now, []⟩ g events [] offered chosen
  rw [ran] at followed
  change ((PresentationQueue.choose id).between limit _ >>= _) = _
  rw [offering, scene, between_choose_resumed followed]
  rfl

/-- The player asks until it is given the number of an option, or the input ends, or it is told to
    leave. -/
theorem playsOn_ask {options : List Choice} {answer : Option (Choice × List String)}
    (shows : renderAll shown = (w, .ok ()))
    (asked : Interpreter.ask options input = (trace, answer))
    (left : answer = none → more = [])
    (goes : ∀ c rest, answer = some (c, rest) → options.find? (·.id == c.id) = some c →
      ∃ m', m.choose c.id = .ok m' ∧
        (flowing settings text m' memory now (g + 1) events []).Plays rest more) :
    (offering settings text m memory now g (options.map (·.id)) events shown).PlaysOn input
      (w ++ trace ++ more) := by
  induction input generalizing shown w trace with
  | nil =>
    cases asked
    rw [left rfl, List.append_nil]
    exact .quits [] shows fun _ => rfl
  | cons line input ih =>
    -- a round that leads to the next question
    have again {said : String} {t : List TerminalEvent} (nonempty : said.isEmpty = false)
        (answers : ∀ limit, answerChoice limit (offering settings text m memory now g
          (options.map (·.id)) events []) line = .ok ⟨said, .on, offering settings text m memory now
            g (options.map (·.id)) events []⟩)
        (asked : Interpreter.ask options input = (t, answer)) :
        (offering settings text m memory now g (options.map (·.id)) events shown).PlaysOn
          (line :: input) (w ++ .wrote prompt :: .read line :: .wrote said :: t ++ more) := by
      have plays := playsOn_choice_again settings text shows nonempty answers (ih rfl asked)
      simpa using plays
    cases rest : Interpreter.ask options input with
    | mk t a =>
    simp only [Interpreter.ask, rest] at asked
    cases said : PlayerInput.ofLine line with
    | quit =>
      rw [said] at asked
      cases asked
      rw [left rfl, List.append_nil]
      refine .quits (input.map some) shows fun limit => ?_
      have answers (s : Stage) : answerChoice limit s line = .ok s.quit := by
        unfold answerChoice
        rw [said]
      exact meet_offering settings text (answers _)
    | choice id =>
      simp only [said] at asked
      cases found : options.find? (·.id == id) with
      | none =>
        rw [found] at asked
        cases asked
        refine again (notOffered_nonempty id) (fun limit => ?_) rest
        have unknown : id ∉ options.map (·.id) := by
          simpa using found
        have refused : (PresentationQueue.choose id).between limit (offering settings text m memory
            now g (options.map (·.id)) events []) = .ok (.error (.runtime (.invalidOption id)),
              offering settings text m memory now g (options.map (·.id)) events []) := by
          refine between_choose_refused limit [] none ?_
          exact useSelector_refused settings text m memory ⟨now, []⟩ g events
            ⟨[], none, some ⟨g⟩⟩ unknown
        unfold answerChoice
        rw [said]
        change ((PresentationQueue.choose id).between limit _ >>= _) = _
        rw [refused]
        rfl
      | some c =>
        rw [found] at asked
        cases asked
        have same : c.id = id := by simpa using List.find?_some found
        obtain ⟨m', chosen, later⟩ := goes c input rfl (same ▸ found)
        have offered : c.id ∈ options.map (·.id) :=
          List.mem_map_of_mem (List.mem_of_find?_eq_some found)
        exact playsOn_choice settings text shows (same ▸ said) offered chosen later
    | next | unknown =>
      rw [said] at asked
      cases asked
      refine again numberWanted_nonempty (fun limit => ?_) rest
      unfold answerChoice
      rw [said]

end

end Stage

end DialogueEngine
