import DialogueEngine.Proofs.Player.Rounds

/-! # The player and the direct interpreter

A playthrough is what the direct interpreter says it is. The machine, the coordinator, the queueing
presenter and the player are taken together here: each instruction of the interpreter is matched by
the turns and rounds that it costs them.

* `Machine.placed` — the machine while nothing is waited for.
* `Stage.Enacts` — from a place in a node on the player does what the interpreter does.
* `Stage.enacts_step` — one instruction.
* `Stage.enacts_run` — instructions, one after the other.
* `Stage.play_recites` — a whole playthrough.
-/

namespace DialogueEngine

/-! ## Operands -/

variable {α β : Type}

theorem Access.onMemory_bind (x : Access α) (f : α → Access β) (m : MemoryStore) :
    (x.bind f).onMemory m = (f (x.onMemory m).1).onMemory (x.onMemory m).2 := by
  induction x generalizing m with
  | done a => rfl
  | read name k ih => exact ih _ m
  | write name value k ih => exact ih _ (m.set name value)

theorem Operand.evaluate_onMemory (op : Operand) (m : MemoryStore) :
    op.evaluate.onMemory m = (op.valueIn m, m) := by
  cases op with
  | literal value => rfl
  | reference name =>
    simp only [evaluate, valueIn, Access.onMemory]
    cases m.find? name <;> rfl

theorem Operand.texts_onMemory (ops : List Operand) (m : MemoryStore) :
    (Operand.texts ops).onMemory m = (Operand.textsIn m ops, m) := by
  induction ops with
  | nil => rfl
  | cons op ops ih =>
    rw [texts, Access.onMemory_bind, evaluate_onMemory]
    simp only [textsIn, List.mapM_cons]
    cases op.valueIn m with
    | error e => rfl
    | ok value =>
      simp only [Access.onMemory_bind, ih]
      change _ = ((Operand.textsIn m ops).bind fun ts => .ok (value.text :: ts), m)
      cases Operand.textsIn m ops <;> rfl

/-! ## The machine at a place -/

/-- From a place on there are these instructions left in a node. -/
def Program.Reads (p : Program) (f : Frame) (rest : List Instruction) : Prop :=
  ∃ n, p.find? f.node = some n ∧ n.instructions.drop f.position = rest

namespace Program

variable {p : Program}

theorem Reads.next {f : Frame} {i : Instruction} {rest : List Instruction}
    (reads : p.Reads f (i :: rest)) : p.Reads ⟨f.node, f.position + 1⟩ rest := by
  obtain ⟨n, found, left⟩ := reads
  refine ⟨n, found, ?_⟩
  rw [← List.drop_drop, left]
  rfl

theorem Reads.begin {node : String} {n : Node} (found : p.find? node = some n) :
    p.Reads ⟨node, 0⟩ n.instructions :=
  ⟨n, found, rfl⟩

theorem defines_of_find? {node : String} {n : Node} (found : p.find? node = some n) :
    p.defines node = true := by
  change (p.find? node).isSome = true
  rw [found]
  rfl

end Program

namespace Machine

/-- The machine at a place, with options added and yields queued. -/
def placed (p : Program) (f : Frame) (options : List Choice) (queue : List Yield) : Machine :=
  ⟨some p, some f, .running, options, none, queue⟩

variable {p : Program} {f : Frame} {options : List Choice} {node : String} {n : Node}

theorem yieldQueued_eq {m : Machine} (queued : m.queue ≠ []) : m.yieldQueued = m.next := by
  unfold next
  rw [if_neg (by simpa using queued)]

theorem next_queued {m : Machine} {y : Yield} {rest : List Yield} (queued : m.queue = y :: rest) :
    m.next = .done (.ok y, { m with queue := rest }) := by
  rw [← yieldQueued_eq (by simp [queued])]
  simp only [yieldQueued, pop, queued]

theorem next_placed {rest : List Instruction} (reads : p.Reads f rest) :
    (placed p f options []).next = (placed p f options []).execute rest := by
  obtain ⟨n, found, rfl⟩ := reads
  have remaining : (placed p f options []).remaining = .ok (n.instructions.drop f.position) := by
    simp only [Machine.remaining, placed, found]
  have running : (placed p f options []).state = .running := rfl
  have empty : (placed p f options []).queue.isEmpty = true := rfl
  simp only [next, empty, running, remaining, if_true]

theorem moveTo_found {m : Machine} (program : m.program = some p) (frame : m.frame = some f)
    (found : p.find? node = some n) : m.moveTo node = .ok { m with
      frame := some ⟨node, 0⟩
      pending := []
      queue := m.queue ++ [.nodeComplete f.node, .nodeStart node] } := by
  simp [moveTo, defines, leaving, program, frame, Program.defines_of_find? found]

/-- A jump is what the machine does next when it has been queued. -/
theorem jump_placed (found : p.find? node = some n) : (placed p f options []).jump node =
    (placed p ⟨node, 0⟩ [] [.nodeComplete f.node, .nodeStart node]).next := by
  unfold jump
  rw [moveTo_found rfl rfl found]
  exact yieldQueued_eq (List.cons_ne_nil _ _)

theorem choose_offered {c : Choice} {id : Nat} (offered : options.find? (·.id == id) = some c)
    (found : p.find? c.destination = some n) : (placed p f options []).offer.choose id =
      .ok (placed p ⟨c.destination, 0⟩ [] [.nodeComplete f.node, .nodeStart c.destination]) := by
  have waits : (placed p f options []).offer.state = .awaitingChoice := rfl
  have chosen : (placed p f options []).offer.offered.bind (·.find? id) = some c := offered
  unfold choose
  rw [if_pos waits, chosen]
  change ((placed p f options []).offer.moveTo c.destination).map _ = _
  rw [moveTo_found (f := f) (p := p) rfl rfl found]
  rfl

theorem enter_found {m : Machine} (program : m.program = some p) (found : p.find? node = some n) :
    m.enter node = .ok (placed p ⟨node, 0⟩ [] [.nodeStart node]) := by
  simp only [enter, program, Program.defines_of_find? found, if_true, stop, placed]

end Machine

namespace Interpreter

/-- The options are numbered from zero on. -/
def Numbered (i : Interpreter) : Prop := i.options.map (·.id) = List.range i.options.length

theorem Numbered.add {i : Interpreter} (numbered : i.Numbered) (line : Line)
    (destination : String) :
    Numbered { i with options := i.options ++ [⟨i.options.length, line, destination⟩] } := by
  unfold Numbered at *
  simp [numbered, List.range_succ]

end Interpreter

namespace Stage

variable (settings : Settings) (text : Line → String) (p : Program)

/-- From a place in a node on the player does what the interpreter does. The interpreter writes at
    once what the presenter collects up to the next round: `w` is what has been collected before. -/
def Enacts (i : Interpreter) (trace : List TerminalEvent) : Prop :=
  ∀ f g events shown w, p.Reads f i.rest → i.Numbered → renderAll shown = (w, .ok ()) →
    (flowing settings text (.placed p f i.options []) i.memory i.now g events shown).Plays i.input
      (w ++ trace)

/-- The player does what an instruction comes to. -/
def EnactsStep (i : Interpreter) : Interpreter.Step → Prop
  | .goes trace next => ∀ more, Enacts settings text p next more →
      Enacts settings text p i (trace ++ more)
  | .ends trace => Enacts settings text p i trace
  | .halts _ => True

variable {p} {i : Interpreter} {rest : List Instruction} {m : Machine} {memory : MemoryStore}
  {now : Duration} {g : Nat} {events : List LifecycleEvent} {shown : List PresentationEvent}
  {w trace more : List TerminalEvent} {input : List String}

/-! ## Marks -/

theorem plays_mark {y : Yield} {queue : List Yield} (queued : m.queue = y :: queue)
    (mark : y.IsMark)
    (later : ∀ events, (flowing settings text { m with queue := queue } memory now g events
      shown).Plays input trace) :
    (flowing settings text m memory now g events shown).Plays input trace := by
  have yielded : m.next.onMemory memory = ((.ok y, { m with queue := queue }), memory) := by
    rw [Machine.next_queued queued]
    rfl
  cases mark with
  | nodeStart node => exact plays_again settings text yielded rfl (later _)
  | nodeComplete node => exact plays_again settings text yielded rfl (later _)

/-- At the beginning of a node there may be marks left to be taken. -/
theorem plays_marks {node : String} {n : Node} (found : p.find? node = some n)
    (enacts : Enacts settings text p ⟨n.instructions, [], memory, now, input⟩ trace)
    (shows : renderAll shown = (w, .ok ())) {queue : List Yield} (marks : ∀ y ∈ queue, y.IsMark) :
    (flowing settings text (.placed p ⟨node, 0⟩ [] queue) memory now g events shown).Plays input
      (w ++ trace) := by
  induction queue generalizing events with
  | nil => exact enacts ⟨node, 0⟩ g events shown w (.begin found) rfl shows
  | cons y queue ih =>
    refine plays_mark settings text rfl (marks y List.mem_cons_self) fun events => ?_
    exact ih fun z hz => marks z (List.mem_cons_of_mem _ hz)

theorem leaving_marks (node target : String) :
    ∀ y ∈ [Yield.nodeComplete node, .nodeStart target], y.IsMark := by
  intro y hy
  simp only [List.mem_cons, List.not_mem_nil, or_false] at hy
  rcases hy with rfl | rfl
  · exact .nodeComplete node
  · exact .nodeStart target

/-! ## Instructions -/

/-- An instruction that hands nothing out. -/
theorem enacts_silent {j : Interpreter} {x : Instruction} (left : i.rest = x :: j.rest)
    (input : j.input = i.input) (now : j.now = i.now) (numbered : i.Numbered → j.Numbered)
    (same : ∀ f, ((Machine.placed p f i.options []).execute (x :: j.rest)).onMemory i.memory =
      ((Machine.placed p ⟨f.node, f.position + 1⟩ j.options []).execute j.rest).onMemory j.memory) :
    EnactsStep settings text p i (.goes [] j) := by
  intro more later f g events shown w reads h shows
  rw [left] at reads
  have plays := later ⟨f.node, f.position + 1⟩ g events shown w reads.next (numbered h) shows
  rw [input, now] at plays
  refine plays_congr settings text ?_ plays
  rw [Machine.next_placed reads, Machine.next_placed reads.next]
  exact same f

/-- Goes on at the beginning of a node. -/
theorem enacts_goTo {j : Interpreter} {trace : List TerminalEvent} (node : String)
    (goes : ∀ more n, p.find? node = some n →
      Enacts settings text p ⟨n.instructions, [], j.memory, j.now, j.input⟩ more →
        Enacts settings text p i (trace ++ more)) :
    EnactsStep settings text p i (j.goTo p trace node) := by
  unfold Interpreter.goTo
  cases found : p.find? node with
  | none => trivial
  | some n => exact fun more later => goes more n found later

theorem enacts_jump {x : Instruction} (node : String) (left : i.rest = x :: rest)
    (same : ∀ f, ((Machine.placed p f i.options []).execute (x :: rest)).onMemory i.memory =
      ((Machine.placed p ⟨f.node, f.position + 1⟩ i.options []).jump node).onMemory i.memory) :
    EnactsStep settings text p i (Interpreter.goTo p { i with rest := rest } [] node) := by
  refine enacts_goTo settings text node fun more n found later => ?_
  intro f g events shown w reads h shows
  rw [left] at reads
  refine plays_congr settings text ?_
    (plays_marks settings text found later shows (leaving_marks f.node node))
  rw [Machine.next_placed reads, same f, Machine.jump_placed found]

/-- An instruction that hands something out. -/
theorem yields_placed {f : Frame} {x : Instruction} {options : List Choice} {y : Yield}
    {m' : Machine} (reads : p.Reads f (x :: rest))
    (executed : ((Machine.placed p f options []).execute (x :: rest)).onMemory memory =
      ((.ok y, m'), memory)) :
    (Machine.placed p f options []).next.onMemory memory = ((.ok y, m'), memory) := by
  rw [Machine.next_placed reads, executed]

/-! ### Lines -/

theorem execute_line {f : Frame} {options : List Choice} {id : String} {ops : List Operand}
    {ts : List String} (texts : Operand.textsIn memory ops = .ok ts) :
    ((Machine.placed p f options []).execute (.line id ops :: rest)).onMemory memory =
      ((.ok (.line ⟨id, ts⟩), .placed p ⟨f.node, f.position + 1⟩ options []), memory) := by
  rw [Machine.execute, Access.onMemory_bind, Operand.texts_onMemory, texts]
  rfl

theorem renderAll_line (shows : renderAll shown = (w, .ok ())) (said : String) :
    renderAll (shown ++ [.displayLine said]) =
      (w ++ [.wrote ((if said.isEmpty then "..." else said) ++ "\n")], .ok ()) :=
  renderAll_append shows (renderAll_one rfl (by simp))

theorem enacts_line {id : String} {ops : List Operand} {ts : List String}
    (left : i.rest = .line id ops :: rest) (texts : Operand.textsIn i.memory ops = .ok ts) :
    EnactsStep settings text p i (Interpreter.say { i with rest := rest } (text ⟨id, ts⟩)) := by
  obtain ⟨all, options, memory, now, input⟩ := i
  cases left
  have plays {f : Frame} {g : Nat} {events : List LifecycleEvent} {shown : List PresentationEvent}
      {trace : List TerminalEvent} (reads : p.Reads f (.line id ops :: rest))
      (later : (saying settings text (.placed p ⟨f.node, f.position + 1⟩ options []) memory now
        (g + 1) events (shown ++ [.displayLine (text ⟨id, ts⟩)])).PlaysOn input trace) :
      (flowing settings text (.placed p f options []) memory now g events shown).Plays input
        trace :=
    plays_rest settings text (yields_placed reads (execute_line texts)) (deliver_line ..) rfl later
  unfold Interpreter.say
  cases input with
  | nil =>
    intro f g events shown w reads h shows
    exact plays reads (playsOn_line_nil settings text (renderAll_line shows _))
  | cons line input =>
    simp only
    split
    · rename_i quits
      intro f g events shown w reads h shows
      have shows := renderAll_line shows (text ⟨id, ts⟩)
      refine plays reads ?_
      rw [List.append_cons w]
      exact playsOn_line_quit settings text shows quits
    · rename_i goes
      intro more later f g events shown w reads h shows
      have shows := renderAll_line shows (text ⟨id, ts⟩)
      have onward := later ⟨f.node, f.position + 1⟩ (g + 2) events [] [] reads.next h rfl
      refine plays reads ?_
      rw [← List.append_assoc w, List.append_cons w]
      exact playsOn_line settings text shows goes onward

/-! ### Choices -/

/-- Numbered options are shown in their order. -/
theorem rendering_options {options : List Choice} (some : options ≠ [])
    (numbered : options.map (·.id) = List.range options.length) :
    (PresentationEvent.displayOptions (PresentationQueue.optionTexts ⟨options⟩ text)).rendering =
      .ok (String.join (options.map fun c => renderOption (c.id, text c.line))) := by
  -- the table of the texts is ordered by number, as the options are
  have sorted : Entries.Sorted (options.map fun c => (c.id, text c.line)) := by
    have increasing : (options.map (·.id)).Pairwise (· < ·) := by
      rw [numbered]
      exact List.pairwise_lt_range
    rw [Entries.Sorted, List.pairwise_map]
    exact (List.pairwise_map.mp increasing).imp fun less => decide_eq_true less
  have entries : (PresentationQueue.optionTexts ⟨options⟩ text).entries =
      options.map fun c => (c.id, text c.line) := Dict.entries_ofList sorted
  have nonempty : (PresentationQueue.optionTexts ⟨options⟩ text).isEmpty = false := by
    simpa [Dict.isEmpty, entries] using some
  simp only [PresentationEvent.rendering, nonempty, entries, List.map_map]
  rfl

theorem renderAll_options {options : List Choice} (shows : renderAll shown = (w, .ok ()))
    (some : options ≠ []) (numbered : options.map (·.id) = List.range options.length) :
    renderAll (shown ++ [.displayOptions (PresentationQueue.optionTexts ⟨options⟩ text)]) =
      (w ++ [.wrote (String.join (options.map fun c => renderOption (c.id, text c.line)))],
        .ok ()) := by
  refine renderAll_append shows (renderAll_one (rendering_options text some numbered) ?_)
  obtain ⟨c, cs, rfl⟩ := List.exists_cons_of_ne_nil some
  simp [renderOption]

theorem enacts_offer (left : i.rest = .showOptions :: rest) (some : i.options ≠ []) :
    EnactsStep settings text p i (Interpreter.offer p text { i with rest := rest }) := by
  obtain ⟨all, options, memory, now, input⟩ := i
  cases left
  have nonempty : options.isEmpty = false := by simpa using some
  have offers {f : Frame} {g : Nat} {events : List LifecycleEvent} {shown : List PresentationEvent}
      {trace : List TerminalEvent} (reads : p.Reads f (.showOptions :: rest))
      (later : (offering settings text (Machine.placed p ⟨f.node, f.position + 1⟩ options []).offer
        memory now (g + 1) (options.map (·.id)) events (shown ++ [.displayOptions
          (PresentationQueue.optionTexts ⟨options⟩ text)])).PlaysOn input trace) :
      (flowing settings text (.placed p f options []) memory now g events shown).Plays input
        trace := by
    refine plays_rest settings text (yields_placed reads ?_) (deliver_choices ..) rfl later
    have pending : (Machine.placed p f options []).advance.pending.isEmpty = false := nonempty
    simp only [Machine.execute, pending]
    rfl
  unfold Interpreter.offer
  dsimp only
  cases asked : Interpreter.ask options input with
  | mk trace answer =>
  dsimp only
  cases answer with
  | none =>
    intro f g events shown w reads h shows
    have shows := renderAll_options text shows some h
    refine offers reads ?_
    rw [List.append_cons w, ← List.append_nil (_ ++ trace)]
    exact playsOn_ask settings text shows asked (fun _ => rfl) fun _ _ h => by cases h
  | some chosen =>
    obtain ⟨c, rest⟩ := chosen
    refine enacts_goTo settings text c.destination fun more n found later => ?_
    intro f g events shown w reads h shows
    have shows := renderAll_options text shows some h
    refine offers reads ?_
    rw [← List.append_assoc w, List.append_cons w]
    -- the dialogue goes on where the answer leads, and nothing has been shown yet
    refine playsOn_ask settings text shows asked (fun h => by cases h) fun c' rest' h offered => ?_
    cases h
    have nothing : renderAll [] = ([], .ok ()) := rfl
    refine ⟨_, Machine.choose_offered offered found, ?_⟩
    exact plays_marks settings text found later nothing (leaving_marks f.node c.destination)

/-! ### Commands -/

theorem enacts_command {c : String} (left : i.rest = .command c :: rest) :
    EnactsStep settings text p i (Interpreter.command { i with rest := rest } ⟨c⟩) := by
  obtain ⟨all, options, memory, now, input⟩ := i
  cases left
  have yields {f : Frame} (reads : p.Reads f (.command c :: rest)) :
      (Machine.placed p f options []).next.onMemory memory =
        ((.ok (.command ⟨c⟩), .placed p ⟨f.node, f.position + 1⟩ options []), memory) :=
    yields_placed reads rfl
  unfold Interpreter.command
  dsimp only
  cases words : Command.tokens ⟨c⟩ with
  | nil =>
    intro more later f g events shown w reads h shows
    refine plays_again settings text (yields reads) (deliver_blank settings text words) ?_
    exact later _ _ _ _ _ reads.next h shows
  | cons name args =>
    dsimp only
    split
    · rename_i waits
      rw [waits] at words
      -- without a time to wait the turn goes on with the next instruction
      have atOnce (zero : ∀ d, Duration.parse? args = some d → d.isZero = true) :
          EnactsStep settings text p ⟨.command c :: rest, options, memory, now, input⟩
            (.goes [] ⟨rest, options, memory, now, input⟩) := by
        intro more later f g events shown w reads h shows
        refine plays_again settings text (yields reads)
          (deliver_wait_none settings text words zero) ?_
        exact later _ _ _ _ _ reads.next h shows
      cases parsed : Duration.parse? args with
      | none =>
        refine atOnce fun d h => ?_
        rw [parsed] at h
        cases h
      | some d =>
        dsimp only
        split
        · rename_i zero
          refine atOnce fun d' h => ?_
          rw [parsed] at h
          cases h
          exact zero
        · rename_i nonzero
          cases added : now.add? d with
          | none => trivial
          | some deadline =>
            intro more later f g events shown w reads h shows
            refine plays_rest settings text (yields reads) (deliver_wait_some settings text words
              parsed (Bool.eq_false_iff.mpr nonzero) added) rfl ?_
            rw [← List.append_assoc w]
            exact playsOn_wait settings text shows added
              (later _ (g + 2) events [] [] reads.next h rfl)
    · rename_i unknown
      intro more later f g events shown w reads h shows
      refine plays_again settings text (yields reads)
        (deliver_unhandled settings text words unknown) ?_
      have passed := renderAll_append shows
        (renderAll_one (e := .unhandledCommand c) rfl (by simp [toString]))
      rw [← List.append_assoc w]
      exact later _ _ _ _ _ reads.next h passed

/-! ### The end -/

theorem enacts_finish (finishes : ∀ f, (Machine.placed p f i.options []).execute i.rest =
    (Machine.placed p f i.options []).finish.yieldQueued) :
    EnactsStep settings text p i (.ends [.wrote "（完）\n"]) := by
  intro f g events shown w reads h shows
  have same : (Machine.placed p f i.options []).next =
      (Machine.placed p f i.options []).finish.next := by
    rw [Machine.next_placed reads, finishes f]
    exact Machine.yieldQueued_eq (List.cons_ne_nil _ _)
  -- first that the node is left, and then that the dialogue has come to its end
  refine plays_congr settings text (congrArg (·.onMemory i.memory) same) ?_
  refine plays_mark settings text (y := .nodeComplete f.node) rfl (.nodeComplete _) fun events => ?_
  refine plays_rest settings text rfl (deliver_end ..) rfl ?_
  exact playsOn_ended settings text (renderAll_append shows (renderAll_one rfl (by decide)))

/-! ## Steps and runs -/

/-- The player does what one instruction says. -/
theorem enacts_step (i : Interpreter) : EnactsStep settings text p i (i.step p text) := by
  obtain ⟨left, options, memory, now, input⟩ := i
  cases left with
  | nil => exact enacts_finish settings text fun _ => rfl
  | cons x rest =>
    unfold Interpreter.step
    dsimp only
    cases x with
    | line id substitutions =>
      cases texts : Operand.textsIn memory substitutions with
      | error e => simp only [texts, EnactsStep]
      | ok ts =>
        simp only [texts]
        exact enacts_line settings text rfl texts
    | addOption id substitutions destination =>
      cases texts : Operand.textsIn memory substitutions with
      | error e => simp only [texts, EnactsStep]
      | ok ts =>
        simp only [texts]
        refine enacts_silent settings text rfl rfl rfl
          (fun h => Interpreter.Numbered.add h ⟨id, ts⟩ destination) fun f => ?_
        rw [Machine.execute, Access.onMemory_bind, Operand.texts_onMemory, texts]
        rfl
    | showOptions =>
      dsimp only
      split
      · rename_i none
        refine enacts_silent settings text rfl rfl rfl id fun f => ?_
        have pending : (Machine.placed p f options []).advance.pending.isEmpty = true := none
        simp only [Machine.execute, pending, if_true]
        rfl
      · rename_i some
        exact enacts_offer settings text rfl (by simpa using some)
    | command c => exact enacts_command settings text rfl
    | set name operand =>
      cases value : operand.valueIn memory with
      | error e => simp only [value, EnactsStep]
      | ok v =>
        simp only [value]
        refine enacts_silent settings text rfl rfl rfl id fun f => ?_
        rw [Machine.execute, Access.onMemory_bind, Operand.evaluate_onMemory, value]
        rfl
    | jumpIf name node =>
      dsimp only
      split
      · rename_i holds
        refine enacts_jump settings text node rfl fun f => ?_
        simp only [Machine.execute, Access.onMemory, holds, if_true]
        rfl
      · rename_i fails
        refine enacts_silent settings text rfl rfl rfl id fun f => ?_
        simp only [Machine.execute, Access.onMemory, fails, if_false]
        rfl
    | runNode node => exact enacts_jump settings text node rfl fun _ => rfl
    | stop => exact enacts_finish settings text fun _ => rfl

/-- The player does what a whole run of the interpreter says. -/
theorem enacts_run {fuel : Nat} (ran : Interpreter.run p text fuel i = .ok trace) :
    Enacts settings text p i trace := by
  induction fuel generalizing i trace with
  | zero => cases ran
  | succ fuel ih =>
    have step := enacts_step settings text (p := p) i
    unfold Interpreter.run at ran
    cases stepped : i.step p text with
    | goes said next =>
      rw [stepped] at ran step
      dsimp only at ran
      cases later : Interpreter.run p text fuel next with
      | error why =>
        rw [later] at ran
        cases ran
      | ok more =>
        rw [later] at ran
        cases ran
        exact step more (ih later)
    | ends said =>
      rw [stepped] at ran step
      cases ran
      exact step
    | halts why =>
      rw [stepped] at ran
      cases ran

/-- A playthrough of any loaded program by any finite input is what the direct interpreter says, if
    that comes to an end: all that is written, read and slept is the same, in the same order. -/
theorem play_recites (settings : Settings) (texts : StringTable) (programs : List Program)
    {p : Program} (combined : Program.combine programs = .ok p) (node : String)
    (input : List String) {fuel : Nat} {trace : List TerminalEvent}
    (recited : p.recite texts.resolve (.ofDefaults settings.initialVariables) node input fuel =
      .ok trace) :
    ∃ s, (Stage.new settings texts).load programs = .ok (.ok (), s) ∧
      ∃ enough, ∀ limit, enough ≤ limit → ∃ after,
        play limit s node (input.map some) = .ok ⟨trace, .ok (), after⟩ ∧
          after.coordinator.isRunning = false := by
  unfold Program.recite at recited
  cases found : p.find? node with
  | none =>
    rw [found] at recited
    cases recited
  | some n =>
  rw [found] at recited
  -- the dialogue before it is started
  let loaded : Stage := scene settings texts.resolve .notStarted (Machine.empty.load p)
    (.ofDefaults settings.initialVariables) .empty 0 none [] .empty
  have load : (Stage.new settings texts).load programs = .ok (.ok (), loaded) := by
    have idle : (Stage.new settings texts).coordinator.isRunning = false := rfl
    simp only [Session.load, idle, combined]
    rfl
  have starts (limit : Nat) : loaded.startAt limit node = (flowing settings texts.resolve
      (.placed p ⟨node, 0⟩ [] [.nodeStart node]) (.ofDefaults settings.initialVariables) .zero 1 []
        [.dialogueStarted node]).run limit := by
    have idle : loaded.coordinator.isRunning = false := rfl
    have entered : loaded.coordinator.machine.enter node = .ok _ := Machine.enter_found rfl found
    simp only [Session.startAt, idle, entered]
    rfl
  have begun : renderAll [.dialogueStarted node] = ([], .ok ()) := rfl
  have mark : ∀ y ∈ [Yield.nodeStart node], y.IsMark := by
    simpa using Yield.IsMark.nodeStart node
  have marked : (flowing settings texts.resolve (.placed p ⟨node, 0⟩ [] [.nodeStart node])
      (.ofDefaults settings.initialVariables) .zero 1 []
      [.dialogueStarted node]).Plays input trace :=
    plays_marks settings texts.resolve found (enacts_run settings texts.resolve recited) begun mark
  obtain ⟨enough, plays⟩ := marked
  refine ⟨loaded, load, enough, fun limit large => ?_⟩
  obtain ⟨rested, after, ran, played, notRunning⟩ := plays limit limit limit large large large
  refine ⟨after, ?_, notRunning⟩
  unfold play
  rw [starts, ran]
  exact played

/-- A greeting, a choice, a wait without a time and one with a time, and another command. -/
def farewell : Program := ⟨"farewell", Dict.ofList [
  ("End", ⟨[], [.command "wait", .command "wait 1.5", .command "wave twice", .line "bye" []]⟩),
  ("Start", ⟨[], [.line "hello" [.reference "$name"], .addOption "leave" [] "End", .showOptions]⟩)]⟩

def farewellTexts : StringTable := .ofList [("hello", "Hello, \x7b0\x7d!"), ("leave", "Leave")]

def farewellSettings : Settings := ⟨"Start", false, Dict.ofList [("$name", .string "Ann")]⟩

def farewellInput : List String := ["", "7", "0", "q", "more"]

def farewellTrace : List TerminalEvent :=
  [.wrote "Hello, Ann!\n", .read "", .wrote "  [0] Leave\n", .wrote prompt, .read "7",
    .wrote "无效选项: 7\n", .wrote prompt, .read "0", .slept ⟨1500000000, by decide⟩,
    .wrote "<<wave twice>>\n", .wrote "...\n", .read "q"]

theorem play_recites_farewell :
    Program.combine [farewell] = .ok farewell ∧
      farewell.recite farewellTexts.resolve (.ofDefaults farewellSettings.initialVariables) "Start"
        farewellInput 7 = .ok farewellTrace ∧
      ∃ s, (Stage.new farewellSettings farewellTexts).load [farewell] = .ok (.ok (), s) ∧
        ∃ enough, ∀ limit, enough ≤ limit → ∃ after,
          play limit s "Start" (farewellInput.map some) = .ok ⟨farewellTrace, .ok (), after⟩ ∧
            after.coordinator.isRunning = false := by
  have combined : Program.combine [farewell] = .ok farewell := rfl
  have told : (farewell.recite farewellTexts.resolve
      (.ofDefaults farewellSettings.initialVariables) "Start" farewellInput 7).toOption =
        some farewellTrace := by decide +kernel
  cases recited : farewell.recite farewellTexts.resolve
      (.ofDefaults farewellSettings.initialVariables) "Start" farewellInput 7 with
  | error why =>
    rw [recited] at told
    cases told
  | ok trace =>
    rw [recited] at told
    cases told
    exact ⟨combined, rfl,
      play_recites farewellSettings farewellTexts [farewell] combined "Start" _ recited⟩

end Stage

end DialogueEngine
