import DialogueEngine.Proofs.Commands.Addressing
import DialogueEngine.Proofs.Session.Courses
import DialogueEngine.Proofs.Session.Logged

/-! # Who gets a command

A command that is yielded goes to one handler or to the presenter, and if it has no words to
nobody.

* `Consumes` — who gets a command, by the words in its text and by what the table finds.
* `consumes_iff` — there is one answer.
* `Session.Calls`, `Session.deliver_logged` — the calls that a yield is handed over with.
* `Session.turns`, `Session.Handed` — turns one after the other, and what is handed over in them.
* `Session.Handed.turns_logged` — the calls of many turns.
* `Session.commands_consumed` — commands in a run.
-/

namespace DialogueEngine

variable {σ α : Type}

/-! ## Consumers -/

/-- The call of a handler that is known by a name. -/
def Handler.callAs (name : String) (args : List String) (k : Continuation) : Handler σ → HostCall
  | .immediate _ => .immediate name args
  | .blocking _ => .blocking name args k

/-- The calls that a command leads to, if a handle is at hand that can be given out with it. -/
inductive Consumes (t : CommandTable σ) (k : Continuation) (cmd : Command) : List HostCall → Prop
  | nobody (blank : Text.Spaced [] cmd.text.toList) : Consumes t k cmd []
  | named {name : String} {args : List String} {h : Handler σ}
    (spaced : Text.Spaced (name :: args) cmd.text.toList) (found : t.find? name = some h) :
    Consumes t k cmd [h.callAs name args k]
  | ofObject {name object arg : String} {args : List String} {h : Handler σ}
    (spaced : Text.Spaced (name :: object :: arg :: args) cmd.text.toList)
    (unnamed : t.find? name = none) (found : t.find? (object ++ "::" ++ name) = some h) :
    Consumes t k cmd [h.callAs (object ++ "::" ++ name) (arg :: args) k]
  | presented {name : String} {args : List String}
    (spaced : Text.Spaced (name :: args) cmd.text.toList) (unnamed : t.find? name = none)
    (unscoped : ∀ object arg rest, args = object :: arg :: rest →
      t.find? (object ++ "::" ++ name) = none) :
    Consumes t k cmd [.command cmd k]

/-- The calls for a command with the given words. -/
def CommandTable.callsFor (t : CommandTable σ) (k : Continuation) (cmd : Command) :
    List String → List HostCall
  | [] => []
  | name :: args =>
    match t.resolve (name :: args) with
    | none => [.command cmd k]
    | some r => [r.handler.callAs r.name r.args k]

/-- The words of a command decide who gets it. -/
theorem consumes_iff {t : CommandTable σ} {k : Continuation} {cmd : Command}
    {calls : List HostCall} : Consumes t k cmd calls ↔ calls = t.callsFor k cmd cmd.tokens := by
  constructor
  · intro consumes
    cases consumes with
    | nobody blank => rw [cmd.tokens_of_spaced blank]; rfl
    | named spaced found =>
      rw [cmd.tokens_of_spaced spaced, CommandTable.callsFor, CommandTable.resolve_named found]
    | ofObject spaced unnamed found =>
      rw [cmd.tokens_of_spaced spaced, CommandTable.callsFor,
        CommandTable.resolve_scoped unnamed found]
    | presented spaced unnamed unscoped =>
      rw [cmd.tokens_of_spaced spaced, CommandTable.callsFor,
        CommandTable.resolve_none unnamed unscoped]
  · rintro rfl
    have spaced : Text.Spaced cmd.tokens cmd.text.toList := Text.spaced_iff.mpr rfl
    cases tokens : cmd.tokens with
    | nil => exact .nobody (tokens ▸ spaced)
    | cons name args =>
      rw [tokens] at spaced
      cases found : t.find? name with
      | some h =>
        rw [CommandTable.callsFor, CommandTable.resolve_named found]
        exact .named spaced found
      | none =>
        -- Only a command with two arguments is looked up a second time.
        by_cases unscoped : ∀ object arg rest, args = object :: arg :: rest →
            t.find? (object ++ "::" ++ name) = none
        · rw [CommandTable.callsFor, CommandTable.resolve_none found unscoped]
          exact .presented spaced found unscoped
        · simp only [Classical.not_forall] at unscoped
          obtain ⟨object, arg, rest, rfl, elsewhere⟩ := unscoped
          obtain ⟨h, found'⟩ := Option.ne_none_iff_exists'.mp elsewhere
          rw [CommandTable.callsFor, CommandTable.resolve_scoped found found']
          exact .ofObject spaced found found'

theorem CommandTable.resolve_logged (t : CommandTable σ) (words : List String) :
    t.logged.resolve words =
      (t.resolve words).map fun r => ⟨r.name, r.handler.logged r.name, r.args⟩ := by
  cases words with
  | nil => rfl
  | cons name args =>
    simp only [CommandTable.resolve, t.find?_logged]
    cases t.find? name with
    | some h => rfl
    | none =>
      cases args with
      | nil => rfl
      | cons object args =>
        cases args with
        | nil => rfl
        | cons arg rest =>
          simp only [Option.map_none]
          cases t.find? (CommandTable.scopedName object name) <;> rfl

/-! ## One yield -/

namespace Session

/-- The calls that a yield is handed over with. -/
inductive Calls (s : Session σ) : Yield → List HostCall → Prop
  | line (l : Line) : Calls s (.line l) [.line l ⟨s.coordinator.generation + 1⟩]
  | choices (cs : Choices) : Calls s (.choices cs) [.choices cs ⟨s.coordinator.generation + 1⟩]
  | command {cmd : Command} {calls : List HostCall}
    (consumes : Consumes s.coordinator.commands ⟨s.coordinator.generation + 1⟩ cmd calls) :
    Calls s (.command cmd) calls
  | nodeStart (node : String) : Calls s (.nodeStart node) []
  | nodeComplete (node : String) : Calls s (.nodeComplete node) []
  | completed : Calls s .dialogueComplete [.completed]

variable (s : Session σ) (log : List HostCall)

theorem afterHandover_logged (pace : Pace) :
    (s.logged log).afterHandover pace = withLog log (s.afterHandover pace) := by
  cases woken : s.coordinator.woken with
  | true =>
    have woken' : (s.logged log).coordinator.woken = true := woken
    simp only [afterHandover, woken, woken', if_true]
    rfl
  | false =>
    have woken' : (s.logged log).coordinator.woken = false := woken
    simp only [afterHandover, woken, woken', Bool.false_eq_true, if_false]
    cases pace <;> rfl

theorem handedOver_logged (r : Except CapabilityError Pace) :
    (s.logged log).handedOver r = withLog log (s.handedOver r) := by
  cases r with
  | ok pace => exact s.afterHandover_logged log pace
  | error e => rfl

/-- Host code that is handed something is written down, and goes on in the same way. -/
theorem handOver_logged (call : HostCall) (act : Act σ α) (s : Session σ)
    {f : α × Session σ → Except Fault (Turn × Session σ)}
    {g : α × Session (σ × List HostCall) → Except Fault (Turn × Session (σ × List HostCall))}
    (same : ∀ log r, g (withLog log r) = (f r).map (withLog log)) :
    (act.logged call).within .handover (s.logged log) >>= g =
      (act.within .handover s >>= f).map (withLog (log ++ [call])) := by
  rw [Act.within_logged]
  exact bind_withLog (same _)

theorem deliverCommand_logged (cmd : Command) : (s.logged log).deliverCommand cmd =
    (s.deliverCommand cmd).map (withLog (log ++ s.coordinator.commands.callsFor
      ⟨s.coordinator.generation + 1⟩ cmd cmd.tokens)) := by
  have resolved := s.coordinator.commands.resolve_logged cmd.tokens
  have commands : (s.logged log).coordinator.commands = s.coordinator.commands.logged := rfl
  have lent : (s.logged log).coordinator.lent = s.coordinator.lent := rfl
  unfold deliverCommand
  rw [commands, resolved, lent]
  cases cmd.tokens with
  | nil =>
    rw [CommandTable.callsFor, List.append_nil]
    exact congrArg Except.ok (s.afterHandover_logged log .proceed)
  | cons name args =>
    rw [CommandTable.callsFor]
    cases s.coordinator.commands.resolve (name :: args) with
    | none =>
      cases s.coordinator.lent with
      | true => rfl
      | false =>
        refine handOver_logged log _ (s.coordinator.presenter.runCommand cmd _)
          (s.withCoordinator (s.coordinator.suspend .command)) fun log r => ?_
        exact congrArg Except.ok (r.2.handedOver_logged log r.1)
    | some r =>
      obtain ⟨name, h, args⟩ := r
      cases h with
      | immediate run =>
        refine handOver_logged log _ _ _ fun log r => ?_
        exact congrArg Except.ok (r.2.afterHandover_logged log .proceed)
      | blocking run =>
        refine handOver_logged log _ (run args _)
          (s.withCoordinator (s.coordinator.suspend .command)) fun log r => ?_
        exact congrArg Except.ok (r.2.afterHandover_logged log .pause)

theorem deliverEnd_logged : (s.logged log).deliverEnd =
    s.deliverEnd.map (withLog (log ++ [.completed])) := by
  let c := { s.coordinator with phase := .completed }.invalidate
  let ended := { c with timers := c.timers.clear }.emit .dialogueComplete
  refine handOver_logged log _ ended.presenter.completed (s.withCoordinator ended) fun log r => ?_
  obtain ⟨r, s⟩ := r
  cases r <;> rfl

/-- A yield is handed over with its calls, and otherwise as without a log. -/
theorem deliver_logged {y : Yield} {calls : List HostCall} (handed : s.Calls y calls) :
    (s.logged log).deliver y = (s.deliver y).map (withLog (log ++ calls)) := by
  cases handed with
  | line l =>
    refine handOver_logged log _ (s.coordinator.presenter.showLine l _ _)
      (s.withCoordinator (s.coordinator.suspend .line)) fun log r => ?_
    exact congrArg Except.ok (r.2.handedOver_logged log r.1)
  | choices cs =>
    refine handOver_logged log _ (s.coordinator.presenter.showChoices cs _ _)
      (s.withCoordinator (s.coordinator.suspend (.choices cs.ids))) fun log r => ?_
    exact congrArg Except.ok (r.2.handedOver_logged log _)
  | command consumes =>
    rw [consumes_iff.mp consumes]
    exact s.deliverCommand_logged log _
  | nodeStart node =>
    rw [List.append_nil]
    rfl
  | nodeComplete node =>
    rw [List.append_nil]
    rfl
  | completed => exact s.deliverEnd_logged log

/-! ## Turns -/

/-- One yield after the other is taken from the machine and handed over, at most a given number, as
    long as the dialogue goes on. -/
def turns : Nat → Session σ → Except Fault (Turn × Session σ)
  | 0, s => .ok (.again, s)
  | n + 1, s =>
    match s.turn with
    | .ok (.again, s) => turns n s
    | r => r

/-- A run takes turns. -/
theorem run_eq_turns (limit : Nat) (s : Session σ) : s.run limit =
    match s.turns limit with
    | .error f => .error f
    | .ok (.again, _) => .error .unfinished
    | .ok (.rest, s) => .ok (.ok (), s.settle)
    | .ok (.failed e, s) => .ok (.error e, s.settle.halt) := by
  induction limit generalizing s with
  | zero => rfl
  | succ limit ih =>
    rw [run, turns]
    cases s.turn with
    | error f => rfl
    | ok r =>
      obtain ⟨turn, s'⟩ := r
      cases turn with
      | again => exact ih s'
      | rest => rfl
      | failed e => rfl

/-- What is handed over in many turns, with the calls for it. -/
inductive Handed : Nat → Session σ → List (Yield × List HostCall) → Prop
  | none (s : Session σ) : Handed 0 s []
  | idle {n : Nat} {s : Session σ} (idle : s.coordinator.isRunning = false) : Handed (n + 1) s []
  | fault {n : Nat} {s : Session σ} {f : Fault} (running : s.coordinator.isRunning = true)
    (asked : s.nextYield = .error f) : Handed (n + 1) s []
  | failed {n : Nat} {s s₁ : Session σ} {e : EngineError}
    (running : s.coordinator.isRunning = true) (asked : s.nextYield = .ok (.error e, s₁)) :
    Handed (n + 1) s []
  | last {n : Nat} {s s₁ : Session σ} {y : Yield} {calls : List HostCall}
    (running : s.coordinator.isRunning = true) (asked : s.nextYield = .ok (.ok y, s₁))
    (called : s₁.Calls y calls) (last : ∀ s₂, s₁.deliver y ≠ .ok (.again, s₂)) :
    Handed (n + 1) s [(y, calls)]
  | again {n : Nat} {s s₁ s₂ : Session σ} {y : Yield} {calls : List HostCall}
    {more : List (Yield × List HostCall)} (running : s.coordinator.isRunning = true)
    (asked : s.nextYield = .ok (.ok y, s₁)) (called : s₁.Calls y calls)
    (delivered : s₁.deliver y = .ok (.again, s₂)) (rest : Handed n s₂ more) :
    Handed (n + 1) s ((y, calls) :: more)

theorem exists_calls (s : Session σ) (y : Yield) : ∃ calls, s.Calls y calls := by
  cases y with
  | line l => exact ⟨_, .line l⟩
  | choices cs => exact ⟨_, .choices cs⟩
  | command cmd => exact ⟨_, .command (consumes_iff.mpr rfl)⟩
  | nodeStart node => exact ⟨_, .nodeStart node⟩
  | nodeComplete node => exact ⟨_, .nodeComplete node⟩
  | dialogueComplete => exact ⟨_, .completed⟩

theorem exists_handed (n : Nat) (s : Session σ) : ∃ handed, Handed n s handed := by
  induction n generalizing s with
  | zero => exact ⟨_, .none s⟩
  | succ n ih =>
    cases running : s.coordinator.isRunning with
    | false => exact ⟨_, .idle running⟩
    | true =>
      cases asked : s.nextYield with
      | error f => exact ⟨_, .fault running asked⟩
      | ok r =>
        obtain ⟨y?, s₁⟩ := r
        cases y? with
        | error e => exact ⟨_, .failed running asked⟩
        | ok y =>
          obtain ⟨calls, called⟩ := s₁.exists_calls y
          by_cases goes : ∃ s₂, s₁.deliver y = .ok (.again, s₂)
          · obtain ⟨s₂, delivered⟩ := goes
            obtain ⟨more, rest⟩ := ih s₂
            exact ⟨_, .again running asked called delivered rest⟩
          · exact ⟨_, .last running asked called fun s₂ delivered => goes ⟨s₂, delivered⟩⟩

theorem turn_idle {s : Session σ} (idle : s.coordinator.isRunning = false) :
    s.turn = .ok (.rest, s) := by
  rw [turn, idle]
  rfl

theorem turn_asked {s : Session σ} (running : s.coordinator.isRunning = true) :
    s.turn = s.nextYield >>= fun
      | (.ok y, s) => s.deliver y
      | (.error e, s) => .ok (.failed e, s) := by
  rw [turn, if_pos running]
  rfl

/-- A turn with a log: what is handed over is called, and the turn is the same otherwise. -/
theorem turn_yields_logged {s s₁ : Session σ} {y : Yield} {calls : List HostCall}
    (running : s.coordinator.isRunning = true) (asked : s.nextYield = .ok (.ok y, s₁))
    (called : s₁.Calls y calls) (log : List HostCall) :
    (s.logged log).turn = (s₁.deliver y).map (withLog (log ++ calls)) := by
  have running' : (s.logged log).coordinator.isRunning = true := running
  have asked' : (s.logged log).nextYield = .ok (.ok y, s₁.logged log) := by
    rw [nextYield_logged, asked]
    rfl
  rw [turn_answered running' asked', s₁.deliver_logged log called]

/-- The turns of a session with a log are those of the session, and the log has the calls for what
    is handed over in them. -/
theorem Handed.turns_logged {n : Nat} {s : Session σ} {handed : List (Yield × List HostCall)}
    (calls : Handed n s handed) (log : List HostCall) : (s.logged log).turns n =
      (s.turns n).map (withLog (log ++ handed.flatMap (·.2))) := by
  induction calls generalizing log with
  | none s =>
    rw [List.flatMap_nil, List.append_nil]
    rfl
  | @idle n s idle =>
    have idle' : (s.logged log).coordinator.isRunning = false := idle
    rw [turns, turns, turn_idle idle, turn_idle idle', List.flatMap_nil, List.append_nil]
    rfl
  | @fault n s f running asked =>
    have asked' : (s.logged log).nextYield = .error f := by
      rw [nextYield_logged, asked]
      rfl
    have running' : (s.logged log).coordinator.isRunning = true := running
    rw [turns, turns, turn_asked running, turn_asked running', asked, asked']
    rfl
  | @failed n s s₁ e running asked =>
    have asked' : (s.logged log).nextYield = .ok (.error e, s₁.logged log) := by
      rw [nextYield_logged, asked]
      rfl
    have running' : (s.logged log).coordinator.isRunning = true := running
    rw [turns, turns, turn_asked running, turn_asked running', asked, asked', List.flatMap_nil,
      List.append_nil]
    rfl
  | @last n s s₁ y calls running asked called last =>
    rw [turns, turns, turn_answered running asked, turn_yields_logged running asked called,
      List.flatMap_singleton]
    cases delivered : s₁.deliver y with
    | error f => rfl
    | ok r =>
      obtain ⟨turn, s₂⟩ := r
      cases turn with
      | again => exact absurd delivered (last s₂)
      | rest => rfl
      | failed e => rfl
  | @again n s s₁ s₂ y calls more running asked called delivered _ ih =>
    rw [turns, turns, turn_answered running asked, turn_yields_logged running asked called,
      delivered, List.flatMap_cons, ← List.append_assoc, ← ih (log ++ calls)]
    rfl

theorem Handed.run_logged {n : Nat} {s : Session σ} {handed : List (Yield × List HostCall)}
    (calls : Handed n s handed) (log : List HostCall) : (s.logged log).run n =
      (s.run n).map (withLog (log ++ handed.flatMap (·.2))) := by
  rw [run_eq_turns, run_eq_turns, calls.turns_logged]
  cases s.turns n with
  | error f => rfl
  | ok r =>
    obtain ⟨turn, s'⟩ := r
    cases turn <;> rfl

/-! ## Commands -/

/-- A command without words goes to nobody, and the dialogue goes on. -/
theorem deliverCommand_blank (s : Session σ) {cmd : Command}
    (blank : Text.Spaced [] cmd.text.toList) :
    ∃ s', s.deliverCommand cmd = .ok (.again, s') ∧ s'.host = s.host := by
  have handed : s.deliverCommand cmd = .ok (s.afterHandover .proceed) := by
    rw [deliverCommand, cmd.tokens_of_spaced blank]
    rfl
  rw [handed]
  cases woken : s.coordinator.woken with
  | true => exact ⟨_, congrArg Except.ok (afterHandover_woken woken _), rfl⟩
  | false => exact ⟨_, congrArg Except.ok (afterHandover_proceed woken), rfl⟩

end Session

namespace HostCall

def args : HostCall → List String
  | .immediate _ args => args
  | .blocking _ args _ => args
  | _ => []

/-- The handle of a line or command that is given out with a call. -/
def continuation? : HostCall → Option Continuation
  | .line _ k | .command _ k | .blocking _ _ k => some k
  | _ => none

/-- The same call, with another command for the presenter. -/
def withCommand (cmd : Command) : HostCall → HostCall
  | .command _ k => .command cmd k
  | call => call

end HostCall

namespace Consumes

variable {t : CommandTable σ} {k : Continuation} {cmd cmd' : Command} {calls : List HostCall}

/-- No argument is empty or has white space in it. -/
theorem solid (consumes : Consumes t k cmd calls) :
    ∀ call ∈ calls, ∀ arg ∈ call.args, arg ≠ "" ∧ ∀ c ∈ arg.toList, Text.isBlank c = false := by
  have among {h : Handler σ} {name : String} {args words : List String}
      (spaced : Text.Spaced words cmd.text.toList) (sub : args ⊆ words) :
      ∀ call ∈ [h.callAs name args k], ∀ arg ∈ call.args,
        arg ≠ "" ∧ ∀ c ∈ arg.toList, Text.isBlank c = false := by
    intro call hc arg ha
    obtain rfl := List.mem_singleton.mp hc
    refine spaced.solid arg (sub ?_)
    cases h <;> exact ha
  cases consumes with
  | nobody _ => exact fun call hc => absurd hc List.not_mem_nil
  | named spaced _ => exact among spaced (List.subset_cons_self ..)
  | ofObject spaced _ _ =>
    exact among spaced (List.subset_cons_of_subset _ (List.subset_cons_self ..))
  | presented _ _ _ =>
    intro call hc arg ha
    obtain rfl := List.mem_singleton.mp hc
    exact absurd ha List.not_mem_nil

/-- A handle is only given out to the presenter and to handlers that hold the dialogue. -/
theorem handles (consumes : Consumes t k cmd calls) :
    ∀ call ∈ calls, ∀ k', call.continuation? = some k' → k' = k ∧ (call = .command cmd k ∨
      ∃ name args run, t.find? name = some (.blocking run) ∧ call = .blocking name args k) := by
  have given {h : Handler σ} {name : String} {args : List String} (found : t.find? name = some h) :
      ∀ call ∈ [h.callAs name args k], ∀ k', call.continuation? = some k' → k' = k ∧
        (call = .command cmd k ∨
          ∃ name args run, t.find? name = some (.blocking run) ∧ call = .blocking name args k) := by
    intro call hc k' handle
    obtain rfl := List.mem_singleton.mp hc
    cases h with
    | immediate run => cases handle
    | blocking run =>
      cases handle
      exact ⟨rfl, .inr ⟨name, args, run, found, rfl⟩⟩
  cases consumes with
  | nobody _ => exact fun call hc => absurd hc List.not_mem_nil
  | named _ found => exact given found
  | ofObject _ _ found => exact given found
  | presented _ _ _ =>
    intro call hc k' handle
    obtain rfl := List.mem_singleton.mp hc
    cases handle
    exact ⟨rfl, .inl rfl⟩

/-- How much white space there is in a command, and which, does not matter. -/
theorem respaced {ws : List String} (spaced : Text.Spaced ws cmd.text.toList)
    (spaced' : Text.Spaced ws cmd'.text.toList) (consumes : Consumes t k cmd calls) :
    Consumes t k cmd' (calls.map (HostCall.withCommand cmd')) := by
  rw [consumes_iff] at consumes ⊢
  rw [consumes, cmd.tokens_of_spaced spaced, cmd'.tokens_of_spaced spaced']
  cases ws with
  | nil => rfl
  | cons name args =>
    simp only [CommandTable.callsFor]
    cases t.resolve (name :: args) with
    | none => rfl
    | some r =>
      obtain ⟨name, h, args⟩ := r
      cases h <;> rfl

end Consumes

/-- Commands in a run. The calls that the host gets in a run are those for what is handed over in
    it, one yield after the other. For a command there is one call, to a handler or to the
    presenter, or none if it has no words, and then the dialogue goes on. -/
theorem Session.commands_consumed (σ : Type) :
    (∀ (s : Session σ) (n : Nat), ∃ handed, Session.Handed n s handed ∧ ∀ log,
      (s.logged log).turns n = (s.turns n).map (withLog (log ++ handed.flatMap (·.2))) ∧
      (s.logged log).run n = (s.run n).map (withLog (log ++ handed.flatMap (·.2)))) ∧
    (∀ (t : CommandTable σ) (k : Continuation) (cmd : Command),
      (∃ calls, ∀ calls', Consumes t k cmd calls' ↔ calls' = calls) ∧
      ∀ calls, Consumes t k cmd calls → ∀ call ∈ calls,
        (∀ arg ∈ call.args, arg ≠ "" ∧ ∀ c ∈ arg.toList, Text.isBlank c = false) ∧
        ∀ k', call.continuation? = some k' → k' = k ∧ (call = .command cmd k ∨
          ∃ name args run, t.find? name = some (.blocking run) ∧
            call = .blocking name args k)) ∧
    (∀ (s : Session σ) (cmd : Command), Text.Spaced [] cmd.text.toList →
      ∃ s', s.deliverCommand cmd = .ok (.again, s') ∧ s'.host = s.host) ∧
    ∀ (t : CommandTable σ) (k : Continuation) (cmd cmd' : Command) (words : List String),
      Text.Spaced words cmd.text.toList → Text.Spaced words cmd'.text.toList →
      ∀ calls, Consumes t k cmd calls →
        Consumes t k cmd' (calls.map (HostCall.withCommand cmd')) := by
  refine ⟨fun s n => ?_, fun t k cmd => ⟨⟨_, fun calls => consumes_iff⟩,
    fun calls consumes call hc => ⟨consumes.solid call hc, consumes.handles call hc⟩⟩,
    fun s cmd blank => s.deliverCommand_blank blank,
    fun t k cmd cmd' words spaced spaced' calls consumes => consumes.respaced spaced spaced'⟩
  obtain ⟨handed, calls⟩ := exists_handed n s
  exact ⟨handed, calls, fun log => ⟨calls.turns_logged log, calls.run_logged log⟩⟩

/-- The handler of an object, in a command with much white space and in one with little. -/
theorem Session.commands_consumed_door :
    let hold : BlockingHandler Unit := fun _ _ => .done ()
    let t : CommandTable Unit := ⟨Dict.ofList [("door::open", .blocking hold)]⟩
    let calls : List HostCall := [.blocking "door::open" ["now"] ⟨1⟩]
    Consumes t ⟨1⟩ ⟨"\t open door\n now "⟩ calls ∧ Consumes t ⟨1⟩ ⟨"open door now"⟩ calls := by
  intro hold t calls
  have spaced : Text.Spaced ["open", "door", "now"] "\t open door\n now ".toList :=
    Text.spaced_iff.mpr (by decide +kernel)
  have spaced' : Text.Spaced ["open", "door", "now"] "open door now".toList :=
    Text.spaced_iff.mpr (by decide +kernel)
  have consumes : Consumes t ⟨1⟩ ⟨"\t open door\n now "⟩ calls :=
    .ofObject (h := .blocking hold) spaced rfl rfl
  exact ⟨consumes, (Session.commands_consumed Unit).2.2.2 t ⟨1⟩ _ _ _ spaced spaced' calls consumes⟩

end DialogueEngine
