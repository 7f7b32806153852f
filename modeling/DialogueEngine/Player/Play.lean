import DialogueEngine.Coordinator.Operations
import DialogueEngine.Player.Terminal

/-! # Playing a dialogue

The player shows what the queueing presenter has collected, and then reads a line or sleeps, as
the dialogue needs it, until the dialogue or the input comes to its end.

* `Stage` — a session whose presenter is the queue.
* `Stage.answerChoice`, `Stage.answerLine`, `Stage.sleep` — one step further.
* `Stage.play` — a whole playthrough, with all that happens at the terminal.
-/

namespace DialogueEngine

/-- A dialogue whose presenter queues what is to be shown. -/
abbrev Stage := Session PresentationQueue

namespace Stage

def new (settings : Settings) (texts : StringTable) : Stage :=
  Session.withText ⟨.native PresentationQueue.presenter settings, .empty⟩ texts.resolve

inductive Need where
  /-- The number of an option. -/
  | choice
  /-- Any line. -/
  | line
  | time (d : Duration)
  | nothing
  deriving DecidableEq

def need (s : Stage) : Need :=
  if s.host.awaitsChoice then .choice
  else if s.host.awaitsContinue then .line
  else
    match s.coordinator.timers.nextWake with
    | some d => .time d
    | none => .nothing

def takeEvents (s : Stage) : List PresentationEvent × Stage :=
  let (events, q) := s.host.drain
  (events, { s with host := q })

inductive Going where
  | on
  | over
  | failed (e : PlayError)
  deriving DecidableEq

structure Reaction where
  text : String
  going : Going
  stage : Stage

def quit (s : Stage) : Reaction := ⟨"", .over, s.stop⟩

def carryOn {α : Type} (answer : Answer PresentationQueue α) : Reaction :=
  match answer with
  | (.ok _, s) => ⟨"", .on, s⟩
  | (.error e, s) => ⟨"", .failed (.engine e), s⟩

def answerChoice (limit : Nat) (s : Stage) (line : String) : Except Fault Reaction :=
  match PlayerInput.ofLine line with
  | .quit => .ok s.quit
  | .choice id => do
    match ← (PresentationQueue.choose id).between limit s with
    -- the only error after which one can go on: the options are still there
    | (.error (.runtime (.invalidOption _)), s) => return ⟨notOffered id, .on, s⟩
    | answer => return carryOn answer
  | _ => .ok ⟨numberWanted, .on, s⟩

def answerLine (limit : Nat) (s : Stage) (line : String) : Except Fault Reaction :=
  match PlayerInput.ofLine line with
  | .quit => .ok s.quit
  | _ => do return carryOn (← PresentationQueue.proceed.between limit s)

def sleep (limit : Nat) (s : Stage) (d : Duration) : Except Fault Reaction := do
  return carryOn (← s.update limit d)

/-- Ends a dialogue that waits for nothing the player could do. -/
def leave (s : Stage) : Stage := if s.coordinator.isRunning then s.stop else s

/-! ## Playthroughs -/

structure Playthrough where
  trace : List TerminalEvent
  result : Except PlayError Unit
  stage : Stage

def Playthrough.after (trace : List TerminalEvent) (p : Playthrough) : Playthrough :=
  { p with trace := trace ++ p.trace }

def Playthrough.output (p : Playthrough) : String :=
  String.join (p.trace.filterMap fun
    | .wrote text => some text
    | _ => none)

def Playthrough.sleeps (p : Playthrough) : List Duration :=
  p.trace.filterMap fun
    | .slept d => some d
    | _ => none

/-- Reads the next line and reacts to it. Without one the playthrough is over. -/
def readLine (s : Stage) (react : String → Except Fault Reaction) :
    List InputLine → Except Fault (List TerminalEvent × Reaction × List InputLine)
  | [] => .ok ([], s.quit, [])
  | none :: rest => .ok ([], ⟨"", .failed .unreadableInput, s⟩, rest)
  | some line :: rest => do
    let r ← react line
    return (.read line :: write r.text, r, rest)

def meet (limit : Nat) (s : Stage) (input : List InputLine) :
    Except Fault (List TerminalEvent × Reaction × List InputLine) :=
  match s.need with
  | .choice => do
    let (trace, r) ← s.readLine (s.answerChoice limit) input
    return (.wrote prompt :: trace, r)
  | .line => s.readLine (s.answerLine limit) input
  | .time d => do return ([.slept d], ← s.sleep limit d, input)
  | .nothing => .ok ([], ⟨"", .over, s.leave⟩, input)

def playOn (limit : Nat) : Nat → Stage → List InputLine → Except Fault Playthrough
  | 0, _, _ => .error .unfinished
  | rounds + 1, s, input =>
    let (events, s) := s.takeEvents
    match renderAll events with
    | (shown, .error e) => .ok ⟨shown, .error e, s⟩
    | (shown, .ok ()) => do
      let (trace, r, input) ← s.meet limit input
      let trace := shown ++ trace
      match r.going with
      | .over => return ⟨trace, .ok (), r.stage⟩
      | .failed e => return ⟨trace, .error e, r.stage⟩
      | .on => return (← playOn limit rounds r.stage input).after trace

/-- Plays from a node on, until the dialogue or the input has come to its end. -/
def play (limit : Nat) (s : Stage) (node : String) (input : List InputLine) :
    Except Fault Playthrough := do
  match ← s.startAt limit node with
  | (.error e, s) => return ⟨[], .error (.engine e), s⟩
  | (.ok (), s) => playOn limit limit s input

end Stage

end DialogueEngine
