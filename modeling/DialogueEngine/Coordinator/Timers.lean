import DialogueEngine.Act

/-! # Timers

The waits of a dialogue. No real clock is read: the host says how much time has passed, and the
handles whose time has come are given out by their deadlines, those with one deadline in the order
in which they were put in.
-/

namespace DialogueEngine

structure Timer where
  deadline : Duration
  continuation : Continuation
  deriving DecidableEq

/-- The time passed so far, and the waits in the order in which they were put in. -/
structure Timers where
  now : Duration
  entries : List Timer
  deriving DecidableEq

namespace Timers

def empty : Timers := ⟨Duration.zero, []⟩

instance : Inhabited Timers := ⟨empty⟩

def schedule? (t : Timers) (delay : Duration) (c : Continuation) : Option Timers :=
  (t.now.add? delay).map fun deadline => { t with entries := t.entries ++ [⟨deadline, c⟩] }

-- The ordered insertion and the insertion sort of the library, which this layer does not import.
def insertByDeadline (e : Timer) : List Timer → List Timer
  | [] => [e]
  | e' :: rest =>
    if e.deadline.nanos ≤ e'.deadline.nanos then e :: e' :: rest
    else e' :: insertByDeadline e rest

/-- Timers by their deadlines; those with one deadline stay in order. -/
def sortByDeadline (es : List Timer) : List Timer := es.foldr insertByDeadline []

def isDue (now : Duration) (e : Timer) : Bool := e.deadline.nanos ≤ now.nanos

def advance? (t : Timers) (delta : Duration) : Option (List Continuation × Timers) :=
  (t.now.add? delta).map fun now =>
    ((sortByDeadline (t.entries.filter (isDue now))).map (·.continuation),
      ⟨now, t.entries.filter fun e => !isDue now e⟩)

/-- The shorter of a duration and one that may be missing. -/
def shorter (d : Duration) : Option Duration → Duration
  | none => d
  | some d' => if d.nanos ≤ d'.nanos then d else d'

def nextWake (t : Timers) : Option Duration :=
  t.entries.foldr (fun e next => some (shorter (e.deadline.sub t.now) next)) none

def retain (t : Timers) (p : Continuation → Bool) : Timers :=
  { t with entries := t.entries.filter (p ·.continuation) }

def clear (t : Timers) : Timers := { t with entries := [] }

end Timers

end DialogueEngine
