import DialogueEngine.Act
import DialogueEngine.Line

/-! # Presenters

Who shows a dialogue. Each line, set of options and command without handler is handed over with a
handle, and the presenter says whether the dialogue goes on at once or waits for the handle.
-/

namespace DialogueEngine

/-- Whether a dialogue goes on after a hand-over. -/
inductive Pace where
  /-- It goes on at once. -/
  | proceed
  /-- It waits until the handle is used. -/
  | pause
  deriving DecidableEq, Repr, Inhabited

def Pace.text : Pace → String
  | .proceed => "continue"
  | .pause => "pause"

def Pace.toJson : Pace → Json
  | .proceed => .text "continue_execution"
  | .pause => .text "pause_execution"

def Pace.ofJson? (j : Json) : Option Pace := do
  let (name, body) ← j.variant?
  match name with
  | "continue_execution" => Json.unit? .proceed body
  | "pause_execution" => Json.unit? .pause body
  | _ => none

structure Presenter (σ : Type) where
  started : String → Act σ (Except CapabilityError Unit)
  completed : Act σ (Except CapabilityError Unit)
  /-- Shows options; the choice comes back through the handle. -/
  showChoices : Choices → (Line → String) → Selector → Act σ (Except CapabilityError Unit)
  showLine : Line → (Line → String) → Continuation → Act σ (Except CapabilityError Pace)
  /-- Takes a command that has no handler. -/
  runCommand : Command → Continuation → Act σ (Except CapabilityError Pace)

/-- The same presenter on a part of a larger state. -/
def Presenter.focus {σ τ : Type} (get : τ → σ) (put : σ → τ → τ) (p : Presenter σ) :
    Presenter τ where
  started node := (p.started node).focus get put
  completed := p.completed.focus get put
  showChoices cs text s := (p.showChoices cs text s).focus get put
  showLine l text c := (p.showLine l text c).focus get put
  runCommand cmd c := (p.runCommand cmd c).focus get put

end DialogueEngine
