import DialogueEngine.Commands.Table
import DialogueEngine.Text.Blank

/-! # The command `wait`

The one command that every dialogue knows: `wait` with a number of seconds holds the dialogue for
that time. With anything else it goes on at once.
-/

namespace DialogueEngine

/-- The duration that the arguments of `wait` write: one number of seconds. -/
def Duration.parse? : List String → Option Duration
  | [seconds] => (Decimal.readFloat? (Text.trim seconds)).bind Duration.ofSeconds?
  | _ => none

def waitCommand : String := "wait"

/-- Resumes the dialogue after the time given, or at once if none is given. -/
def waitHandler {σ : Type} : BlockingHandler σ := fun args c =>
  match Duration.parse? args with
  | some d => .resumeAfter c d fun _ => .done ()
  | none => .resume c fun _ => .done ()

def CommandTable.builtin {σ : Type} : CommandTable σ :=
  (CommandTable.empty.insert waitCommand (.blocking waitHandler)).2

end DialogueEngine
