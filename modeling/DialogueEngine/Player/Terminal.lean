import DialogueEngine.Decimal.Reader
import DialogueEngine.Duration
import DialogueEngine.Error
import DialogueEngine.Presenter.Queue
import DialogueEngine.Text.Blank
import DialogueEngine.Text.Lines

/-! # The player's terminal

What the player writes for each thing that is to be shown, and how it understands what is entered.
-/

namespace DialogueEngine

inductive TerminalEvent where
  | wrote (text : String)
  | read (line : String)
  | slept (d : Duration)
  deriving DecidableEq

inductive PlayError where
  | engine (e : EngineError)
  /-- Options are to be shown, but there are none. -/
  | noOptions
  /-- The bytes of a line of input are no text. -/
  | unreadableInput
  deriving DecidableEq

def PlayError.message : PlayError → String
  | .engine e => e.message
  | .noOptions => "选项集为空"
  | .unreadableInput => "stream did not contain valid UTF-8"

/-! ## Output -/

def renderOption (option : Nat × String) : String := s!"  [{option.1}] {option.2}\n"

/-- The text that shows an event. A line without text is shown by dots, as it waits like any
    other. -/
def PresentationEvent.rendering : PresentationEvent → Except PlayError String
  | .dialogueStarted _ => .ok ""
  | .dialogueComplete => .ok "（完）\n"
  | .displayLine text => .ok ((if text.isEmpty then "..." else text) ++ "\n")
  | .displayOptions options =>
    if options.isEmpty then .error .noOptions
    else .ok (String.join (options.entries.map renderOption))
  | .unhandledCommand text => .ok s!"<<{text}>>\n"

def write (text : String) : List TerminalEvent := if text.isEmpty then [] else [.wrote text]

def renderAll : List PresentationEvent → List TerminalEvent × Except PlayError Unit
  | [] => ([], .ok ())
  | e :: rest =>
    match e.rendering with
    | .error err => ([], .error err)
    | .ok text =>
      let (shown, r) := renderAll rest
      (write text ++ shown, r)

def prompt : String := "> "

def notOffered (id : Nat) : String := s!"无效选项: {id}\n"

def numberWanted : String := "请输入选项编号\n"

/-! ## Input -/

/-- A line of input; there is none if its bytes are no text. -/
abbrev InputLine := Option String

def InputLine.lines (bytes : List UInt8) : List InputLine :=
  (Text.cutLines 0x0A 0x0D [] bytes).map Json.textOfBytes?

inductive PlayerInput where
  | next
  | choice (id : Nat)
  | quit
  | unknown
  deriving DecidableEq, Repr

/-- What a line says, without the white space around it. -/
def PlayerInput.ofLine (line : String) : PlayerInput :=
  let text := Text.trim line
  if text = "" then .next
  else if text = "q" ∨ text = "quit" then .quit
  else
    match Decimal.readIndex? text with
    | some id => .choice id
    | none => .unknown

end DialogueEngine
