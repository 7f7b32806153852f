import DialogueEngine.CommandLine.Arguments
import DialogueEngine.Diagnostic.Check
import DialogueEngine.Player.Config
import DialogueEngine.Player.Loading
import DialogueEngine.Player.Play

/-! # The command that plays

`[PROGRAMS]... --config --strings --start --var --no-check --log-level`: the options take
precedence over the configuration file.

* `PlayOptions.stage` — everything before the first line.
* `PlayOptions.run` — a whole run.
-/

namespace DialogueEngine

structure PlayOptions where
  programs : List String
  config : String
  strings : Option String
  start : Option String
  assignments : List (String × Value)
  skipsCheck : Bool

inductive StartError where
  | config (e : ConfigError)
  | load (e : LoadError)
  | program (e : ProgramError)
  /-- The check reports errors. -/
  | check (report : Report)
  | engine (e : EngineError)
  deriving DecidableEq

def StartError.message : StartError → String
  | .config e => e.message
  | .load e => e.message
  | .program e => e.message
  | .check report => s!"程序检查发现 {report.errors} 个错误"
  | .engine e => e.message

namespace PlayOptions

def specs : List OptionSpec :=
  [⟨"config", some 'c', true, false⟩, ⟨"strings", some 's', true, false⟩,
   ⟨"start", some 'n', true, false⟩, ⟨"var", none, true, true⟩,
   ⟨"no-check", none, false, false⟩, ⟨"log-level", none, true, false⟩]

/-- A variable and its first value: a name, an equals sign, and a value as in a document, or else
    a text. -/
def assignment? (arg : String) : Option (String × Value) :=
  match Arguments.splitValue arg.toList with
  | (_, none) => none
  | (name, some raw) =>
    let name := Text.trim name
    if name.isEmpty then none
    else some (name, ((Json.parseText? raw).bind Value.ofJson?).getD (.string raw))

/-- Whether a text names a level of logging, by its name in any case or by its number. -/
def isLogLevel (arg : String) : Bool :=
  ((Decimal.readIndex? arg).map fun n => 1 ≤ n && n ≤ 5).getD false ||
    ["error", "warn", "info", "debug", "trace"].contains
      (String.ofList (arg.toList.map Char.toLower))

def ofArguments? (a : Arguments) : Option PlayOptions := do
  let assignments ← (a.values "var").mapM assignment?
  let paths := a.others ++ a.values "config" ++ a.values "strings"
  if paths.all (!·.isEmpty) && (a.values "log-level").all isLogLevel then
    some ⟨a.others, (a.value? "config").getD "config.json", a.value? "strings", a.value? "start",
      assignments, a.has "no-check"⟩
  else none

def ofCommandLine? : List String → Option (Request PlayOptions) :=
  Arguments.request? specs ofArguments?

def override (o : PlayOptions) (c : PlayerConfig) : PlayerConfig where
  programs := if o.programs.isEmpty then c.programs else o.programs
  stringTable := o.strings.or c.stringTable
  startNode := o.start.getD c.startNode
  initialVariables := c.initialVariables.insertAll o.assignments
  checksProgram := c.checksProgram && !o.skipsCheck

end PlayOptions

def PlayerConfig.vet (c : PlayerConfig) (programs : List Program) (t : StringTable) :
    Except StartError Unit :=
  if c.checksProgram then
    match Program.combine programs with
    | .error e => .error (.program e)
    | .ok p =>
      let report := p.checkWith c.startNode t
      if report.hasErrors then .error (.check report) else .ok ()
  else .ok ()

def PlayerConfig.stage (limit : Nat) (c : PlayerConfig) (programs : List Program)
    (t : StringTable) : Except Fault (Except StartError Stage) :=
  match c.vet programs t with
  | .error e => .ok (.error e)
  | .ok () => do
    match ← (Stage.new c.settings t).prepare limit programs with
    | (.error e, _) => return .error (.engine e)
    | (.ok (), s) => return .ok s

def PlayerConfig.loadTexts (c : PlayerConfig) : FileWork (Except LoadError StringTable) :=
  match c.stringTable with
  | none => .done (.ok .empty)
  | some path => loadTable path

/-- Everything before the first line: the dialogue, and the node that it starts at. -/
def PlayOptions.stage (limit : Nat) (o : PlayOptions) :
    FileWork (Except Fault (Except StartError (Stage × String))) := do
  -- a configuration that cannot be read is the one where nothing is said
  let c := o.override (← PlayerConfig.load o.config)
  match ← c.validate with
  | .error e => return .ok (.error (.config e))
  | .ok () =>
    match ← loadPrograms c.programs with
    | .error e => return .ok (.error (.load e))
    | .ok programs =>
      match ← c.loadTexts with
      | .error e => return .ok (.error (.load e))
      | .ok t => return (c.stage limit programs t).map (·.map fun s => (s, c.startNode))

structure PlayOutcome where
  output : String
  error : Option String
  deriving DecidableEq

def PlayOptions.run (limit : Nat) (o : PlayOptions) (input : List UInt8) :
    FileWork (Except Fault PlayOutcome) := do
  match ← o.stage limit with
  | .error f => return .error f
  | .ok (.error e) => return .ok ⟨"", some e.message⟩
  | .ok (.ok (s, node)) =>
    return (s.play limit node (InputLine.lines input)).map fun p =>
      ⟨p.output, match p.result with
        | .ok () => none
        | .error e => some e.message⟩

def PlayOptions.answer (limit : Nat) (input : List UInt8) :
    Request PlayOptions → FileWork (Except Fault PlayOutcome)
  | .help => .done (.ok ⟨"", none⟩)
  | .work o => o.run limit input

end DialogueEngine
