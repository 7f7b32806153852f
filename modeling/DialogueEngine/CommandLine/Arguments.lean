/-! # Arguments of a command line

Options have a long name behind two dashes, and some have a letter behind one. The value of an
option stands behind an equals sign, right behind its letter, or in the next argument, which then
must not look like an option itself. Two dashes alone end the options. Besides, any command line
can ask for help; then nothing behind that matters.
-/

namespace DialogueEngine

structure OptionSpec where
  long : String
  letter : Option Char
  takesValue : Bool
  repeatable : Bool
  deriving DecidableEq

/-- The arguments of a command line: options with their values, in order, and what is left; and
    whether help is asked for. -/
structure Arguments where
  options : List (String × String)
  others : List String
  asksHelp : Bool
  deriving DecidableEq

inductive Request (α : Type) where
  | help
  | work (options : α)

namespace Arguments

def empty : Arguments := ⟨[], [], false⟩

def withOption (name value : String) (a : Arguments) : Arguments :=
  { a with options := (name, value) :: a.options }

def withOther (arg : String) (a : Arguments) : Arguments := { a with others := arg :: a.others }

inductive Piece where
  | endOfOptions
  | help
  | option (name value : String)
  /-- An option whose value is the next argument. -/
  | pending (name : String)
  | other
  deriving DecidableEq

def pieceOf? (spec : OptionSpec) (value : Option String) : Option Piece :=
  match spec.takesValue, value with
  | true, some value => some (.option spec.long value)
  | true, none => some (.pending spec.long)
  | false, none => some (.option spec.long "")
  | false, some _ => none

def splitValue (cs : List Char) : String × Option String :=
  let name := String.ofList (cs.takeWhile (· ≠ '='))
  match cs.dropWhile (· ≠ '=') with
  | [] => (name, none)
  | _ :: value => (name, some (String.ofList value))

/-- Whether an argument asks for help. The letter may have others behind it. -/
def isHelp (arg : String) : Bool := arg == "--help" || arg.startsWith "-h"

def piece? (specs : List OptionSpec) (arg : String) : Option Piece :=
  if isHelp arg then some .help
  else match arg.toList with
  | ['-'] => some .other
  | ['-', '-'] => some .endOfOptions
  | '-' :: '-' :: cs =>
    let (name, value) := splitValue cs
    (specs.find? (·.long == name)).bind (pieceOf? · value)
  | '-' :: letter :: cs =>
    let value := match cs with
      | [] => none
      | '=' :: cs => some (String.ofList cs)
      | cs => some (String.ofList cs)
    (specs.find? (·.letter == some letter)).bind (pieceOf? · value)
  | _ => some .other

def isValue (arg : String) : Bool :=
  match arg.toList with
  -- a dash alone looks like no option
  | ['-'] => true
  | '-' :: _ => false
  | _ => true

/-- Reads arguments; `pending` is the option whose value comes next. -/
def parseFrom? (specs : List OptionSpec) : Option String → List String → Option Arguments
  | none, [] => some empty
  | some _, [] => none
  | some name, arg :: rest =>
    if isValue arg then (parseFrom? specs none rest).map (·.withOption name arg) else none
  | none, arg :: rest =>
    match piece? specs arg with
    | none => none
    | some .endOfOptions => some ⟨[], rest, false⟩
    | some .help => some ⟨[], [], true⟩
    | some (.option name value) => (parseFrom? specs none rest).map (·.withOption name value)
    | some (.pending name) => parseFrom? specs (some name) rest
    | some .other => (parseFrom? specs none rest).map (·.withOther arg)

def values (a : Arguments) (name : String) : List String :=
  (a.options.filter (·.1 == name)).map (·.2)

def value? (a : Arguments) (name : String) : Option String := (a.values name).head?

def has (a : Arguments) (name : String) : Bool := (a.value? name).isSome

def isModest (specs : List OptionSpec) (a : Arguments) : Bool :=
  specs.all fun spec => spec.repeatable || (a.values spec.long).length ≤ 1

def parse? (specs : List OptionSpec) (args : List String) : Option Arguments :=
  (parseFrom? specs none args).filter (isModest specs)

/-- What a command line asks for. Options that make no sense are an error even if help is asked
    for behind them. -/
def request? {α : Type} (specs : List OptionSpec) (options? : Arguments → Option α)
    (args : List String) : Option (Request α) := do
  let a ← parse? specs args
  let options ← options? a
  return if a.asksHelp then .help else .work options

end Arguments

end DialogueEngine
