import DialogueEngine.Act
import DialogueEngine.Dict
import DialogueEngine.Line
import DialogueEngine.Value

/-! # Values of host objects

Host objects are called with values of their own kind, which include lists, dictionaries and
things that can be called.

* `HostValue κ` — the values; `κ` names the callables that belong to the host.
* `Callable` — a callable of the host, or a handle of a dialogue.
* `HostValue.ofLine` and its like — lines, options and commands as host values.
-/

namespace DialogueEngine

structure HostError where
  message : String
  deriving DecidableEq, Repr

inductive Callable (κ : Type) where
  | completion (c : Continuation)
  | selection (s : Selector)
  | host (k : κ)
  deriving DecidableEq

/-- A value that host objects are called with. The bindings of a dictionary are in the order of
    their keys. -/
inductive HostValue (κ : Type) where
  | nil
  | bool (b : Bool)
  | number (x : Float)
  | string (s : String)
  | array (items : List (HostValue κ))
  | dictionary (entries : List (String × HostValue κ))
  | callable (c : Callable κ)

inductive HostType where
  | nil
  | bool
  | number
  | string
  | array
  | dictionary
  | callable
  deriving DecidableEq, Repr

def HostType.text : HostType → String
  | .nil => "nil"
  | .bool => "bool"
  | .number => "number"
  | .string => "string"
  | .array => "array"
  | .dictionary => "dictionary"
  | .callable => "callable"

namespace HostValue

variable {κ : Type}

instance : Inhabited (HostValue κ) := ⟨.nil⟩

def type : HostValue κ → HostType
  | .nil => .nil
  | .bool _ => .bool
  | .number _ => .number
  | .string _ => .string
  | .array _ => .array
  | .dictionary _ => .dictionary
  | .callable _ => .callable

def isNil : HostValue κ → Bool
  | .nil => true
  | _ => false

def string? : HostValue κ → Option String
  | .string s => some s
  | _ => none

def callable? : HostValue κ → Option (Callable κ)
  | .callable c => some c
  | _ => none

def ofDict (d : Dict String (HostValue κ)) : HostValue κ := .dictionary d.entries

def strings (ss : List String) : HostValue κ := .array (ss.map .string)

def ofValue : Value → HostValue κ
  | .bool b => .bool b
  | .number x => .number x
  | .string s => .string s

/-- The value of a variable that a host value stands for; nil and compound values stand for
    none. -/
def toValue? : HostValue κ → Option Value
  | .bool b => some (.bool b)
  | .number x => some (.number x)
  | .string s => some (.string s)
  | _ => none

mutual

/-- Equality: numbers compare as numbers, callables by identity. -/
def beq [DecidableEq κ] : HostValue κ → HostValue κ → Bool
  | .nil, .nil => true
  | .bool a, .bool b => a == b
  | .number a, .number b => a == b
  | .string a, .string b => a == b
  | .array a, .array b => beqItems a b
  | .dictionary a, .dictionary b => beqEntries a b
  | .callable a, .callable b => a == b
  | _, _ => false

def beqItems [DecidableEq κ] : List (HostValue κ) → List (HostValue κ) → Bool
  | [], [] => true
  | a :: as, b :: bs => beq a b && beqItems as bs
  | _, _ => false

def beqEntries [DecidableEq κ] :
    List (String × HostValue κ) → List (String × HostValue κ) → Bool
  | [], [] => true
  | (k, a) :: as, (l, b) :: bs => k == l && beq a b && beqEntries as bs
  | _, _ => false

end

def lineDict (l : Line) : Dict String (HostValue κ) :=
  Dict.ofList [("id", .string l.id), ("substitutions", strings l.substitutions)]

def ofLine (l : Line) : HostValue κ := ofDict (lineDict l)

def ofLineWithText (text : Line → String) (l : Line) : HostValue κ :=
  ofDict ((lineDict l).insert "text" (.string (text l)))

def ofChoice (line : Line → HostValue κ) (c : Choice) : HostValue κ :=
  ofDict (Dict.ofList
    [("id", .number (Float.ofNat c.id)), ("line", line c.line),
      ("destination", .string c.destination)])

def ofChoices (cs : Choices) : HostValue κ := .array (cs.options.map (ofChoice ofLine))

def ofChoicesWithText (text : Line → String) (cs : Choices) : HostValue κ :=
  .array (cs.options.map (ofChoice (ofLineWithText text)))

def ofCommand (c : Command) : HostValue κ := .string c.text

end HostValue

abbrev HostCalls (σ κ : Type) := κ → List (HostValue κ) → Act σ (Except HostError (HostValue κ))

/-- The number of an option that a handle is called with: one number, whole and not negative.
    Numbers too large are taken as the largest of 64 bits. -/
def Callable.choiceId? {κ : Type} : List (HostValue κ) → Option Nat
  | [.number x] =>
    match Decimal.shape x with
    | .infinite _ | .nan => none
    | .finite negative mantissa exponent =>
      if negative && mantissa != 0 then none
      else if mantissa % Nat.pow 2 (-exponent).toNat != 0 then none
      else some (min (mantissa / Nat.pow 2 (-exponent).toNat * Nat.pow 2 exponent.toNat)
        (Word.bound - 1))
  | _ => none

/-- A call. The handle of a line or command ignores its arguments; the handle of options takes the
    number of one. -/
def Callable.call {σ κ : Type} (calls : HostCalls σ κ) (args : List (HostValue κ)) :
    Callable κ → Act σ (Except HostError (HostValue κ))
  -- a handle that is void answers as a live one does, with nil
  | .completion c => .resume c fun r =>
    match r with
    | .ok () => .done (.ok .nil)
    | .error e => .done (.error ⟨e.message⟩)
  | .selection s =>
    match Callable.choiceId? args with
    | none => .done (.error ⟨"选项回调需要一个非负整数参数"⟩)
    | some id => .select s id fun r =>
      match r with
      | .ok () => .done (.ok .nil)
      | .error e => .done (.error ⟨e.message⟩)
  | .host k => calls k args

end DialogueEngine
