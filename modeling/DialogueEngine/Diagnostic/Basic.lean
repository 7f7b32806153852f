/-! # Diagnostics

What a check of a program reports.
-/

namespace DialogueEngine

inductive Level where
  | info
  | warn
  | error
  deriving DecidableEq, Repr

namespace Level

def rank : Level → Nat
  | .info => 0
  | .warn => 1
  | .error => 2

def text : Level → String
  | .info => "INFO"
  | .warn => "WARN"
  | .error => "ERROR"

end Level

/-- A report about a program, or about a node of it, or about an instruction of a node. -/
structure Diagnostic where
  level : Level
  program : String
  node : Option String
  index : Option Nat
  message : String
  detail : Option String
  deriving DecidableEq, Repr

namespace Diagnostic

def ofProgram (level : Level) (program message : String) : Diagnostic :=
  ⟨level, program, none, none, message, none⟩

def at' (d : Diagnostic) (node : String) (index : Option Nat) : Diagnostic :=
  { d with node := some node, index := index }

def withDetail (d : Diagnostic) (detail : String) : Diagnostic := { d with detail := some detail }

/-- The printed form: level, place and message, and the detail on a line of its own. -/
def text (d : Diagnostic) : String :=
  s!"[{d.level.text}] {d.program}" ++ (d.node.elim "" fun n => s!"/{n}") ++
    (d.index.elim "" fun i => s!"#{i}") ++ s!": {d.message}" ++
    (d.detail.elim "" fun t => s!"\n  | {t}")

end Diagnostic

abbrev Report := List Diagnostic

namespace Report

def count (r : Report) (level : Level) : Nat := (r.filter (·.level == level)).length

def errors (r : Report) : Nat := r.count .error

def warnings (r : Report) : Nat := r.count .warn

def hasErrors (r : Report) : Bool := 0 < r.errors

def atLeast (r : Report) (level : Level) : Report := r.filter (level.rank ≤ ·.level.rank)

end Report

end DialogueEngine
