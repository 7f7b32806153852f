import DialogueEngine.Files.Work
import DialogueEngine.Program.Codec
import DialogueEngine.StringTable

/-! # Programs and string tables from files

* `LoadError` — why a file cannot be used.
* `loadPrograms`, `loadTable` — programs and texts by the paths of their files.
-/

namespace DialogueEngine

inductive LoadError where
  | unreadableProgram (path : String)
  | malformedProgram (path : String)
  | unreadableTable (path : String)
  | malformedTable (path : String)
  deriving DecidableEq, Repr

def LoadError.message : LoadError → String
  | .unreadableProgram path => s!"读取程序失败: {path}"
  | .malformedProgram path => s!"解析程序失败: {path}"
  | .unreadableTable path => s!"读取字符串表失败: {path}"
  | .malformedTable path => s!"解析字符串表失败: {path}"

def programOfFile (path : String) (bytes : Option (List UInt8)) : Except LoadError Program :=
  match bytes with
  | none => .error (.unreadableProgram path)
  | some bytes =>
    match Program.decode? bytes with
    | none => .error (.malformedProgram path)
    | some p => .ok p

def tableOfFile (path : String) (bytes : Option (List UInt8)) : Except LoadError StringTable :=
  match bytes.bind Json.textOfBytes? with
  | none => .error (.unreadableTable path)
  | some text =>
    match StringTable.ofText? text with
    | none => .error (.malformedTable path)
    | some t => .ok t

/-- Loads programs one after the other, up to the first that cannot be loaded. -/
def loadPrograms : List String → FileWork (Except LoadError (List Program))
  | [] => .done (.ok [])
  | path :: paths => .read path fun bytes =>
    match programOfFile path bytes with
    | .error e => .done (.error e)
    | .ok p => do return (← loadPrograms paths).map (p :: ·)

def loadTable (path : String) : FileWork (Except LoadError StringTable) :=
  .read path fun bytes => .done (tableOfFile path bytes)

end DialogueEngine
