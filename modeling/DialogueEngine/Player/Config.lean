import DialogueEngine.Coordinator.Settings
import DialogueEngine.Files.Work
import DialogueEngine.Json.Parser
import DialogueEngine.Json.Printer
import DialogueEngine.Text.Blank

/-! # The player's configuration

What is played, and how it starts. The configuration is kept in a JSON file.
-/

namespace DialogueEngine

structure PlayerConfig where
  /-- The files of the programs. -/
  programs : List String
  /-- The file of the texts. -/
  stringTable : Option String
  startNode : String
  initialVariables : Dict String Value
  /-- Whether the program is checked before it starts. -/
  checksProgram : Bool
  deriving DecidableEq

inductive ConfigError where
  | unreadable
  | malformed
  | noProgram
  | missingProgram (path : String)
  | missingTable (path : String)
  | blankStart
  deriving DecidableEq, Repr

def ConfigError.invalid (reason : String) : String := s!"配置验证失败: {reason}"

def ConfigError.message : ConfigError → String
  | .unreadable => "配置 IO 错误"
  | .malformed => "配置格式错误"
  | .noProgram => invalid "至少需要一个程序文件"
  | .missingProgram path => invalid s!"程序文件不存在: {path}"
  | .missingTable path => invalid s!"字符串表不存在: {path}"
  | .blankStart => invalid "起始节点不能为空"

namespace PlayerConfig

def default : PlayerConfig := ⟨[], none, defaultStart, Dict.empty, true⟩

instance : Inhabited PlayerConfig := ⟨default⟩

def toJson (c : PlayerConfig) : Json :=
  .record [("programs", .list .text c.programs),
    ("string_table", c.stringTable.elim .null .text),
    ("start_node", .text c.startNode),
    ("initial_variables", .dict Value.toJson c.initialVariables.entries),
    ("program_check", .bool c.checksProgram)]

def path? : Json → Option (Option String)
  | .null => some none
  | j => j.text?.map some

def ofJson? (j : Json) : Option PlayerConfig := do
  let fields ← j.fields?
    ["programs", "string_table", "start_node", "initial_variables", "program_check"]
  let programs ← Json.fieldD? fields "programs" [] (Json.items? Json.text?)
  let table ← Json.fieldD? fields "string_table" none path?
  let start ← Json.fieldD? fields "start_node" defaultStart Json.text?
  let initial ← Json.fieldD? fields "initial_variables" Dict.empty (Json.dict? Value.ofJson?)
  let check ← Json.fieldD? fields "program_check" true Json.bool?
  return ⟨programs, table, start, initial, check⟩

def ofBytes (bytes : Option (List UInt8)) : Except ConfigError PlayerConfig :=
  match bytes.bind Json.textOfBytes? with
  | none => .error .unreadable
  | some text =>
    match (Json.parseText? text).bind ofJson? with
    | none => .error .malformed
    | some c => .ok c

def fromFile (path : String) : FileWork (Except ConfigError PlayerConfig) :=
  .read path fun bytes => .done (ofBytes bytes)

/-- Reads a configuration; without a file that holds one, nothing is said. -/
def load (path : String) : FileWork PlayerConfig := do
  match ← fromFile path with
  | .ok c => return c
  | .error _ => return default

def save (c : PlayerConfig) (path : String) : FileWork (Except ConfigError Unit) :=
  .save path (c.toJson.writeIndented 0) fun written =>
    .done (if written then .ok () else .error .unreadable)

def firstMissing : List String → FileWork (Option String)
  | [] => .done none
  | path :: paths => .present path fun there =>
    if there then firstMissing paths else .done (some path)

/-- Checks that there is something to be played, that all files are there and that the start node
    has a name. -/
def validate (c : PlayerConfig) : FileWork (Except ConfigError Unit) := do
  if c.programs.isEmpty then return .error .noProgram
  else
    match ← firstMissing c.programs with
    | some path => return .error (.missingProgram path)
    | none =>
      match ← firstMissing c.stringTable.toList with
      | some path => return .error (.missingTable path)
      | none =>
        if (Text.trim c.startNode).isEmpty then return .error .blankStart else return .ok ()

/-- The settings of the dialogue; it is started by the player. -/
def settings (c : PlayerConfig) : Settings := ⟨c.startNode, false, c.initialVariables⟩

end PlayerConfig

end DialogueEngine
