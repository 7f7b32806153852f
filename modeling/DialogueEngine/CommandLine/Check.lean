import DialogueEngine.CommandLine.Arguments
import DialogueEngine.Diagnostic.Files
import DialogueEngine.Player.Loading

/-! # The command that checks programs

`program-check [PATHS]... --start`: all programs below the paths are checked as one, with the
texts of all string tables below them.

* `CheckOptions.examine` — programs and tables by the paths of their files.
* `CheckOptions.run` — a whole run.
-/

namespace DialogueEngine

structure CheckOptions where
  paths : List String
  start : String
  deriving DecidableEq

inductive CheckError where
  | noFolder (path : String)
  | missingPath (path : String)
  /-- A folder whose path is too long. -/
  | folderBeyondReach (path : String)
  /-- A table whose path is too long. -/
  | tableBeyondReach (path : String)
  | table (e : LoadError)
  | errorsFound
  deriving DecidableEq

/-- The text of an error. A table that cannot be read is one that is no text. -/
def CheckError.message : CheckError → String
  | .noFolder path => s!"默认程序目录不存在: {path}\n请在 workspace 根目录运行，或指定路径"
  | .missingPath path => s!"路径不存在: {path}"
  | .folderBeyondReach path =>
    s!"IO error for operation on {path}: {FileTree.tooLong}: {FileTree.tooLong}"
  | .tableBeyondReach path =>
    s!"{(LoadError.unreadableTable path).message}: {FileTree.tooLong}"
  | .table e =>
    match e with
    | .unreadableTable _ => e.message ++ ": stream did not contain valid UTF-8"
    | _ => e.message
  | .errorsFound => "程序检查发现错误"

structure CheckOutcome where
  text : String
  fails : Bool
  deriving DecidableEq

namespace CheckOptions

def commandName : String := "program-check"

def defaultFolder : String := "assets/dialogue"

def specs : List OptionSpec := [⟨"start", none, true, false⟩]

/-- The options among arguments, unless there is a path without characters. -/
def ofArguments? (a : Arguments) : Option CheckOptions :=
  if a.others.all (!·.isEmpty) then some ⟨a.others, (a.value? "start").getD defaultStart⟩ else none

/-- What a command line asks for, unless it is misused: it has the name of the command in front,
    or asks for help by an option or by the word for it. -/
def ofCommandLine? : List String → Option (Request CheckOptions)
  | [] => none
  | name :: args =>
    if name = commandName then Arguments.request? specs ofArguments? args
    else if Arguments.isHelp name then some .help
    else if name = "help" ∧ args ∈ [[], ["help"], [commandName]] then some .help
    else none

def fileName (path : String) : String := (FileTree.parts path).getLastD ""

def isDocument (path : String) : Bool :=
  (fileName path).endsWith ".json" && fileName path != ".json"

def isTable (path : String) : Bool := (fileName path).endsWith ".strings.json"

/-- The documents below paths, in order; all paths have to be there. -/
def collect : List String → FileWork (Except CheckError (List String))
  | [] => .done (.ok [])
  | path :: paths => .present path fun there =>
    if there then
      .walk path fun
        | .ok files => do return (← collect paths).map (files.filter isDocument ++ ·)
        | .error folder => .done (.error (.folderBeyondReach folder))
    else .done (.error (.missingPath path))

def documents (o : CheckOptions) : FileWork (Except CheckError (List String)) :=
  if o.paths.isEmpty then
    .present defaultFolder fun there =>
      if there then collect [defaultFolder] else .done (.error (.noFolder defaultFolder))
  else collect o.paths

def readFiles : List String → FileWork (List ProgramFile)
  | [] => .done []
  | path :: paths => .read path fun bytes => do return ⟨path, bytes⟩ :: (← readFiles paths)

/-- Reads string tables into one; of two texts with one key the later counts. -/
def readTables (t : StringTable) : List String → FileWork (Except CheckError StringTable)
  | [] => .done (.ok t)
  | path :: paths => .read path fun bytes =>
    match bytes, tableOfFile path bytes with
    | none, _ => .done (.error (.tableBeyondReach path))
    | _, .error e => .done (.error (.table e))
    | _, .ok other => readTables (t.extend other) paths

def examine (programs tables : List String) (start : String) :
    FileWork (Except CheckError Report) := do
  let files ← readFiles programs
  return (← readTables .empty tables).map (checkFiles files start)

def line (s : String) : String := s ++ "\n"

def heading (programs tables : Nat) : String :=
  line (line s!"==> 检查 {programs} 个程序文件，{tables} 个字符串表...")

def verdict (r : Report) : String :=
  if r.hasErrors then s!"❌ {r.errors} 个错误, {r.warnings} 个警告"
  else if 0 < r.warnings then s!"⚠️  0 个错误, {r.warnings} 个警告"
  else "✅ 检查通过，无错误"

def reportText (programs : Nat) (r : Report) : String :=
  line "─────────────────────────────────────────────────────" ++
    line (line s!"检查完成: {programs} 个程序") ++ String.join (r.map fun d => line d.text) ++
    line "" ++ line (verdict r)

def failing (text : String) (e : CheckError) : CheckOutcome :=
  ⟨text ++ line s!"xtask error: {e.message}", true⟩

def run (o : CheckOptions) : FileWork CheckOutcome := do
  match ← o.documents with
  | .error e => return failing "" e
  | .ok paths =>
    -- a document that is no table has to be a program
    let programs := paths.filter (!isTable ·)
    let tables := paths.filter isTable
    if programs.isEmpty then return ⟨line "未找到程序文件（.json）", false⟩
    else
      let text := heading programs.length tables.length
      match ← examine programs tables o.start with
      | .error e => return failing text e
      | .ok r =>
        let text := text ++ reportText programs.length r
        if r.hasErrors then return failing text .errorsFound else return ⟨text, false⟩

def answer : Request CheckOptions → FileWork CheckOutcome
  | .help => .done ⟨"", false⟩
  | .work o => o.run

end CheckOptions

end DialogueEngine
