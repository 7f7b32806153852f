/-! # Errors

What can go wrong, by cause, and the text of each cause.

* `ProgramError` — programs that cannot be read or put together.
* `RuntimeError` — operations that the present state of the dialogue does not allow.
* `CapabilityError` — host objects that lack a method, fail, or answer with the wrong type.
-/

namespace DialogueEngine

inductive ProgramError where
  /-- Two programs define a node of the same name. -/
  | nodeConflict (node : String)
  /-- A document is no program. -/
  | undecodable
  deriving DecidableEq, Repr

/-- An operation that the present state of the dialogue does not allow. -/
inductive RuntimeError where
  | unknownNode (node : String)
  | notRunning
  | invalidOption (id : Nat)
  | dialogueActive (operation : String)
  | noProgramLoaded
  | undefinedVariable (name : String)
  | awaitingSelection
  | invalidState (message : String)
  deriving DecidableEq, Repr

/-- A host object that does not do what it is needed for. -/
inductive CapabilityError where
  | missingMethod (capability object method : String)
  | invocation (object method message : String)
  | returnType (object method expected actual : String)
  deriving DecidableEq, Repr

inductive EngineError where
  | program (e : ProgramError)
  | runtime (e : RuntimeError)
  | capability (e : CapabilityError)
  deriving DecidableEq, Repr

/-- The text of an error; of a document that is no program only its beginning is fixed. -/
def ProgramError.message : ProgramError → String
  | .nodeConflict node => s!"节点 '{node}' 在多个程序中重复定义"
  | .undecodable => "程序解码失败:"

def RuntimeError.message : RuntimeError → String
  | .unknownNode node => s!"节点 '{node}' 不存在"
  | .notRunning => "对话未在运行"
  | .invalidOption id => s!"无效的选项 {id}"
  | .dialogueActive operation => s!"对话运行中，不允许执行 {operation}"
  | .noProgramLoaded => "尚未加载任何程序"
  | .undefinedVariable name => s!"变量 '{name}' 未定义"
  | .awaitingSelection => "正在等待选项选择"
  | .invalidState message => s!"无效的状态操作: {message}"

def CapabilityError.message : CapabilityError → String
  | .missingMethod capability object method =>
    s!"宿主对象 '{object}' 缺少 {capability} 能力要求的方法 '{method}'"
  | .invocation object method message => s!"调用 '{object}.{method}' 失败: {message}"
  | .returnType object method expected actual =>
    s!"'{object}.{method}' 返回了 {actual}，期望 {expected}"

/-- The text of an error, with its kind in front. -/
def EngineError.message : EngineError → String
  | .program e => s!"程序错误: {e.message}"
  | .runtime e => s!"运行时错误: {e.message}"
  | .capability e => s!"能力适配错误: {e.message}"

end DialogueEngine
