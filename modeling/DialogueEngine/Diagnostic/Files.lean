import DialogueEngine.Diagnostic.Check
import DialogueEngine.Files.Tree
import DialogueEngine.Program.Codec

/-! # Checks of program files

Several files are checked as one program, so that a jump from one file to another is none to a
missing node. Files that hold no program are reported and left out.
-/

namespace DialogueEngine

structure ProgramFile where
  path : String
  bytes : Option (List UInt8)

/-- Why a file is no program. A file that was found and cannot be read has too long a path. -/
def ProgramFile.fault (f : ProgramFile) : String :=
  if f.bytes.isSome then ProgramError.undecodable.message else FileTree.tooLong

def ProgramFile.failure (f : ProgramFile) : Diagnostic :=
  (Diagnostic.ofProgram .error f.path "无法加载程序").withDetail f.fault

/-- Decodes files: reports those that hold no program, and has the programs of the others. -/
def decodeFiles : List ProgramFile → Report × List Program
  | [] => ([], [])
  | f :: rest =>
    let (report, programs) := decodeFiles rest
    match f.bytes.bind Program.decode? with
    | some p => (report, p :: programs)
    | none => (f.failure :: report, programs)

def checkFiles (files : List ProgramFile) (start : String) (t : StringTable) : Report :=
  let (report, programs) := decodeFiles files
  match Program.combine programs with
  | .ok p => report ++ p.checkWith start t
  | .error e => report ++ [Diagnostic.ofProgram .error "<combined>" e.message]

end DialogueEngine
