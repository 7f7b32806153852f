import DialogueEngine.CommandLine.Check
import DialogueEngine.CommandLine.Play

/-! # The program

`program-check` and its arguments check programs; any other command line plays a dialogue at the
terminal. Everything that is decided is decided by the library; this module only does what has
been decided, at a real disk and a real terminal.
-/

namespace DialogueEngine

/-! ## The disk -/

def isOnDisk (path : String) : IO Bool := do
  -- joined to a folder, the empty path would lead to the folder itself
  if path.isEmpty then return false
  ((← IO.currentDir) / path).pathExists

partial def filesOnDisk (path : String) : IO (List String) := do
  let place := (← IO.currentDir) / path
  if ← place.isDir then
    let names := (← place.readDir).toList.map (·.fileName)
    let files ← (names.mergeSort (decide <| · ≤ ·)).mapM fun name =>
      filesOnDisk (FileTree.entryPath path name)
    return files.flatten
  else return [path]

def FileWork.onDisk {α : Type} : FileWork α → IO α
  | .done a => return a
  | .present path k => do (k (← isOnDisk path)).onDisk
  | .read path k => do
    let r ← (IO.FS.readBinFile path).toBaseIO
    (k (r.toOption.map (·.toList))).onDisk
  | .walk path k => do (k (.ok (← filesOnDisk path))).onDisk
  | .save path bytes k => do
    let r ← (IO.FS.writeBinFile path bytes.toByteArray).toBaseIO
    (k r.isOk).onDisk

/-! ## The terminal -/

def say (text : String) : IO Unit := do
  let output ← IO.getStdout
  output.putStr text
  output.flush

/-- The bytes up to the end of a line; `line` holds those before, the last byte first. -/
partial def lineBytes (input : IO.FS.Stream) (line : List UInt8) : IO (List UInt8) := do
  match (← input.read 1).toList with
  | [] => return line.reverse
  | b :: _ => if b == 0x0A then return (b :: line).reverse else lineBytes input (b :: line)

def nextLine : IO (List InputLine) := do
  return InputLine.lines (← lineBytes (← IO.getStdin) [])

/-- Lets time pass, at least as much as is wanted. -/
partial def pass (nanos : Nat) : IO Unit := do
  -- the runtime sleeps whole milliseconds, at most as many as 32 bits count
  let step := min nanos 1000000000000000
  IO.sleep ((step + 999999) / 1000000).toUInt32
  if step < nanos then pass (nanos - step)

/-- The number of yields that one operation may take: more than it ever will. -/
def yieldLimit : Nat := Word.bound / 4

def unfaulted {α : Type} : Except Fault α → IO α
  | .ok a => return a
  | .error f => throw (IO.userError f.message)

namespace Stage

def inputFor : Need → IO (List InputLine)
  | .choice => do
    say prompt
    nextLine
  | .line => nextLine
  | .time d => do
    pass d.nanos
    return []
  | .nothing => return []

partial def playAtTerminal (s : Stage) : IO (Except PlayError Unit) := do
  let (events, s) := s.takeEvents
  let (shown, r) := renderAll events
  for event in shown do
    if let .wrote text := event then say text
  if let .error e := r then return .error e
  let (_, reaction, _) ← unfaulted (s.meet yieldLimit (← inputFor s.need))
  say reaction.text
  match reaction.going with
  | .on => reaction.stage.playAtTerminal
  | .over => return .ok ()
  | .failed e => return .error e

end Stage

/-! ## The commands -/

def failWith (message : String) : IO UInt32 := do
  IO.eprintln s!"Error: {message}"
  return 1

/-- Does what a command line asks for; without that, or for help, tells how to ask. -/
def serve {α : Type} (usage : String) (work : α → IO UInt32) : Option (Request α) → IO UInt32
  | some (.work o) => work o
  | some .help => do
    IO.println s!"Usage: {usage}"
    return 0
  | none => do
    IO.eprintln s!"Usage: {usage}"
    return 2

def playCommand (o : PlayOptions) : IO UInt32 := do
  match ← unfaulted (← (o.stage yieldLimit).onDisk) with
  | .error e =>
    if let .check report := e then
      for d in report do IO.eprintln d.text
    failWith e.message
  | .ok (s, node) =>
    match ← unfaulted (s.startAt yieldLimit node) with
    | (.error e, _) => failWith e.message
    | (.ok (), s) =>
      match ← Stage.playAtTerminal s with
      | .ok () => return 0
      | .error e => failWith e.message

def checkCommand (o : CheckOptions) : IO UInt32 := do
  let r ← o.run.onDisk
  IO.eprint r.text
  return if r.fails then 1 else 0

end DialogueEngine

open DialogueEngine in
def main (args : List String) : IO UInt32 := do
  if args.head? == some CheckOptions.commandName then
    serve s!"{CheckOptions.commandName} [PATHS]... [--start <START>]" checkCommand
      (CheckOptions.ofCommandLine? args)
  else
    let usage := "[PROGRAMS]... [--config <CONFIG>] [--strings <STRINGS>] [--start <START>] " ++
      "[--var <NAME=VALUE>]... [--no-check] [--log-level <LEVEL>]"
    serve usage playCommand (PlayOptions.ofCommandLine? args)
