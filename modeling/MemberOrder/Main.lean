import MemberOrder.CommandLine.Execution

/-! # The programs

The outer layer: it takes over what a run can see of the file system,
executes the program and writes what came of it. Everything else is decided
by `MemberOrder.CommandLine.execute`. -/

open MemberOrder
open MemberOrder.CommandLine

namespace MemberOrder.Main

/-- A location as an absolute path. -/
def absolute (l : Location) : String := String.ofList ('/' :: Text.join ['/'] l)

/-- Take over what is at a location. -/
def observe (t : FileTree) (l : Location) : IO FileTree := do
  let p := (← IO.currentDir) / absolute l
  if ← p.isDir then return t.add l .directory
  else if ← p.pathExists then return t.add l (.ofBytes (← IO.FS.readBinFile p))
  else return t

/-- Take over what is on the way along a path. -/
def observePath (t : FileTree) (p : Path) : IO (FileTree × Location) := do
  let mut l := if p.isAbsolute then [] else t.workingDirectory
  let mut t := t
  for part in p.parts do
    match Path.component? part with
    | some .up => l := l.dropLast
    | some (.named n) =>
      l := l ++ [n]
      t ← observe t l
    | _ => pure ()
  return (t, l)

/-- Take over what is below a location, to a given depth. -/
def observeBelow : Nat → FileTree → Location → IO FileTree
  | 0, t, _ => return t
  | depth + 1, t, l => do
    let p := (← IO.currentDir) / absolute l
    unless ← p.isDir do return t
    let mut t := t
    for e in ← p.readDir do
      let inner := l ++ [e.fileName.toList]
      t ← observeBelow depth (← observe t inner) inner
    return t

/-- Where the platform keeps the settings. -/
def platformSettings? : IO (Option Path) := do
  let directory? ← match ← IO.getEnv "XDG_CONFIG_HOME" with
    | some d => pure (some d)
    | none => do pure ((← IO.getEnv "HOME").map fun home => home ++ "/.config")
  return directory?.map fun d => Path.join ⟨d.toList⟩ "solorder/config.toml"

/-- Take over the settings files and the files that the operand leads to.
The solutions of an exercise are four steps below the root. -/
def observeRun (program : Program) (args : List Text) : IO Surroundings := do
  let parts := ((← IO.currentDir).toString.splitOn "/").filter fun part => !part.isEmpty
  let workingDirectory : Location := parts.map String.toList
  let platformSettings? ← platformSettings?
  let mut t := ({ workingDirectory } : FileTree).add workingDirectory .directory
  match Arguments.parse program args with
  | .error _ => return { files := t, platformSettings? }
  | .ok a =>
    let explicit? := a.config?.map Path.mk
    for p in [some Settings.localPath, platformSettings?, explicit?].filterMap id do
      t := (← observePath t p).1
    match program with
    | .reorder => t := (← observePath t ⟨a.operand?.getD []⟩).1
    | .check =>
      let seen : Surroundings := { files := t, platformSettings? }
      if let .ok s := Settings.load Settings.ofText seen explicit? a.operand? then
        let (t', root) ← observePath t ⟨s.projectRoot⟩
        t ← observeBelow 4 t' root
    return { files := t, platformSettings? }

/-- The program that was called, by the name of the executable. -/
def calledProgram : IO Program := do
  let name := (← IO.appPath).fileName.getD ""
  return if name.toList = Program.check.name then .check else .reorder

def levelName : LogLevel → String
  | .off => "OFF"
  | .error => "ERROR"
  | .warn => "WARN"
  | .info => "INFO"
  | .debug => "DEBUG"
  | .trace => "TRACE"

/-- Write what came of an execution. -/
def report (program : Program) (e : Execution) : IO Unit := do
  if e.usageError?.isSome then IO.eprint (String.ofList program.usage)
  if let some notice := e.notice? then IO.eprintln (String.ofList notice)
  for r in e.log do
    IO.eprintln ("[" ++ levelName r.level ++ "] " ++ String.ofList r.message)
  IO.print (String.ofList e.output)

end MemberOrder.Main

def main (args : List String) : IO UInt32 := do
  let program ← MemberOrder.Main.calledProgram
  let args := args.map String.toList
  let s ← MemberOrder.Main.observeRun program args
  let e := execute Settings.ofText program s args
  MemberOrder.Main.report program e
  return e.exitCode.toUInt32
