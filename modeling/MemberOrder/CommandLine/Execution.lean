import MemberOrder.CommandLine.Arguments
import MemberOrder.Exercise.Check
import MemberOrder.Reordering
import MemberOrder.Settings.Source

/-! # Execution

A run loads the settings, does its work and writes its output in one piece:
on a failure nothing is written. What happens on the way goes to a log. -/

namespace MemberOrder

/-- The text of the file whose members are to be ordered. -/
def readSource (t : FileTree) (p : Path) : Except Failure Text :=
  if t.has p then (t.read p).mapError .ofAccess else .error (.inputNotFound p)

namespace CommandLine

/-! ## Logging -/

/-- How much is logged; each level includes the ones before it. -/
inductive LogLevel where
  | off
  | error
  | warn
  | info
  | debug
  | trace
deriving DecidableEq, Repr

namespace LogLevel

def all : List (Text × LogLevel) := [
  ("off", off), ("error", error), ("warn", warn), ("info", info), ("debug", debug),
  ("trace", trace)]

/-- The level with a name, in whatever case it is written. -/
def named? (t : Text) : Option LogLevel := all.lookup (t.map Char.toLower)

def rank : LogLevel → Nat
  | off => 0
  | error => 1
  | warn => 2
  | info => 3
  | debug => 4
  | trace => 5

end LogLevel

/-- A message in the log. -/
structure LogRecord where
  level : LogLevel
  message : Text
deriving DecidableEq, Repr

/-! ## Runs -/

/-- What came of a run: a report or a failure, what was written, and the
warnings on the way. Ordering has no report. -/
structure Outcome where
  result : Except Failure (Option Report)
  output : Text := []
  warnings : List Text := []

/-- Order the members of a file. -/
def reorderFile (read : Settings.Reader) (s : Surroundings) (a : Arguments) : Outcome :=
  let source : Except Failure (Settings × Text) := do
    let settings ← Settings.load read s (a.config?.map .mk) none
    return (settings, ← readSource s.files ⟨a.operand?.getD []⟩)
  match source with
  | .error f => { result := .error f }
  | .ok (settings, text) =>
    let c := Classification.ofSource settings.braceCounting text
    { result := .ok none
      output := c.grouping.render ++ ['\n']
      warnings := c.warnings.map fun w => w.diagnostic.headline }

/-- The log message about a mismatch. -/
def mismatchMessage (m : Mismatch) : Text :=
  .concat ["User file declares names missing from its solution: ", m.file.text]

/-- Check exercises. -/
def checkExercises (read : Settings.Reader) (s : Surroundings) (a : Arguments) : Outcome :=
  match Settings.load read s (a.config?.map .mk) a.operand? with
  | .error f => { result := .error f }
  | .ok settings =>
    let found := Exercise.findings s.files settings.denied ⟨settings.projectRoot⟩
    -- Mismatches found before a failure are logged too.
    let warnings := found.mismatches.map mismatchMessage
    match found.result with
    | .error f => { result := .error f, warnings }
    | .ok report => { result := .ok (some report), output := report.text ++ ['\n'], warnings }

/-- Do the work of a program. -/
def run (read : Settings.Reader) : Program → Surroundings → Arguments → Outcome
  | .reorder => reorderFile read
  | .check => checkExercises read

/-! ## Programs -/

def Program.name : Program → Text
  | reorder => "solorder"
  | check => "solorder-check"

def Program.version (p : Program) : Text := .concat [p.name, " 0.1.0\n"]

/-- How the operand is written in the usage, and what it means. -/
def Program.operandHelp : Program → Text × Text
  | reorder => ("<INPUT>", "Path to the input file")
  | check => ("[ROOT]", "Project root (defaults to the configured root, `foundry`)")

def Program.usage (p : Program) : Text :=
  .concat ["Usage: ", p.name, " [OPTIONS] ", p.operandHelp.1, "\n"]

def Program.help (p : Program) : Text :=
  let (operand, meaning) := p.operandHelp
  .concat [
    "Command-line interface for reordering Solidity contract members\n\n",
    p.usage, "\n",
    "Arguments:\n  ", operand, "  ", meaning, "\n\n",
    "Options:\n",
    "  -c, --config <CONFIG>        Path to configuration file (TOML)\n",
    "      --log-level <LOG_LEVEL>  Log level (off, error, warn, info, debug, trace) ",
    "[default: warn]\n",
    "  -h, --help                   Print help\n",
    "  -V, --version                Print version\n"]

/-- Everything that the caller of a program observes. -/
structure Execution where
  exitCode : Nat
  output : Text := []
  /-- Why the arguments were not accepted. -/
  usageError? : Option UsageError := none
  /-- A remark on the wanted level of logging. -/
  notice? : Option Text := none
  log : List LogRecord := []
deriving DecidableEq, Repr

namespace Execution

/-- The number of log records of one level. -/
def count (e : Execution) (l : LogLevel) : Nat := (e.log.filter fun r => r.level = l).length

end Execution

/-- The level at which a run logs, and a notice if the wanted one is
unknown. -/
def logging (wanted : Text) : LogLevel × Option Text :=
  match LogLevel.named? wanted with
  | some l => (l, none)
  | none =>
    (.warn, some (.concat ["Invalid log level: ", wanted, ". Using \x27warn\x27 instead."]))

/-- The log of a run: its warnings, then the failure that ended it. -/
def Outcome.log (o : Outcome) : List LogRecord :=
  let failure : List LogRecord := match o.result with
    | .error f => [⟨.error, f.rendered⟩]
    | .ok _ => []
  (o.warnings.map fun w => ⟨.warn, w⟩) ++ failure

/-- Execute a program with the given arguments. -/
def execute (read : Settings.Reader) (p : Program) (s : Surroundings) (args : List Text) :
    Execution :=
  match Arguments.parse p args with
  | .error .helpWanted => { exitCode := 0, output := p.help }
  | .error .versionWanted => { exitCode := 0, output := p.version }
  | .error e => { exitCode := 2, usageError? := some e }
  | .ok a =>
    let (level, notice?) := logging a.logLevel
    let o := run read p s a
    { exitCode := match o.result with
        | .ok _ => 0
        | .error _ => 1
      output := o.output
      notice?
      log := o.log.filter fun r => r.level.rank ≤ level.rank }

end CommandLine
end MemberOrder
