import MemberOrder.Text.Basic

/-! # Arguments

Two programs share their command line: one orders the members of a file, the
other checks exercises. Both take one operand and the same options (`Args` and
`CheckArgs`). Arguments are read from left to right, and the first problem ends the
reading. -/

namespace MemberOrder.CommandLine

inductive Program where
  /-- Order the members of the file that the operand names. -/
  | reorder
  /-- Check the exercises under the root that the operand may name. -/
  | check
deriving DecidableEq, Repr

/-- The options that take a value. -/
inductive Flag where
  | config
  | logLevel
deriving DecidableEq, Repr

/-- Why arguments are not accepted. Asking for help or for the version ends
the reading too. -/
inductive UsageError where
  | helpWanted
  | versionWanted
  | unknownArgument
  | missingOperand
  | missingValue
  | repeatedOption
  | unexpectedValue
deriving DecidableEq, Repr

structure Arguments where
  operand? : Option Text := none
  config? : Option Text := none
  logLevel? : Option Text := none
deriving DecidableEq, Repr

namespace Arguments

/-- The wanted level of logging. -/
def logLevel (a : Arguments) : Text := a.logLevel?.getD "warn"

def get? (a : Arguments) : Flag → Option Text
  | .config => a.config?
  | .logLevel => a.logLevel?

def set (a : Arguments) (f : Flag) (v : Text) : Arguments :=
  match f with
  | .config => { a with config? := some v }
  | .logLevel => { a with logLevel? := some v }

/-- Set an option, once only. -/
def assign (a : Arguments) (f : Flag) (v : Text) : Except UsageError Arguments :=
  if (a.get? f).isSome then .error .repeatedOption else .ok (a.set f v)

end Arguments

/-- What has been read so far. -/
structure Reading where
  arguments : Arguments := {}
  /-- The last option, with its value if that has come. It is looked at when
  the next argument is accepted. -/
  pending? : Option (Flag × Option Text) := none
  /-- Whether all arguments to come are operands. -/
  operandsOnly : Bool := false
deriving DecidableEq, Repr

namespace Reading

/-- Take the last option over into the arguments. -/
def settle (r : Reading) : Except UsageError Reading :=
  match r.pending? with
  | none => .ok r
  | some (_, none) => .error .missingValue
  | some (f, some v) => do
    return { r with arguments := ← r.arguments.assign f v, pending? := none }

/-- Read an operand. There is room for one. -/
def operand (r : Reading) (t : Text) : Except UsageError Reading :=
  if r.arguments.operand?.isSome then .error .unknownArgument
  else do
    let r ← r.settle
    return { r with arguments := { r.arguments with operand? := some t } }

/-- Read an option, with its value if that is attached to it. -/
def option (r : Reading) (f : Flag) (attached? : Option Text) : Except UsageError Reading := do
  let r ← r.settle
  match attached? with
  | some v => return { r with arguments := ← r.arguments.assign f v }
  | none => return { r with pending? := some (f, none) }

/-- Read a request, which ends the reading. -/
def request (r : Reading) (e : UsageError) : Except UsageError Reading := do
  let _ ← r.settle
  .error e

/-- Read an argument behind two dashes: a name, and a value behind an equals
sign. -/
def long (r : Reading) (t : Text) : Except UsageError Reading :=
  let (name, attached?) := match Text.cut? "=" t with
    | some (name, v) => (name, some v)
    | none => (t, none)
  if name = "config" then r.option .config attached?
  else if name = "log-level" then r.option .logLevel attached?
  else if name = "help" || name = "version" then
    if attached?.isSome then .error .unexpectedValue
    else r.request (if name = "help" then .helpWanted else .versionWanted)
  else .error .unknownArgument

/-- Read an argument behind one dash: a letter, and a value behind it. -/
def short (r : Reading) (letter : Char) (rest : Text) : Except UsageError Reading :=
  if letter = 'c' then
    match rest with
    | [] => r.option .config none
    | '=' :: v => r.option .config (some v)
    | v => r.option .config (some v)
  else if letter = 'h' then r.request .helpWanted
  else if letter = 'V' then r.request .versionWanted
  else .error .unknownArgument

/-- Read an argument that is no option: the value that the last option waits
for, or an operand. -/
def word (r : Reading) (t : Text) : Except UsageError Reading :=
  match r.pending? with
  | some (f, none) => .ok { r with pending? := some (f, some t) }
  | _ => r.operand t

/-- Read one argument. Two dashes alone make operands of the rest, and one
dash alone is no option. -/
def step (r : Reading) (t : Text) : Except UsageError Reading :=
  if r.operandsOnly then r.operand t
  else
    match t with
    | ['-', '-'] => .ok { r with operandsOnly := true }
    | '-' :: '-' :: name => r.long name
    | '-' :: letter :: rest => r.short letter rest
    | _ => r.word t

end Reading

/-- Read the arguments of a program. Ordering needs its operand. -/
def Arguments.parse (p : Program) (args : List Text) : Except UsageError Arguments := do
  let r ← (← args.foldlM Reading.step {}).settle
  if p = .reorder && r.arguments.operand?.isNone then throw .missingOperand
  return r.arguments

end MemberOrder.CommandLine
