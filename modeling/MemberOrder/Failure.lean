import MemberOrder.FileTree.Basic
import MemberOrder.Text.Blank

/-! # Failures

Ordering members cannot fail, but getting at the files can (`SolorderError`). -/

namespace MemberOrder

/-- Why a run came to nothing. -/
inductive Failure where
  /-- A file or directory could not be read. -/
  | access (reason : Text)
  | inputNotFound (path : Path)
  | rootNotFound (path : Path)
  /-- The settings could not be loaded. -/
  | settings (problem : Text)
deriving DecidableEq, Repr

namespace Failure

def ofAccess (e : AccessError) : Failure := access e.message

/-- The sentence that tells the user what went wrong. -/
def message : Failure → Text
  | access reason => .concat ["I/O error: ", reason]
  | inputNotFound path => .concat ["input file not found: ", path.text]
  | rootNotFound path => .concat ["project root not found: ", path.text]
  | settings problem => .concat ["Configuration error: ", problem]

/-- The stable name of the failure. -/
def code : Failure → Text
  | access _ => "solorder::io"
  | inputNotFound _ => "solorder::input_not_found"
  | rootNotFound _ => "solorder::project_root_not_found"
  | settings _ => "solorder::config"

/-- What the user can do about it. -/
def help? : Failure → Option Text
  | rootNotFound _ => some "pass the project root as an argument or set `compare.project_root`"
  | _ => none

/-- What lies behind the failure, if that is another error. -/
def cause? : Failure → Option Text
  | access reason => some reason
  | _ => none

/-- The failure as it is written to the log. -/
def rendered (f : Failure) : Text :=
  let cause := f.cause?.elim [] fun c => Text.concat ["  `-> ", c, "\n"]
  let help := f.help?.elim [] fun h => Text.concat ["  help: ", h, "\n"]
  .concat [f.code, "\n\n  x ", f.message.trimEnd, "\n", cause, help]

end Failure
end MemberOrder
