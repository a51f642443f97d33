import MemberOrder.Failure
import MemberOrder.Settings

/-! # Where settings come from

A file named on the command line wins over one in the working directory, and
that one over the file of the platform (`ConfigSource`). Without any file the
defaults apply. How a text is read as settings is left to a reader. -/

namespace MemberOrder

/-- What a run can see: the files, and where the platform keeps settings. -/
structure Surroundings where
  files : FileTree
  platformSettings? : Option Path := none
deriving DecidableEq, Repr

namespace Settings

/-- The settings file of a working directory. -/
def localPath : Path := "solorder/config.toml"

/-- The file from which the settings are read, if there is one. Only a file
that is named explicitly need not exist. -/
def source? (s : Surroundings) (explicit? : Option Path) : Option Path :=
  match explicit? with
  | some p => some p
  | none =>
    if s.files.has localPath then some localPath
    else s.platformSettings?.filter s.files.has

/-- Why settings could not be loaded. -/
inductive Problem where
  | missing (path : Path)
  | unreadable (path : Path) (reason : AccessError)
  | malformed (path : Path) (complaint : Text)
deriving DecidableEq, Repr

def Problem.message : Problem → Text
  | missing path => .concat ["Missing configuration file: ", path.text]
  | unreadable path reason => .concat ["Failed to read ", path.text, ": ", reason.message]
  | malformed path complaint =>
    .concat ["Failed to parse TOML configuration ", path.text, ": ", complaint]

/-- The settings in a file. -/
def readFile (read : Reader) (t : FileTree) (p : Path) : Except Problem Settings :=
  match t.read p with
  | .error .notFound => .error (.missing p)
  | .error e => .error (.unreadable p e)
  | .ok content => (read content).mapError (.malformed p)

/-- The settings of a run. A project root on the command line replaces the
one in the file. -/
def load (read : Reader) (s : Surroundings) (explicit? : Option Path) (root? : Option Text) :
    Except Failure Settings := do
  let settings ← match source? s explicit? with
    | none => .ok {}
    | some p => (readFile read s.files p).mapError fun e => .settings e.message
  return root?.elim settings settings.withProjectRoot

end Settings
end MemberOrder
