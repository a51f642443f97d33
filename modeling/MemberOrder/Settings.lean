import MemberOrder.Declared.Roster
import MemberOrder.Shape.Basic
import MemberOrder.Toml.Document

/-! # Settings

Settings say how braces are counted, where exercises are found and which
names a comparison ignores (`AppConfig`). All of them have defaults, and keys that
are no settings are ignored. -/

namespace MemberOrder

structure Settings where
  braceCounting : BraceCounting := .raw
  /-- The directory of the exercise projects. -/
  projectRoot : Text := "foundry"
  /-- The names that a comparison ignores. -/
  denied : Roster := .defaultDenied
deriving DecidableEq, Repr

namespace Settings
open Toml

/-- The way of counting with a given name. -/
def countingNamed? (t : Text) : Option BraceCounting :=
  if t = "raw" then some .raw else if t = "lexical" then some .lexical else none

/-- Whether a value has no parts. -/
def isVoid : Value → Bool
  | .table _ es => es.isEmpty
  | v => v.items?.any List.isEmpty

/-- A way of counting is given by its name, or by a table with the name as
its only key and nothing under it. -/
def counting? : Value → Option BraceCounting
  | .string t => countingNamed? t
  | .table _ [(k, v)] => if isVoid v then countingNamed? k else none
  | _ => none

/-- A list of names. -/
def names? (v : Value) : Option NameSet := do
  return .ofList (← (← v.items?).mapM Value.string?)

/-- The value of a field, or the default if the field is missing. -/
def orDefault {α : Type} (read? : Value → Option α) (default : α) : Option Value → Option α
  | none => some default
  | some v => read? v

/-- Read the settings of the scanner. -/
def readClassifier? (s : Settings) (v : Value) : Option Settings := do
  match ← v.fields? ["brace_counting"] with
  | [counting] => return { s with braceCounting := ← orDefault counting? s.braceCounting counting }
  | _ => none

/-- Read the settings of the comparison. -/
def readCompare? (s : Settings) (v : Value) : Option Settings := do
  let keys : List Text :=
    ["project_root", "function_deny_list", "event_deny_list", "struct_deny_list"]
  match ← v.fields? keys with
  | [root, functions, events, structs] =>
    return { s with
      projectRoot := ← orDefault Value.string? s.projectRoot root
      denied := {
        functions := ← orDefault names? s.denied.functions functions
        events := ← orDefault names? s.denied.events events
        structs := ← orDefault names? s.denied.structs structs } }
  | _ => none

/-- Read settings from the entries of a file. -/
def ofEntries? (es : Entries) : Option Settings := do
  let s : Settings := {}
  match ← (Value.table .header es).fields? ["classifier", "compare"] with
  | [classifier, compare] =>
    let s ← orDefault (readClassifier? s) s classifier
    orDefault (readCompare? s) s compare
  | _ => none

/-- Read settings from the text of a file. -/
def ofText? (t : Text) : Option Settings := do ofEntries? (← parse? t)

/-- What reads settings from the text of a file. A text that it does not accept
gets a complaint. -/
abbrev Reader := Text → Except Text Settings

/-- The complaint about a text that holds no settings. It does not say what is
wrong with the text. -/
def complaint : Text := "not a settings file"

/-- The reader that the programs use. -/
def ofText : Reader := fun t =>
  match ofText? t with
  | some s => .ok s
  | none => .error complaint

/-- The same settings with another project root. -/
def withProjectRoot (s : Settings) (root : Text) : Settings := { s with projectRoot := root }

end Settings
end MemberOrder
