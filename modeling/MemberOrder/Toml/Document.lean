import MemberOrder.Toml.Plain
import MemberOrder.Toml.Value

/-! # Reading a settings file

A settings file is a sequence of statements: a header opens a table, and an
assignment sets a key of the open table. A file with a mistake has no
meaning at all. -/

namespace MemberOrder.Toml

/-! ## Keys -/

def isBareChar (c : Char) : Bool := c.isAlphanum || c == '_' || c == '-'

/-- Read one part of a key, bare or quoted. -/
def keyPart? (t : Text) : Option (Text × Text) :=
  match t with
  | '"' :: t => basic? false .plain t
  | '\x27' :: t => literal? t
  | _ =>
    let bare := t.takeWhile isBareChar
    if bare.isEmpty then none else some (bare, t.drop bare.length)

/-- Read the parts of a dotted key, of which there are at most `count`. -/
def keyParts? : Nat → Text → Option (List Text × Text)
  | 0, _ => none
  | count + 1, t => do
    let (k, t) ← keyPart? t
    match skipSpace t with
    | '.' :: t =>
      let (ks, t) ← keyParts? count (skipSpace t)
      return (k :: ks, t)
    | t => return ([k], t)

/-- How many parts a key may have. -/
def maxKeyParts : Nat := 80

/-- Read a key and the spaces behind it. -/
def key? (t : Text) : Option (List Text × Text) := keyParts? maxKeyParts t

/-! ## Values

A reader of values is built from a reader of less deeply nested ones. -/

/-- A reader takes a value from the start of a text. -/
abbrev Reader := Text → Option (Value × Text)

/-- The value that is written without quotes. -/
def Value.ofPlain (t : Text) : Value :=
  if isMoment t then .moment t else if hasValue t then .plain t else .valueless t

/-- Read a value that has no parts. -/
def scalar? : Reader := fun t =>
  match t with
  | '"' :: _ | '\x27' :: _ => (quoted? t).map fun r => (.string r.1, r.2)
  | _ => (plain? t).map fun r => (.ofPlain r.1, r.2)

/-- Read the items of an array up to its bracket. -/
def items? (value? : Reader) : Nat → Text → Option (List Value × Text)
  | 0, _ => none
  | fuel + 1, t =>
    match skipLayout false t with
    | ']' :: t => some ([], t)
    | t => do
      let (v, t) ← value? t
      match skipLayout false t with
      | ',' :: t =>
        let (vs, t) ← items? value? fuel t
        return (v :: vs, t)
      | ']' :: t => return ([v], t)
      | _ => none

/-- Read a key, an equals sign and a value. What may stand around the equals
sign is skipped. -/
def assignment? (skip : Text → Text) (value? : Reader) (t : Text) :
    Option ((List Text × Value) × Text) := do
  let (k, t) ← key? t
  let t ← Text.after? "=" (skip t)
  let (v, t) ← value? (skip t)
  return ((k, v), t)

/-- Read the assignments of an inline table up to its brace. They may be
spread over several lines. -/
def inlineEntries? (value? : Reader) : Nat → Text → Option (List (List Text × Value) × Text)
  | 0, _ => none
  | fuel + 1, t =>
    match skipLayout false t with
    | '}' :: t => some ([], t)
    | t => do
      let (a, t) ← assignment? (skipLayout false) value? t
      match skipLayout false t with
      | ',' :: t =>
        let (as, t) ← inlineEntries? value? fuel t
        return (a :: as, t)
      | '}' :: t => return ([a], t)
      | _ => none

/-- Read a value in which arrays and inline tables are nested at most
`depth` times. -/
def value? : Nat → Reader
  | 0, t => scalar? t
  | depth + 1, t =>
    match t with
    | '[' :: t => (items? (value? depth) t.length t).map fun r => (.array r.1, r.2)
    | '{' :: t => do
      let (as, t) ← inlineEntries? (value? depth) t.length t
      let es ← as.foldlM (fun es a => Entries.assign? a.2 a.1 es) []
      return (.table .inline es, t)
    | _ => scalar? t

/-- How deep values may be nested. -/
def maxDepth : Nat := 80

/-! ## Statements -/

inductive Statement where
  /-- A header; `repeated` ones may come several times. -/
  | header (path : List Text) (repeated : Bool)
  | assignment (key : List Text) (v : Value)
deriving Repr

/-- Read a statement at the start of a line. -/
def statement? (t : Text) : Option (Statement × Text) := do
  match Text.after? "[[" t, Text.after? "[" t with
  | some t, _ =>
    let (path, t) ← key? (skipSpace t)
    return (.header path true, ← Text.after? "]]" t)
  | none, some t =>
    let (path, t) ← key? (skipSpace t)
    return (.header path false, ← Text.after? "]" t)
  | none, none =>
    let ((k, v), t) ← assignment? skipSpace (value? maxDepth) t
    return (.assignment k v, t)

/-- Read statements to the end of the text; there are at most as many as
`fuel`. -/
def statementsFrom? : Nat → Text → Option (List Statement)
  | 0, t => if (skipLayout false t).isEmpty then some [] else none
  | fuel + 1, t =>
    match skipLayout false t with
    | [] => some []
    | t => do
      let (s, t) ← statement? t
      let t ← afterLine? t
      return s :: (← statementsFrom? fuel t)

/-- Read the statements of a text. A byte order mark may stand in front. -/
def statements? (t : Text) : Option (List Statement) :=
  let t := (Text.after? ['\uFEFF'] t).getD t
  statementsFrom? t.length t

/-! ## The tables of a file -/

/-- The tables that the statements so far have built, and the path of the
open one. -/
structure Document where
  root : Entries := []
  path : List Text := []
deriving Repr

namespace Document

/-- Carry out one statement. -/
def step? (d : Document) : Statement → Option Document
  | .header path repeated => do
    let k ← path.getLast?
    let introduce? := if repeated then Entries.openNext? k else Entries.open? k
    let root ← d.root.updateAt? introduce? path.dropLast
    return { root, path }
  | .assignment k v => do
    let root ← d.root.updateAt? (Entries.assign? v k) d.path
    return { d with root }

end Document

/-- The top-level entries of a settings file. -/
def parse? (t : Text) : Option Entries := do
  let d ← (← statements? t).foldlM Document.step? {}
  return d.root

end MemberOrder.Toml
