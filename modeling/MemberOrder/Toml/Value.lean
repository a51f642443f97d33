import MemberOrder.Text.Basic

/-! # Values of a settings file

A settings file is written in TOML: a tree of tables whose leaves are
strings, arrays, moments and plain values. How a table came into being decides what
may still be added to it. -/

namespace MemberOrder.Toml

/-- How a table was introduced. -/
inductive Origin where
  /-- By a header of its own. -/
  | header
  /-- By a header of a table inside it. -/
  | implied
  /-- By a dotted key, or by a header of a table inside it before a dotted
  key added to it. -/
  | dotted
  /-- Between braces; such a table is complete. -/
  | inline
deriving DecidableEq, Repr

inductive Value where
  | string (t : Text)
  /-- A number or a truth value, as it is written. -/
  | plain (t : Text)
  /-- A number that is too large or lacks digits of its base, as it is
  written. -/
  | valueless (t : Text)
  /-- A date, a time of day or both, as it is written. -/
  | moment (t : Text)
  | array (items : List Value)
  /-- Tables with a repeated header. -/
  | tables (items : List (List (Text × Value)))
  | table (origin : Origin) (entries : List (Text × Value))
deriving Repr

/-- The keys of a table with their values. -/
abbrev Entries := List (Text × Value)

namespace Value

def string? : Value → Option Text
  | string t => some t
  | _ => none

def items? : Value → Option (List Value)
  | array vs => some vs
  | tables ts => some (ts.map (table .header))
  | _ => none

mutual

/-- Whether all numbers in a value stand for something. -/
def isSound : Value → Bool
  | string _ | plain _ | moment _ => true
  | valueless _ => false
  | array vs => areSound vs
  | tables ts => tablesSound ts
  | table _ es => entriesSound es

def areSound : List Value → Bool
  | [] => true
  | v :: vs => v.isSound && areSound vs

def tablesSound : List (List (Text × Value)) → Bool
  | [] => true
  | es :: ts => entriesSound es && tablesSound ts

def entriesSound : List (Text × Value) → Bool
  | [] => true
  | (_, v) :: es => v.isSound && entriesSound es

end

/-- The fields of a record, in the order of the given names. A table gives
its fields by name, and what it holds besides them has to be sound. An array
gives them by position, and what it holds besides them is not looked at. A
moment is a record too, but it has none of the fields that have a name
here. -/
def fields? (names : List Text) : Value → Option (List (Option Value))
  | table _ es =>
    if es.all fun e => names.contains e.1 || e.2.isSound then
      some (names.map fun n => es.lookup n)
    else none
  | moment _ => some (names.map fun _ => none)
  | v => v.items?.map fun vs => (List.range names.length).map fun i => vs[i]?

end Value

namespace Entries

/-- The value of a key. -/
def get? (es : Entries) (k : Text) : Option Value := es.lookup k

/-- Give a key that is there another value. -/
def replace (k : Text) (v : Value) (es : Entries) : Entries :=
  es.map fun e => if e.1 = k then (k, v) else e

/-- Set a key that is not there yet. -/
def define? (k : Text) (v : Value) (es : Entries) : Option Entries :=
  if (get? es k).isSome then none else some (es ++ [(k, v)])

/-- Set the value of a dotted key. Its tables are created where they are
missing. A key does not pass through a table that has a header of its own or
stands between braces. It passes through the last of repeated tables, but it
does not end there. -/
def assign? (v : Value) : List Text → Entries → Option Entries
  | [], _ => none
  | [k], es => es.define? k v
  | k :: ks, es =>
    match get? es k with
    | none => (assign? v ks []).map fun sub => es ++ [(k, .table .dotted sub)]
    | some (.table .dotted sub) =>
      (assign? v ks sub).map fun sub => es.replace k (.table .dotted sub)
    | some (.table .implied sub) =>
      let origin := if ks.length = 1 then .dotted else .implied
      (assign? v ks sub).map fun sub => es.replace k (.table origin sub)
    | some (.tables ts) =>
      match ts.getLast? with
      | none => none
      | some sub =>
        if ks.length = 1 then none
        else (assign? v ks sub).map fun sub => es.replace k (.tables (ts.dropLast ++ [sub]))
    | some _ => none

/-- Change the table at a path. Tables on the way are implied where they are
missing, and of repeated tables the last one is meant. -/
def updateAt? (f : Entries → Option Entries) : List Text → Entries → Option Entries
  | [], es => f es
  | k :: ks, es =>
    match get? es k with
    | none => (updateAt? f ks []).map fun sub => es ++ [(k, .table .implied sub)]
    | some (.table .inline _) => none
    | some (.table o sub) => (updateAt? f ks sub).map fun sub => es.replace k (.table o sub)
    | some (.tables ts) =>
      match ts.getLast? with
      | none => none
      | some sub =>
        (updateAt? f ks sub).map fun sub => es.replace k (.tables (ts.dropLast ++ [sub]))
    | some _ => none

/-- Introduce a table by its header. Only an implied table may be there. -/
def open? (k : Text) (es : Entries) : Option Entries :=
  match get? es k with
  | none => some (es ++ [(k, .table .header [])])
  | some (.table .implied sub) => some (es.replace k (.table .header sub))
  | some _ => none

/-- Introduce one more of several tables with the same header. -/
def openNext? (k : Text) (es : Entries) : Option Entries :=
  match get? es k with
  | none => some (es ++ [(k, .tables [[]])])
  | some (.tables ts) => some (es.replace k (.tables (ts ++ [[]])))
  | some _ => none

end Entries
end MemberOrder.Toml
