import MemberOrder.Declared.Roster
import MemberOrder.FileTree.Path

/-! # Reports on exercises

A check ends with a report (`SolutionReport`): the files in which something is
missing (`SolutionMismatch`), or the good news that nothing is. -/

namespace MemberOrder

/-- A user file, seen from the project root, and the names that it declares
and its solution lacks. -/
structure Mismatch where
  file : Path
  missing : Roster
deriving DecidableEq, Repr

/-- What a check of exercises has found. -/
structure Report where
  mismatches : List Mismatch
deriving DecidableEq, Repr

namespace Report

def isClean (r : Report) : Bool := r.mismatches.isEmpty

/-- A line with the missing names of one kind; none if nothing is missing. -/
def nameLine (kind : Text) (names : NameSet) : Text :=
  if names.isEmpty then []
  else .concat ["    Missing ", kind, ": ", .join ", " names.toList, "\n"]

/-- The lines about one file. -/
def mismatchText (m : Mismatch) : Text :=
  .concat ["\n  ", m.file.text, "\n", nameLine "events" m.missing.events,
    nameLine "functions" m.missing.functions, nameLine "structs" m.missing.structs]

/-- The report for the user. -/
def text (r : Report) : Text :=
  if r.isClean then "All solution files match their user files!"
  else
    .concat ["Found ", .ofNat r.mismatches.length, " file(s) with mismatches:\n",
      .concat (r.mismatches.map mismatchText)]

end Report
end MemberOrder
