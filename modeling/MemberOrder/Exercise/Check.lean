import MemberOrder.Exercise.Pairing
import MemberOrder.Exercise.Report
import MemberOrder.Failure

/-! # Checking exercises

The projects under a root are checked one after another, and in each of them
every user file with a solution is compared with it. The check stops at the first
file or directory that cannot be read; what was found before stands. -/

namespace MemberOrder
namespace Exercise

/-- The names that a file declares. A file that is not there declares
nothing. -/
def roster (t : FileTree) (denied : Roster) (p : Path) : Except AccessError Roster :=
  if t.has p then (t.read p).map (Roster.ofSource denied) else .ok .empty

/-- The names that a user file declares and its solution lacks. -/
def compare (t : FileTree) (denied : Roster) (user solution : Path) :
    Except AccessError Roster := do
  let declared ← roster t denied user
  let solved ← roster t denied solution
  return declared.diff solved

/-- What a check found, and why it stopped early if it did. -/
structure Findings where
  mismatches : List Mismatch := []
  failure? : Option Failure := none
deriving DecidableEq, Repr

namespace Findings

def stopped (e : AccessError) : Findings := { failure? := some (.ofAccess e) }

/-- What was found, together with what was found later. There is no later for a
check that stopped. -/
def andThen (found later : Findings) : Findings :=
  match found.failure? with
  | some _ => found
  | none => ⟨found.mismatches ++ later.mismatches, later.failure?⟩

/-- Check one thing after another. -/
def inOrder {α : Type} (check : α → Findings) : List α → Findings
  | [] => {}
  | a :: as => (check a).andThen (inOrder check as)

end Findings

/-- Compare a user file with its solution. -/
def comparePair (t : FileTree) (denied : Roster) (root : Path) (pair : Path × Path) : Findings :=
  match compare t denied pair.1 pair.2 with
  | .error e => .stopped e
  | .ok missing =>
    if missing.isEmpty then {} else { mismatches := [⟨pair.1.relativeTo root, missing⟩] }

/-- Check a user file. One without a solution is skipped. -/
def checkFile (t : FileTree) (denied : Roster) (root solutions user : Path) : Findings :=
  match solution? t user solutions with
  | some solution => comparePair t denied root (user, solution)
  | none => {}

/-- Check the user files of a project. One without solutions is skipped. -/
def checkProject (t : FileTree) (denied : Roster) (root project : Path) : Findings :=
  let src := project.join "src"
  let solutions := src.join "solution"
  if t.isDirectory src && t.isDirectory solutions then
    match userFiles t src with
    | .error e => .stopped e
    | .ok users => .inOrder (checkFile t denied root solutions) users
  else {}

/-- Check the projects under a root as far as possible. -/
def findings (t : FileTree) (denied : Roster) (root : Path) : Findings :=
  if t.has root then
    match projects t root with
    | .error e => .stopped e
    | .ok ps => .inOrder (checkProject t denied root) ps
  else { failure? := some (.rootNotFound root) }

/-- The report of a check that reached its end. -/
def Findings.result (found : Findings) : Except Failure Report :=
  match found.failure? with
  | some f => .error f
  | none => .ok ⟨found.mismatches⟩

/-- Check the projects under a root. -/
def check (t : FileTree) (denied : Roster) (root : Path) : Except Failure Report :=
  (findings t denied root).result

end Exercise
end MemberOrder
