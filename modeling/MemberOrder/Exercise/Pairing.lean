import MemberOrder.FileTree.Basic
import MemberOrder.NameSet

/-! # Exercises and their solutions

An exercise project has a number in front of its name. Its directory `src`
holds the files of the user, and `src/solution` holds the solutions. The
solution of `Vault.sol` is `VaultSolution.sol`. -/

namespace MemberOrder
namespace Exercise

/-- The file names that a solution may have, in the order in which they are
looked for. -/
def candidates (user : Path) : List Text :=
  match user.stem?, user.fileName? with
  | some stem, some name => [
      stem ++ "Solution.sol".toList,
      Text.replaceAll "Solution" "" stem ++ "Solution.sol".toList,
      Text.replaceAll ".sol" "Solution.sol" name]
  | _, _ => []

/-- The solution of a user file, if the directory has one. -/
def solution? (t : FileTree) (user directory : Path) : Option Path :=
  ((candidates user).map directory.join).find? t.has

/-- Names in ascending order. -/
def sorted (names : List Text) : List Text := (NameSet.ofList names).toList

def isNumbered (name : Text) : Bool := name.head?.any Char.isDigit

/-- Whether a file name is that of a solution, in whatever case. No character
outside ASCII has a lower case form that can stand in the word. -/
def namesSolution (name : Text) : Bool := Text.mentions "solution" (name.map Char.toLower)

/-- The numbered directories under a root. -/
def projects (t : FileTree) (root : Path) : Except AccessError (List Path) := do
  let names ← t.list root
  let numbered := names.filter fun n => isNumbered n && t.isDirectory (root.join n)
  return (sorted numbered).map root.join

/-- The files of the user in a directory. -/
def userFiles (t : FileTree) (src : Path) : Except AccessError (List Path) := do
  let names ← t.list src
  let files := names.filter fun n =>
    t.isFile (src.join n) && (Path.splitExtension n).2 == some "sol".toList && !namesSolution n
  return (sorted files).map src.join

end Exercise
end MemberOrder
