import MemberOrder.Run.Basic

/-! # Depth

The depth counts the braces that are open. It starts with zero at the first
declaration; lines before it do not change it. Here it is followed run by run. -/

namespace MemberOrder
namespace Run

/-- What is seen at the first line of a run: its index, the depth behind it
and the construct that it opens. -/
structure Visit where
  index : Nat
  depth : Int
  construct? : Option Construct
deriving DecidableEq, Repr

/-- The visits of consecutive runs, from a given depth on. -/
def visitsFrom (inside : Bool) (depth : Int) : List Run → List Visit
  | [] => []
  | r :: rs =>
    let inside := inside || r.isDeclaration
    let visit depth : Visit := ⟨r.opener.line.index, depth, r.construct?⟩
    if inside then
      visit (depth + r.opener.shape.delta) :: visitsFrom true (depth + r.delta) rs
    else visit depth :: visitsFrom false depth rs

/-- The visits of all runs of a file. -/
def visits (rs : List Run) : List Visit := visitsFrom false 0 rs

/-- The runs from the first declaration on. -/
def body (rs : List Run) : List Run := rs.dropWhile fun r => !r.isDeclaration

/-- The line of the first declaration. -/
def firstDeclaration? (rs : List Run) : Option Line := (body rs).head?.map fun r => r.opener.line

/-- The depth behind the last line. -/
def finalDepth (rs : List Run) : Int := (body rs).foldr (fun r d => r.delta + d) 0

end Run
end MemberOrder
