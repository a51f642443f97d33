/-! # The shape of a line

To find where a construct ends it is enough to know three facts about each
line: how many braces it opens, how many it closes, and whether it ends a
statement. These are the facts in a `LineScan`. -/

namespace MemberOrder

/-- How braces and statement ends are recognised. -/
inductive BraceCounting where
  /-- Every brace counts, wherever it stands. -/
  | raw
  /-- Braces in literals and comments do not count. -/
  | lexical
deriving DecidableEq, Repr

/-- What a line contributes to the structure of the file. -/
structure Shape where
  opens : Nat
  closes : Nat
  terminated : Bool
deriving DecidableEq, Repr

namespace Shape

/-- By how much the line changes the brace depth. -/
def delta (s : Shape) : Int := (s.opens : Int) - (s.closes : Int)

end Shape
end MemberOrder
