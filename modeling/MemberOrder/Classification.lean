import MemberOrder.Pass

/-! # Classification of a source

What comes of a pass over the lines of a source: the lines grouped by section,
what was seen on the way, and what to warn about. -/

namespace MemberOrder

/-- The outcome of classifying a source. -/
structure Classification where
  /-- The lines of the source, grouped by section. -/
  grouping : Grouping
  /-- The lines on which a construct was looked for, each with the depth behind it. -/
  visits : List Run.Visit
  warnings : List Warning
deriving DecidableEq, Repr

/-- Classify a source. This cannot fail. -/
def Classification.ofSource (counting : BraceCounting) (source : Text) : Classification :=
  let s := Pass.ofSource counting source
  ⟨s.grouping, s.visits, s.warnings⟩

end MemberOrder
