import MemberOrder.Classification

/-! # Reordering

A reordered file shows its sections in canonical order, with one empty line
behind each section. Lines that belong nowhere come last and are followed by
nothing. -/

namespace MemberOrder

namespace Grouping

/-- The lines of a section as they are written. -/
def written (e : Section × List Line) : List Text :=
  e.2.map (·.text) ++ if e.1 = .uncategorized then [] else [[]]

/-- The lines of the reordered file. -/
def arranged (g : Grouping) : List Text := g.canonical.flatMap written

/-- The text of the reordered file. -/
def render (g : Grouping) : Text := Text.unlines g.arranged

end Grouping

/-- Order the members of a source. -/
def reorder (counting : BraceCounting) (source : Text) : Text :=
  (Classification.ofSource counting source).grouping.render

end MemberOrder
