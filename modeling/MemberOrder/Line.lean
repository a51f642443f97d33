import MemberOrder.Span
import MemberOrder.Text.Blank

/-! # Source lines

A source is read line by line. Each line knows its position in the source,
counted in lines and in bytes, so that a warning can point at it after the
lines have been moved around (`SourceLine`). -/

namespace MemberOrder

/-- A line of a source: how many lines and how many bytes stand before it,
and its characters without the line feed. -/
structure Line where
  index : Nat
  offset : Nat
  text : Text
deriving DecidableEq, Repr

namespace Line

/-- The text of the line without the blanks around it. -/
def stripped (l : Line) : Text := l.text.trim

/-- The bytes of the line, its line feed excluded. -/
def span (l : Line) : Span := ⟨l.offset, l.offset + l.text.byteLength⟩

/-- Number lines that start at the given index and byte offset. One byte, the
line feed, stands between two lines. -/
def number (index offset : Nat) : List Text → List Line
  | [] => []
  | t :: ts => ⟨index, offset, t⟩ :: number (index + 1) (offset + t.byteLength + 1) ts

@[simp] theorem map_text_number (i o : Nat) (ts : List Text) :
    (number i o ts).map text = ts := by
  induction ts generalizing i o with
  | nil => rfl
  | cons t ts ih => simp [number, ih]

@[simp] theorem length_number (i o : Nat) (ts : List Text) :
    (number i o ts).length = ts.length := by
  induction ts generalizing i o with
  | nil => rfl
  | cons t ts ih => simp [number, ih]

/-- The lines of a source, in order. -/
def ofSource (source : Text) : List Line := number 0 0 source.lines

end Line
end MemberOrder
