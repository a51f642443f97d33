import MemberOrder.Shape.Basic
import MemberOrder.Text.Blank

/-! # Raw shapes -/

namespace MemberOrder.Shape

/-- The shape of a line when every character counts. -/
def ofRaw (t : Text) : Shape where
  opens := t.count '{'
  closes := t.count '}'
  terminated := t.trim.getLast? == some ';'

end MemberOrder.Shape
