import MemberOrder.Text.Basic

/-! # Byte ranges -/

namespace MemberOrder

/-- The bytes of a source from `start` up to, and without, `stop`. -/
structure Span where
  start : Nat
  stop : Nat
deriving DecidableEq, Repr

namespace Span

def length (s : Span) : Nat := s.stop - s.start

def isEmpty (s : Span) : Bool := s.start == s.stop

/-- The smallest range around two ranges. -/
def union (s t : Span) : Span := ⟨min s.start t.start, max s.stop t.stop⟩

/-- The two ends with two dots between them. -/
def text (s : Span) : Text := .concat [.ofNat s.start, "..", .ofNat s.stop]

end Span
end MemberOrder
