/-! # Ranges of characters

A character class is a list of ranges of code points. -/

namespace MemberOrder

/-- The first and the last code point of a range. -/
abbrev CharRange := Nat × Nat

/-- Whether a character lies in one of the ranges. -/
def inRanges (ranges : List CharRange) (c : Char) : Bool :=
  ranges.any fun r => r.1 ≤ c.toNat && c.toNat ≤ r.2

theorem inRanges_iff {ranges : List CharRange} {c : Char} :
    inRanges ranges c = true ↔ ∃ r ∈ ranges, r.1 ≤ c.toNat ∧ c.toNat ≤ r.2 := by
  simp [inRanges]

end MemberOrder
