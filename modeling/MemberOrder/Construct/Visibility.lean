import MemberOrder.Section

/-! # Visibility of functions

A function has no section of its own. Its section is that of its visibility, which
is looked for on all its lines (`function_visibility`). -/

namespace MemberOrder

/-- The words for visibilities in the order in which they are looked for. -/
def visibilities : List (Text × Section) := [
  ("external", .externalFunctions), ("public", .publicFunctions),
  ("internal", .internalFunctions), ("private", .privateFunctions)]

theorem ne_nil_of_visibility : ∀ v ∈ visibilities, v.1 ≠ [] := by decide

theorem not_lineFeed_of_visibility : ∀ v ∈ visibilities, '\n' ∉ v.1 := by decide

/-- The section of a function with the given lines. A visibility counts
wherever it is mentioned, in the body too; a function without one is
public. -/
def functionSection (ts : List Text) : Section :=
  match visibilities.find? fun v => ts.any (Text.mentions v.1) with
  | some (_, s) => s
  | none => .publicFunctions

end MemberOrder
