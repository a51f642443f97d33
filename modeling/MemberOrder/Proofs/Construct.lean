import MemberOrder.Construct.Opening
import MemberOrder.Construct.Visibility

/-! # What a line opens, inside a body and outside

Before the first declaration only three constructs are looked for. They come
first in the table, so a line that opens one of them opens it everywhere. -/

namespace MemberOrder
namespace Construct

/-- The constructs that are looked for everywhere, in the order of the table. -/
def outer : List Construct := [header, importing, declaration]

/-- The constructs that are looked for inside a body only. -/
def inner : List Construct := [
  enumeration, struct, customError, event, modifier, constructor, receiveOrFallback, function,
  constant, immutable, stateVariable]

theorem priority_eq : priority = outer ++ inner := rfl

/-- The first part of the table is looked for everywhere. -/
theorem standsOutside_of_mem_outer {c : Construct} (h : c ∈ outer) : c.standsOutside = true := by
  revert c
  decide

/-- The second part of the table is looked for inside a body only. -/
theorem not_standsOutside_of_mem_inner {c : Construct} (h : c ∈ inner) :
    c.standsOutside = false := by
  revert c
  decide

/-- Inside a body the outer constructs are tried before the inner ones. -/
theorem first?_true (t : Text) :
    first? true t = (outer.find? fun c => c.opens t).or (inner.find? fun c => c.opens t) := by
  rw [first?, firstIn?, priority_eq, List.find?_append]
  rfl

/-- Before the first declaration only the outer constructs are tried. -/
theorem first?_false (t : Text) : first? false t = outer.find? fun c => c.opens t := by
  have hinner : inner.find? (fun c => (false || c.standsOutside) && c.opens t) = none := by
    rw [List.find?_eq_none]
    intro c hc
    simp [not_standsOutside_of_mem_inner hc]
  rw [first?, firstIn?, priority_eq, List.find?_append, hinner, Option.or_none]
  rfl

theorem standsOutside_of_first?_false {t : Text} {c : Construct} (h : first? false t = some c) :
    c.standsOutside = true := by
  rw [first?_false] at h
  exact standsOutside_of_mem_outer (List.mem_of_find?_eq_some h)

/-- A line that opens one of the constructs that are looked for everywhere
opens it inside a body and outside. -/
theorem first?_of_standsOutside {inside : Bool} {t : Text} {c : Construct}
    (h : first? inside t = some c) (hc : c.standsOutside = true) (inside' : Bool) :
    first? inside' t = some c := by
  have houter : outer.find? (fun c => c.opens t) = some c := by
    -- Inside a body the line might open an inner construct, but then only an inner one.
    cases inside with
    | false => rwa [first?_false] at h
    | true =>
      rw [first?_true, Option.or_eq_some_iff] at h
      rcases h with h | ⟨-, h⟩
      · exact h
      · have hinner := not_standsOutside_of_mem_inner (List.mem_of_find?_eq_some h)
        rw [hc] at hinner
        cases hinner
  cases inside' with
  | false => rw [first?_false, houter]
  | true => rw [first?_true, houter, Option.some_or]

/-- What is looked for everywhere is a single line. -/
theorem extent_of_standsOutside {c : Construct} (h : c.standsOutside = true) :
    c.extent = .line := by
  revert h
  cases c <;> decide

/-- Only a function has no section of its own. -/
theorem section?_eq_none_iff {c : Construct} : c.section? = none ↔ c = .function := by
  cases c <;> decide

/-- A function is a block, so a line or a statement always has a section. -/
theorem exists_section_of_extent {c : Construct} (h : c.extent ≠ .block) :
    ∃ sec, c.section? = some sec := by
  rw [← Option.ne_none_iff_exists']
  intro hnone
  rw [section?_eq_none_iff] at hnone
  rw [hnone] at h
  exact h rfl

/-- An empty line opens nothing. -/
theorem first?_nil (inside : Bool) : first? inside [] = none := by
  cases inside <;> decide +kernel

end Construct

/-- A function goes to one of the four sections of functions. -/
theorem holdsFunctions_functionSection (ts : List Text) :
    (functionSection ts).holdsFunctions = true := by
  have hvisible : ∀ v ∈ visibilities, v.2.holdsFunctions = true := by decide
  unfold functionSection
  -- Some visibility is mentioned, or the function counts as public.
  split
  · rename_i v s h
    exact hvisible _ (List.mem_of_find?_eq_some h)
  · rfl

end MemberOrder
