import MemberOrder.Construct.Visibility
import MemberOrder.Proofs.Reading

/-! # Visibility in the joined lines

The lines of a function are searched one by one for a visibility. What comes out
depends on which words stand on some line and on nothing else (`functionSection_eq`).
No visibility holds a line feed, so the words on the lines are the words in the text
that the lines form (`visibility_infix_unlines_iff`), and it makes no difference which
of the two is searched. -/

namespace MemberOrder

/-- The section of a function in which the given words occur: the one of the first
visibility among them. Without any of the four the function is public. -/
def firstVisibility (Occurs : Text → Prop) [DecidablePred Occurs] : Section :=
  if Occurs "external" then .externalFunctions
  else if Occurs "public" then .publicFunctions
  else if Occurs "internal" then .internalFunctions
  else if Occurs "private" then .privateFunctions
  else .publicFunctions

/-- Only the four words matter. -/
theorem firstVisibility_congr {P Q : Text → Prop} [DecidablePred P] [DecidablePred Q]
    (h : ∀ v ∈ visibilities, P v.1 ↔ Q v.1) : firstVisibility P = firstVisibility Q := by
  simp only [visibilities, List.forall_mem_cons] at h
  rcases h with ⟨hexternal, hpublic, hinternal, hprivate, -⟩
  simp only [firstVisibility, hexternal, hpublic, hinternal, hprivate]

/-- A visibility is found if it stands on some line. -/
theorem functionSection_eq (ts : List Text) :
    functionSection ts = firstVisibility fun word => ∃ t ∈ ts, word <:+: t := by
  have hany : ∀ word, ts.any (Text.mentions word) = decide (∃ t ∈ ts, word <:+: t) := by
    intro word
    rw [Bool.eq_iff_iff, List.any_eq_true, decide_eq_true_iff]
    simp only [Text.mentions_iff]
  simp only [functionSection, visibilities, hany, List.find?_cons, List.find?_nil, firstVisibility]
  -- The words are looked for in the order in which the section is decided.
  split_ifs with hexternal hpublic hinternal hprivate
  all_goals simp only [*, decide_true, decide_false]

/-- A visibility stands in the joined lines if it stands on one of them. -/
theorem visibility_infix_unlines_iff {v : Text × Section} (hv : v ∈ visibilities)
    (ts : List Text) : v.1 <:+: Text.unlines ts ↔ ∃ t ∈ ts, v.1 <:+: t :=
  Text.infix_unlines_iff (not_lineFeed_of_visibility v hv) (ne_nil_of_visibility v hv)

theorem functionSection_of_perm {ts us : List Text} (h : us.Perm ts) :
    functionSection us = functionSection ts := by
  rw [functionSection_eq, functionSection_eq]
  refine firstVisibility_congr fun v _ => ?_
  simp only [h.mem_iff]

/-- **The visibility of a function is the one of its joined lines.** The section of a
function is given by the first of the four words that occurs in the text of all its
lines. The order of the lines does not matter. A word occurs in this text where it
occurs on a line and nowhere else, so one that stands whole on no line, such as one
that a line break divides, does not count: the section is given by the other words. -/
theorem visibility_of_joined_lines (ts : List Text) :
    functionSection ts = firstVisibility (· <:+: Text.unlines ts) ∧
      (∀ us, us.Perm ts → functionSection us = functionSection ts) ∧
      (∀ v ∈ visibilities, ∀ l r, Text.unlines ts = l ++ (v.1 ++ r) ↔
        ∃ before p q after, ts = before ++ (p ++ (v.1 ++ q)) :: after ∧
          l = Text.unlines (before ++ [p]) ∧ r = Text.unlines (q :: after)) ∧
      ∀ word, (∀ t ∈ ts, ¬ word <:+: t) →
        functionSection ts = firstVisibility fun w => w ≠ word ∧ w <:+: Text.unlines ts := by
  refine ⟨?_, ?_, ?_, ?_⟩
  · rw [functionSection_eq]
    exact firstVisibility_congr fun v hv => (visibility_infix_unlines_iff hv ts).symm
  · intro us hperm
    exact functionSection_of_perm hperm
  · intro v hv l r
    exact Text.unlines_eq_append_iff (not_lineFeed_of_visibility v hv) (ne_nil_of_visibility v hv)
  · intro word habsent
    rw [functionSection_eq]
    refine firstVisibility_congr fun v hv => ?_
    rw [visibility_infix_unlines_iff hv]
    -- A word that occurs on some line is not the absent one.
    constructor
    · rintro ⟨t, ht, hoccurs⟩
      refine ⟨?_, t, ht, hoccurs⟩
      rintro rfl
      exact habsent t ht hoccurs
    · rintro ⟨-, hoccurs⟩
      exact hoccurs

/-- A line break divides `external`, so the function is internal, also with its lines
upside down. Without the line breaks it would be external. -/
theorem visibility_of_joined_lines_divided_word :
    let ts := ["function f() exter", "nal view // internal", "  returns (uint);"].map String.toList
    (∀ t ∈ ts, ¬ "external".toList <:+: t) ∧ functionSection ts = .internalFunctions ∧
      functionSection ts.reverse = .internalFunctions ∧
      firstVisibility (· <:+: Text.concat ts) = .externalFunctions ∧
      ∃ before p q after, ts = before ++ (p ++ ("internal".toList ++ q)) :: after ∧
        "function f() exter\nnal view // ".toList = Text.unlines (before ++ [p]) ∧
        "\n  returns (uint);".toList = Text.unlines (q :: after) := by
  intro ts
  rcases visibility_of_joined_lines ts with ⟨-, horder, hplaces, hdivided⟩
  have habsent : ∀ t ∈ ts, ¬ "external".toList <:+: t := by decide +kernel
  have hinternal : functionSection ts = .internalFunctions := by
    rw [hdivided "external".toList habsent]
    decide +kernel
  refine ⟨habsent, hinternal, ?_, by decide +kernel, ?_⟩
  · rw [horder ts.reverse (List.reverse_perm ts), hinternal]
  · refine (hplaces ("internal".toList, .internalFunctions) (by decide) _ _).mp ?_
    decide +kernel

end MemberOrder
