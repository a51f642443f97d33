import Mathlib.Algebra.Ring.Int.Defs
import Mathlib.Data.List.TakeWhile
import MemberOrder.Proofs.Partition

/-! # The depth as a sum

The depth is carried along from run to run. It can be said at once: in front of
a line it is the sum of what the lines before it change, from the first
declaration on, whatever runs these lines belong to. -/

namespace MemberOrder

namespace Shape

/-- The depth in front of line `i`, counted from line `first` on: the sum of
the changes from line `first` up to, and without, line `i`. -/
def depthBefore (shapes : List Shape) (first i : Nat) : Int :=
  (((shapes.take i).drop first).map delta).sum

/-- Nothing is counted up to the first line. -/
theorem depthBefore_self (shapes : List Shape) (i : Nat) : depthBefore shapes i i = 0 := by
  rw [depthBefore, List.drop_eq_nil_of_le (List.length_take_le i shapes)]
  rfl

/-- A stretch of lines changes the depth by the sum of their changes. -/
theorem depthBefore_append (before stretch after : List Shape) (first : Nat)
    (h : first ≤ before.length) :
    depthBefore (before ++ (stretch ++ after)) first (before.length + stretch.length) =
      depthBefore (before ++ (stretch ++ after)) first before.length +
        (stretch.map delta).sum := by
  -- Up to the end of the stretch, what is counted is the part before it and the stretch.
  have hthrough : (before ++ (stretch ++ after)).take (before.length + stretch.length) =
      before ++ stretch := by
    rw [← List.append_assoc, ← List.length_append]
    exact List.take_left
  rw [depthBefore, depthBefore, hthrough, List.take_left, List.drop_append_of_le_length h,
    List.map_append, List.sum_append]

end Shape

/-- What a stretch of lines of a source adds to the depth. -/
theorem ShapedLine.depthBefore_stretch {counting : BraceCounting} {source : Text}
    {before stretch after : List ShapedLine}
    (h : ofSource counting source = before ++ (stretch ++ after)) {first : Nat}
    (hfirst : first ≤ before.length) :
    Shape.depthBefore (Shape.scanAll counting false source.lines) first
        (before.length + stretch.length) =
      Shape.depthBefore (Shape.scanAll counting false source.lines) first before.length +
        ((stretch.map (·.shape)).map Shape.delta).sum := by
  have hadd := Shape.depthBefore_append (before.map (·.shape)) (stretch.map (·.shape))
    (after.map (·.shape)) first (by rwa [List.length_map])
  rw [← List.map_append, ← List.map_append, ← h, map_shape_ofSource, List.length_map,
    List.length_map] at hadd
  exact hadd

namespace Run

/-- A run changes the depth by the sum over its lines. -/
theorem delta_eq_sum (r : Run) : r.delta = ((r.lines.map (·.shape)).map Shape.delta).sum := by
  rw [List.map_map, List.sum_eq_foldr, List.foldr_map]
  rfl

variable {counting : BraceCounting} {source : Text} {before after : List Run} {r : Run}

/-- What a run adds to the depth. -/
theorem depthBefore_run (h : ofSource counting source = before ++ r :: after) {first : Nat}
    (hfirst : first ≤ (before.flatMap lines).length) :
    Shape.depthBefore (Shape.scanAll counting false source.lines) first
        ((before ++ [r]).flatMap lines).length =
      Shape.depthBefore (Shape.scanAll counting false source.lines) first
        (before.flatMap lines).length + r.delta := by
  rw [List.flatMap_append, List.length_append, List.flatMap_singleton, delta_eq_sum]
  exact ShapedLine.depthBefore_stretch (ofSource_split h) hfirst

/-- Some run is the first declaration, or none is one. -/
theorem exists_first_or_forall (rs : List Run) :
    (∃ before r after, rs = before ++ r :: after ∧ (∀ q ∈ before, q.isDeclaration = false) ∧
        r.isDeclaration = true) ∨
      ∀ q ∈ rs, q.isDeclaration = false := by
  -- The first declaration is what a search from the left finds.
  cases hfind : rs.find? isDeclaration with
  | some r =>
    obtain ⟨hr, before, after, hsplit, hbefore⟩ := List.find?_eq_some_iff_append.mp hfind
    refine .inl ⟨before, r, after, hsplit, ?_, hr⟩
    intro q hq
    simpa using hbefore q hq
  | none =>
    refine .inr ?_
    intro q hq
    simpa using List.find?_eq_none.mp hfind q hq

/-- The body starts with the first declaration. -/
theorem body_append (hbefore : ∀ q ∈ before, q.isDeclaration = false)
    (hr : r.isDeclaration = true) : body (before ++ r :: after) = r :: after := by
  rw [body, List.dropWhile_append_of_pos, List.dropWhile_cons_of_neg]
  · simp [hr]
  · intro q hq
    simp [hbefore q hq]

/-- The first declaration is the first run that is one. -/
theorem firstDeclaration?_append (hbefore : ∀ q ∈ before, q.isDeclaration = false)
    (hr : r.isDeclaration = true) :
    firstDeclaration? (before ++ r :: after) = some r.opener.line := by
  rw [firstDeclaration?, body_append hbefore hr, List.head?_cons, Option.map_some]

/-- Without a declaration there is no body. -/
theorem body_eq_nil {rs : List Run} (h : ∀ q ∈ rs, q.isDeclaration = false) : body rs = [] := by
  rw [body, List.dropWhile_eq_nil_iff]
  intro q hq
  simp [h q hq]

/-- What runs change in all is the sum over all their lines. -/
theorem foldr_delta_eq_sum (rs : List Run) :
    rs.foldr (fun r d => r.delta + d) 0 =
      (((rs.flatMap lines).map (·.shape)).map Shape.delta).sum := by
  induction rs with
  | nil => rfl
  | cons r rs ih =>
    rw [List.foldr_cons, ih, delta_eq_sum, List.flatMap_cons, List.map_append, List.map_append,
      List.sum_append]

/-- The depth behind the last line is the sum from the first declaration on. -/
theorem finalDepth_eq (h : ofSource counting source = before ++ r :: after)
    (hbefore : ∀ q ∈ before, q.isDeclaration = false) (hr : r.isDeclaration = true) :
    finalDepth (ofSource counting source) =
      Shape.depthBefore (Shape.scanAll counting false source.lines) r.opener.line.index
        source.lines.length := by
  have hshapes : Shape.scanAll counting false source.lines =
      (before.flatMap lines).map (·.shape) ++ ((r :: after).flatMap lines).map (·.shape) := by
    rw [← ShapedLine.map_shape_ofSource, ofSource_split h, List.map_append]
    rfl
  -- All lines are counted, so nothing is cut off at the end.
  have hall : (Shape.scanAll counting false source.lines).take source.lines.length =
      Shape.scanAll counting false source.lines :=
    List.take_of_length_le (Nat.le_of_eq (Shape.length_scanAll ..))
  rw [Shape.depthBefore, hall, hshapes, index_opener h, List.drop_left' (List.length_map ..), h,
    finalDepth, body_append hbefore hr, foldr_delta_eq_sum]

end Run
end MemberOrder
