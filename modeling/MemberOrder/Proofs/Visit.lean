import MemberOrder.Proofs.Depth
import MemberOrder.Proofs.Segmentation

/-! # The depth at each visit

A visit records the depth behind the first line of a run. The depth is carried
along: it moves with the first line, then with the lines that the construct
takes, and it starts to move with the first declaration. What is recorded can be
said for each line by itself: nothing before the first declaration, and from
there on the sum of what all lines so far change, whichever runs they belong to
(`visits_record_depth`). -/

namespace MemberOrder

namespace Shape

/-- The depth behind line `i`: zero before the first declaration, or without
one, and otherwise the sum of the changes from the first declaration to
line `i`. -/
def depthBehind (shapes : List Shape) (first? : Option Nat) (i : Nat) : Int :=
  match first? with
  | none => 0
  | some first => if i < first then 0 else depthBefore shapes first (i + 1)

/-- The shape of a line depends on the line and on whether the lines before it
leave a comment open. -/
theorem getElem?_scanAll (counting : BraceCounting) (inComment : Bool) (ts : List Text) (j : Nat) :
    (scanAll counting inComment ts)[j]? =
      ts[j]?.map fun t => (scan counting (commentAfter counting inComment (ts.take j)) t).1 := by
  induction ts generalizing inComment j with
  | nil => rfl
  | cons t ts ih =>
    cases j with
    | zero => rfl
    | succ j => exact ih _ j

end Shape

/-- The line on which the first declaration starts. -/
def Segment.firstDeclared? (segs : List Segment) : Option Nat :=
  (segs.find? isDeclaration).map start

namespace Run

variable {counting : BraceCounting} {source : Text} {before after done : List Run} {r : Run}

/-- Runs come in the order of their first lines. -/
theorem index_opener_lt (h : ofSource counting source = before ++ r :: after) {q : Run}
    (hq : q ∈ before) : q.opener.line.index < r.opener.line.index := by
  rcases List.append_of_mem hq with ⟨earlier, between, rfl⟩
  rw [index_opener h]
  rw [List.append_assoc, List.cons_append] at h
  rw [index_opener h, List.flatMap_append, List.flatMap_cons, List.length_append,
    List.length_append, lines, List.length_cons]
  omega

/-- What the first line of a run adds to the depth. -/
theorem depthBefore_opener (h : ofSource counting source = before ++ r :: after) {first : Nat}
    (hfirst : first ≤ r.opener.line.index) :
    Shape.depthBefore (Shape.scanAll counting false source.lines) first
        (r.opener.line.index + 1) =
      Shape.depthBefore (Shape.scanAll counting false source.lines) first r.opener.line.index +
        r.opener.shape.delta := by
  have hsplit : ShapedLine.ofSource counting source =
      before.flatMap lines ++ ([r.opener] ++ (r.rest ++ after.flatMap lines)) := ofSource_split h
  rw [index_opener h] at hfirst ⊢
  simpa using ShapedLine.depthBefore_stretch hsplit hfirst

/-- A declaration is counted as if it stood inside a body. -/
theorem visitsFrom_of_isDeclaration (hr : r.isDeclaration = true) (depth : Int) (rs : List Run) :
    visitsFrom false depth (r :: rs) = visitsFrom true depth (r :: rs) := by
  simp only [visitsFrom, hr, Bool.or_true]

/-- Runs before the first declaration leave the depth as it is. -/
theorem visitsFrom_append (hbefore : ∀ q ∈ before, q.isDeclaration = false) (depth : Int)
    (rs : List Run) :
    visitsFrom false depth (before ++ rs) =
      before.map (fun q => ⟨q.opener.line.index, depth, q.construct?⟩) ++
        visitsFrom false depth rs := by
  induction before with
  | nil => rfl
  | cons q before ih =>
    have hq := hbefore q List.mem_cons_self
    have hrest := ih fun p hp => hbefore p (List.mem_cons_of_mem _ hp)
    simp [visitsFrom, hq, hrest]

/-- From the first declaration on. The depth that is carried along is the sum up
to the next line. -/
theorem visitsFrom_true {first : Nat} {rs : List Run} (h : ofSource counting source = done ++ rs)
    (hfirst : first ≤ (done.flatMap lines).length) :
    visitsFrom true (Shape.depthBefore (Shape.scanAll counting false source.lines) first
        (done.flatMap lines).length) rs =
      rs.map fun r => ⟨r.opener.line.index,
        Shape.depthBefore (Shape.scanAll counting false source.lines) first
          (r.opener.line.index + 1), r.construct?⟩ := by
  induction rs generalizing done with
  | nil => rfl
  | cons r rs ih =>
    have hindex := index_opener h
    -- The run moves the depth from the place in front of it to the place behind it.
    have hrest := @ih (done ++ [r]) (by simpa using h) (by
      rw [List.flatMap_append, List.length_append]
      omega)
    rw [depthBefore_run h hfirst] at hrest
    rw [List.map_cons, ← hrest, depthBefore_opener h (by omega), hindex]
    simp only [visitsFrom, Bool.true_or, if_true, hindex]

/-- The visits of a source in which `r` is the first declaration. -/
theorem visits_of_first (h : ofSource counting source = before ++ r :: after)
    (hbefore : ∀ q ∈ before, q.isDeclaration = false) (hr : r.isDeclaration = true) :
    visits (ofSource counting source) =
      (ofSource counting source).map fun q => ⟨q.opener.line.index,
        Shape.depthBehind (Shape.scanAll counting false source.lines)
          (some r.opener.line.index) q.opener.line.index, q.construct?⟩ := by
  have hindex := index_opener h
  have hbehind := visitsFrom_true h (Nat.le_of_eq hindex)
  rw [← hindex, Shape.depthBefore_self] at hbehind
  unfold visits
  rw [h, visitsFrom_append hbefore, visitsFrom_of_isDeclaration hr, hbehind, List.map_append]
  -- Runs before the declaration are recorded with depth zero, all others with the sum.
  congr 1
  · apply List.map_congr_left
    intro q hq
    simp only [Shape.depthBehind, if_pos (index_opener_lt h hq)]
  · apply List.map_congr_left
    intro q hq
    have hlater : ¬ q.opener.line.index < r.opener.line.index := by
      -- The first declaration itself, or a run behind it.
      rcases List.mem_cons.mp hq with rfl | hq
      · omega
      · rcases List.append_of_mem hq with ⟨between, later, rfl⟩
        rw [← List.cons_append, ← List.append_assoc] at h
        have hlt := index_opener_lt h (q := r) (by simp)
        omega
    simp only [Shape.depthBehind, if_neg hlater]

/-- The first segment that declares something is that of the first such run. -/
theorem firstDeclared?_map_segment (rs : List Run) :
    Segment.firstDeclared? (rs.map segment) =
      (rs.find? isDeclaration).map fun r => r.opener.line.index := by
  unfold Segment.firstDeclared?
  rw [List.find?_map, Option.map_map]
  rfl

/-- The visits of a source, each with the depth behind its line. -/
theorem visits_ofSource (counting : BraceCounting) (source : Text) :
    visits (ofSource counting source) =
      ((ofSource counting source).map segment).map fun s => ⟨s.start,
        Shape.depthBehind (Shape.scanAll counting false source.lines)
          (Segment.firstDeclared? ((ofSource counting source).map segment)) s.start,
        s.construct?⟩ := by
  rw [firstDeclared?_map_segment, List.map_map]
  -- With a declaration the depth is counted from it on; without one it stays zero.
  rcases exists_first_or_forall (ofSource counting source) with
    ⟨before, r, after, h, hbefore, hr⟩ | hnone
  · have hfind : (ofSource counting source).find? isDeclaration = some r := by
      rw [List.find?_eq_some_iff_append]
      refine ⟨hr, before, after, h, ?_⟩
      intro q hq
      simp [hbefore q hq]
    rw [hfind, visits_of_first h hbefore hr]
    rfl
  · have hfind : (ofSource counting source).find? isDeclaration = none := by
      rw [List.find?_eq_none]
      intro q hq
      simp [hnone q hq]
    have hvisits := visitsFrom_append hnone 0 []
    rw [List.append_nil] at hvisits
    rw [hfind, visits, hvisits]
    exact List.append_nil _

end Run

/-- **The depth accounts for every line.** The lines have exactly one
segmentation, and there is one visit for each segment, on its first line. The
depth that is recorded there is zero before the first declaration, and from it
on the sum of what the lines change from the first declaration up to and with
this one. The shapes are those of one scan over all lines: each line is scanned
with the comment state that all lines before it leave. -/
theorem visits_record_depth (counting : BraceCounting) (source : Text) :
    let c := Classification.ofSource counting source
    let shapes := Shape.scanAll counting false source.lines
    ∃ segs, IsSegmentation source.lines shapes segs ∧
      (∀ other, IsSegmentation source.lines shapes other → other = segs) ∧
      c.visits = segs.map (fun s =>
        ⟨s.start, Shape.depthBehind shapes (Segment.firstDeclared? segs) s.start, s.construct?⟩) ∧
      ∀ j t, source.lines[j]? = some t →
        shapes[j]? = some (Shape.scan counting
          (Shape.commentAfter counting false (source.lines.take j)) t).1 := by
  intro c shapes
  have hsegs := Run.isSegmentation_ofSource counting source
  refine ⟨(Run.ofSource counting source).map Run.segment, hsegs, ?_, ?_, ?_⟩
  · intro other hother
    exact hsegs.unique hother
  · rw [← Run.visits_ofSource, ← Classification.visits_ofSource]
  · intro j t ht
    rw [Shape.getElem?_scanAll, ht]
    rfl

end MemberOrder
