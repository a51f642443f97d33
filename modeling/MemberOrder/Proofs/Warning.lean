import MemberOrder.Proofs.Depth
import MemberOrder.Proofs.Segmentation

/-! # Warnings are exact

Warnings are raised on the way, run by run. What has to be reported can be said
without the way: from the lines, their shapes and their segmentation alone.

* The depth in front of a line is the sum of all changes since the first
  declaration; a line on which it falls below zero is reported, and so is every
  declaration but the first, line by line (`Finding.onLine`).
* At the end of the file, a construct that may end nowhere is reported or, if
  there is none, a body that is still open (`Finding.atEnd?`).

Classification reports exactly these findings, in this order
(`warnings_are_exact`). -/

namespace MemberOrder

/-! ## Findings -/

/-- What a diagnostic says and where: its code, its message and the spans that
its labels mark, each with whether the label is a primary one. -/
structure Finding where
  code? : Option WarningCode
  message : Text
  marks : List (Span × Bool)
deriving DecidableEq, Repr

def Diagnostic.finding (d : Diagnostic) : Finding :=
  ⟨d.code?, d.message, d.labels.map fun b => (b.span, b.isPrimary)⟩

namespace Shape

instance (shapes : List Shape) (j : Nat) : Decidable (TerminatedAt shapes j) :=
  decidable_of_iff (∃ s ∈ shapes[j]?, s.terminated = true) Iff.rfl

end Shape

instance (shapes : List Shape) (i j : Nat) : (e : Extent) → Decidable (e.EndsAt shapes i j)
  | .line => inferInstanceAs (Decidable (j = i))
  | .statement => inferInstanceAs (Decidable (Shape.TerminatedAt shapes j))
  | .block => inferInstanceAs (Decidable (_ ∧ _ ∨ _ ∧ _))

namespace Segment

/-- The construct of the segment may end nowhere up to the end of the file. -/
def Unended (shapes : List Shape) (s : Segment) : Prop :=
  ∀ k < shapes.length, s.start ≤ k → ¬ (Run.extentOf s.construct?).EndsAt shapes s.start k

instance (shapes : List Shape) (s : Segment) : Decidable (s.Unended shapes) :=
  inferInstanceAs (Decidable (∀ k < shapes.length, _))

/-- The lines on which declarations start. -/
def declared (lines : List Line) (segs : List Segment) : List Line :=
  segs.filterMap fun s => if s.isDeclaration then lines[s.start]? else none

/-- The construct that runs into the end of the file, with its first line. -/
def unended? (lines : List Line) (shapes : List Shape) (segs : List Segment) :
    Option (Construct × Line) := do
  let s ← segs.getLast?
  let c ← s.construct?
  let opener ← lines[s.start]?
  if s.Unended shapes then some (c, opener) else none

end Segment

namespace Finding

def closesNothing (l : Line) : Finding :=
  ⟨some .W002, "closing brace without a matching opening brace", [(l.span, true)]⟩

def declaresAgain (l first : Line) : Finding :=
  ⟨some .W003, "more than one top-level declaration in this file",
    [(l.span, true), (first.span, false)]⟩

def neverEnds (c : Construct) (opener : Line) : Finding :=
  ⟨some .W001,
    .concat ["unterminated `", c.keyword, if c.extent = .block then "` block" else "` declaration"],
    [(opener.span, true)]⟩

def bodyNeverCloses (first : Line) : Finding :=
  ⟨some .W001, "contract body is never closed", [(first.span, true)]⟩

/-- On a line from the first declaration on, the depth falls from zero or above
to below zero. -/
def ofDepth (shapes : List Shape) (first l : Line) : List Finding :=
  if first.index ≤ l.index ∧ 0 ≤ Shape.depthBefore shapes first.index l.index ∧
      Shape.depthBefore shapes first.index (l.index + 1) < 0 then [closesNothing l]
  else []

/-- A line declares something and is not the first to do so. -/
def ofDeclaration (first : Line) (declared : List Line) (l : Line) : List Finding :=
  if l ∈ declared ∧ l ≠ first then [declaresAgain l first] else []

/-- What has to be found on a line. -/
def onLine (shapes : List Shape) (first : Line) (declared : List Line) (l : Line) : List Finding :=
  ofDepth shapes first l ++ ofDeclaration first declared l

/-- What has to be found line by line, given the lines that declare
something. -/
def inBody (lines : List Line) (shapes : List Shape) (declared : List Line) : List Finding :=
  match declared.head? with
  | none => []
  | some first => lines.flatMap (onLine shapes first declared)

/-- The body that the first declaration starts is still open at the end of the
file. -/
def openBody? (lines : List Line) (shapes : List Shape) (declared : List Line) : Option Finding :=
  match declared.head? with
  | none => none
  | some first =>
    if 0 < Shape.depthBefore shapes first.index lines.length then some (bodyNeverCloses first)
    else none

/-- What has to be found at the end of the file: a construct that runs into it
or, failing that, a body that is still open. -/
def atEnd? (lines : List Line) (shapes : List Shape) (segs : List Segment) : Option Finding :=
  match Segment.unended? lines shapes segs with
  | some (c, opener) => some (neverEnds c opener)
  | none => openBody? lines shapes (Segment.declared lines segs)

/-- All that has to be found in a file. -/
def all (lines : List Line) (shapes : List Shape) (segs : List Segment) : List Finding :=
  inBody lines shapes (Segment.declared lines segs) ++ (atEnd? lines shapes segs).toList

end Finding

/-- What a warning says. -/
def Warning.finding (w : Warning) : Finding := w.diagnostic.finding

namespace Warning

@[simp] theorem finding_closesNothing (l : Line) :
    (closesNothing l).finding = .closesNothing l := rfl

@[simp] theorem finding_declaresAgain (l first : Line) :
    (declaresAgain l first).finding = .declaresAgain l first := rfl

@[simp] theorem finding_bodyNeverCloses (first : Line) :
    (bodyNeverCloses first).finding = .bodyNeverCloses first := rfl

@[simp] theorem finding_neverEnds (c : Construct) (opener : Line) :
    (neverEnds c opener).finding = .neverEnds c opener := by
  cases c <;> rfl

end Warning

/-! ## Runs and their lines -/

/-- A line stands where its index says. -/
theorem Line.getElem?_index {source : Text} {l : Line} (h : l ∈ ofSource source) :
    (ofSource source)[l.index]? = some l := by
  obtain ⟨i, hi, rfl⟩ := List.getElem_of_mem h
  have hindex := congrArg (fun is => is[i]?) (map_index_ofSource source)
  simp only [List.getElem?_map, List.getElem?_eq_getElem hi, List.getElem?_range hi] at hindex
  have heq : (ofSource source)[i].index = i := Option.some.inj hindex
  rw [heq, List.getElem?_eq_getElem hi]

namespace Run

variable {counting : BraceCounting} {source : Text}

/-- The lines of a run are lines of the source. -/
theorem line_mem_ofSource {r : Run} {l : ShapedLine} (hr : r ∈ ofSource counting source)
    (hl : l ∈ r.lines) : l.line ∈ Line.ofSource source := by
  rw [← allLines_ofSource counting source, allLines_map_call]
  exact List.mem_map_of_mem (List.mem_flatMap.mpr ⟨r, hr, hl⟩)

/-- An index belongs to one run only. -/
theorem eq_of_index_eq {r q : Run} {l m : ShapedLine} (hr : r ∈ ofSource counting source)
    (hq : q ∈ ofSource counting source) (hl : l ∈ r.lines) (hm : m ∈ q.lines)
    (h : l.line.index = m.line.index) : r = q := by
  have hnodup : (((ofSource counting source).flatMap fun r => r.lines.map fun l => (r, l)).map
      fun p => p.2.line.index).Nodup := by
    have hindices := nodup_index_calls counting source
    rw [allLines_map_call, List.map_map, List.map_flatMap] at hindices
    rw [List.map_flatMap]
    simpa only [List.map_map, Function.comp_def] using hindices
  have hmem : ∀ {r : Run} {l : ShapedLine}, r ∈ ofSource counting source → l ∈ r.lines →
      (r, l) ∈ (ofSource counting source).flatMap fun r => r.lines.map fun l => (r, l) := by
    intro r l hr hl
    exact List.mem_flatMap.mpr ⟨r, hr, List.mem_map_of_mem hl⟩
  exact congrArg Prod.fst (List.inj_on_of_nodup_map hnodup (hmem hr hl) (hmem hq hm) h)

/-- A declaration is one line. -/
theorem rest_eq_nil_of_isDeclaration {r : Run} (hr : r ∈ ofSource counting source)
    (hdecl : r.isDeclaration = true) : r.rest = [] := by
  obtain ⟨before, after, hsplit⟩ := List.append_of_mem hr
  have hreach := (allFrom_split hsplit).2
  rw [eq_of_beq hdecl] at hreach
  have hline : (extentOf (some .declaration)).reach (.start r.opener.shape)
      (r.rest ++ after.flatMap lines) = ⟨[], r.rest ++ after.flatMap lines, true⟩ :=
    Extent.reach_line ..
  rw [hline] at hreach
  exact (congrArg Extent.Reach.taken hreach).symm

/-- The lines that declare something, in order. -/
def declaredLines (rs : List Run) : List Line :=
  (rs.filter isDeclaration).map fun r => r.opener.line

/-- The first line that declares something is the first declaration. -/
theorem head?_declaredLines (rs : List Run) : (declaredLines rs).head? = firstDeclaration? rs := by
  rw [declaredLines, List.head?_map, List.head?_filter, firstDeclaration?, body,
    ← List.find?_eq_head?_dropWhile_not]

/-- The segments declare on the lines on which the runs do. -/
theorem declared_map_segment (counting : BraceCounting) (source : Text) :
    Segment.declared (Line.ofSource source) ((ofSource counting source).map segment) =
      declaredLines (ofSource counting source) := by
  rw [Segment.declared, List.filterMap_map, declaredLines, ← List.filterMap_eq_map,
    List.filterMap_filter]
  apply List.filterMap_congr
  intro r hr
  have hopener := Line.getElem?_index (line_mem_ofSource hr (l := r.opener) List.mem_cons_self)
  show (if r.isDeclaration then (Line.ofSource source)[r.opener.line.index]? else none) = _
  rw [hopener]
  rfl

/-- A line declares something exactly if its run is a declaration. -/
theorem mem_declaredLines_iff {r : Run} {l : ShapedLine} (hr : r ∈ ofSource counting source)
    (hl : l ∈ r.lines) :
    l.line ∈ declaredLines (ofSource counting source) ↔ r.isDeclaration = true := by
  -- A declaration is a single line, so the line is its opener.
  constructor
  · intro h
    obtain ⟨q, hq, heq⟩ := List.mem_map.mp h
    obtain ⟨hq, hdecl⟩ := List.mem_filter.mp hq
    have hsame := eq_of_index_eq hr hq hl (m := q.opener) List.mem_cons_self (by rw [heq])
    rwa [hsame]
  · intro hdecl
    rw [lines, rest_eq_nil_of_isDeclaration hr hdecl, List.mem_singleton] at hl
    rw [hl]
    exact List.mem_map_of_mem (List.mem_filter.mpr ⟨hr, hdecl⟩)

theorem not_mem_declaredLines {r : Run} {l : ShapedLine} (hr : r ∈ ofSource counting source)
    (hl : l ∈ r.lines) (h : r.isDeclaration = false) :
    l.line ∉ declaredLines (ofSource counting source) := by
  rw [mem_declaredLines_iff hr hl, h]
  exact Bool.false_ne_true

end Run

/-! ## Line by line -/

section Body

variable {counting : BraceCounting} {source : Text}

/-- Where the depth falls below zero in a stretch of lines. The depth that is
carried along is the sum up to the next line. -/
theorem map_finding_drops {before ls after : List ShapedLine} {first : Line}
    (h : ShapedLine.ofSource counting source = before ++ (ls ++ after))
    (hfirst : first.index ≤ before.length) :
    (Warning.drops (Shape.depthBefore (Shape.scanAll counting false source.lines) first.index
        before.length) ls).map Warning.finding =
      ls.flatMap fun l =>
        Finding.ofDepth (Shape.scanAll counting false source.lines) first l.line := by
  induction ls generalizing before with
  | nil => rfl
  | cons l ls ih =>
    have hindex : l.line.index = before.length := ShapedLine.index_eq_length h
    have hdepth : Shape.depthBefore (Shape.scanAll counting false source.lines) first.index
        (before.length + 1) =
          Shape.depthBefore (Shape.scanAll counting false source.lines) first.index
            before.length + l.shape.delta := by
      -- The carried depth falls below zero exactly where the sums do.
      have hsplit : ShapedLine.ofSource counting source = before ++ ([l] ++ (ls ++ after)) := h
      simpa using ShapedLine.depthBefore_stretch hsplit hfirst
    have hrest := @ih (before ++ [l]) (by simpa using h) (by simp; omega)
    rw [List.length_append, List.length_singleton, hdepth] at hrest
    rw [List.flatMap_cons, ← hrest, Finding.ofDepth, hindex, hdepth, Warning.drops]
    split
    · rename_i hfalls
      rw [if_pos ⟨hfirst, hfalls⟩]
      rfl
    · rename_i hstays
      rw [if_neg fun hfalls => hstays hfalls.2]
      rfl

/-- What has to be found on the lines of a run: where the depth falls below
zero, and that it declares something again. -/
theorem flatMap_onLine_lines {done rs : List Run} {r : Run} {first : Line}
    (h : Run.ofSource counting source = done ++ r :: rs)
    (hfirst : first.index ≤ (done.flatMap Run.lines).length) :
    (r.lines.flatMap fun l => Finding.onLine (Shape.scanAll counting false source.lines) first
        (Run.declaredLines (Run.ofSource counting source)) l.line) =
      (Warning.drops (Shape.depthBefore (Shape.scanAll counting false source.lines) first.index
          (done.flatMap Run.lines).length) r.lines).map Warning.finding ++
        if r.isDeclaration = true ∧ r.opener.line ≠ first then
          [.declaresAgain r.opener.line first] else [] := by
  have hr : r ∈ Run.ofSource counting source := by
    rw [h]
    exact List.mem_append_right _ List.mem_cons_self
  have hsplit : ShapedLine.ofSource counting source =
      done.flatMap Run.lines ++ (r.lines ++ rs.flatMap Run.lines) := Run.ofSource_split h
  rw [map_finding_drops hsplit hfirst]
  -- On a run that declares nothing only the depth can be found.
  cases hdecl : r.isDeclaration with
  | false =>
    rw [if_neg (by simp), List.append_nil]
    apply List.flatMap_congr
    intro l hl
    have hnot := Run.not_mem_declaredLines hr hl hdecl
    rw [Finding.onLine, Finding.ofDeclaration, if_neg fun hmem => hnot hmem.1, List.append_nil]
  | true =>
    -- A declaration is a single line, on which both can be found.
    have hlines : r.lines = [r.opener] := by
      rw [Run.lines, Run.rest_eq_nil_of_isDeclaration hr hdecl]
    have hmem : r.opener.line ∈ Run.declaredLines (Run.ofSource counting source) :=
      (Run.mem_declaredLines_iff hr List.mem_cons_self).mpr hdecl
    rw [hlines, List.flatMap_singleton, List.flatMap_singleton, Finding.onLine,
      Finding.ofDeclaration]
    simp only [hmem]

/-- The warnings of the runs behind the first declaration. The induction is on
these runs; the depth that is carried along is the one in front of the next
line. -/
theorem map_finding_inBody {done rs : List Run} {first : Line}
    (h : Run.ofSource counting source = done ++ rs)
    (hfirst : first.index < (done.flatMap Run.lines).length) :
    (Warning.inBody (some first) (Shape.depthBefore (Shape.scanAll counting false source.lines)
        first.index (done.flatMap Run.lines).length) rs).map Warning.finding =
      (rs.flatMap Run.lines).flatMap fun l =>
        Finding.onLine (Shape.scanAll counting false source.lines) first
          (Run.declaredLines (Run.ofSource counting source)) l.line := by
  induction rs generalizing done with
  | nil => rfl
  | cons r rs ih =>
    have hrest := @ih (done ++ [r]) (by simpa using h) (by
      rw [List.flatMap_append, List.length_append]
      omega)
    rw [Run.depthBefore_run h (Nat.le_of_lt hfirst)] at hrest
    rw [List.flatMap_cons, List.flatMap_append, ← hrest,
      flatMap_onLine_lines h (Nat.le_of_lt hfirst)]
    -- Every declaration here stands behind the first one, so it is reported.
    have hlater : r.opener.line ≠ first := by
      rintro rfl
      rw [Run.index_opener h] at hfirst
      omega
    -- A declaration adds its finding behind those of the depth on the same line.
    cases hdecl : r.isDeclaration with
    | false => simp [Warning.inBody, hdecl]
    | true => simp [Warning.inBody, hdecl, hlater]

/-- Before the first declaration there is nothing to warn about. -/
theorem inBody_none_append {before : List Run}
    (hbefore : ∀ q ∈ before, q.isDeclaration = false) (depth : Int) (rs : List Run) :
    Warning.inBody none depth (before ++ rs) = Warning.inBody none depth rs := by
  induction before with
  | nil => rfl
  | cons q before ih =>
    have hq := hbefore q List.mem_cons_self
    have hrest := ih fun p hp => hbefore p (List.mem_cons_of_mem _ hp)
    simpa [Warning.inBody, hq] using hrest

/-- Nor is there anything to find on the lines before it. -/
theorem onLine_before_eq_nil {before after : List Run} {r : Run}
    (h : Run.ofSource counting source = before ++ r :: after)
    (hbefore : ∀ q ∈ before, q.isDeclaration = false) :
    ((before.flatMap Run.lines).flatMap fun l =>
      Finding.onLine (Shape.scanAll counting false source.lines) r.opener.line
        (Run.declaredLines (Run.ofSource counting source)) l.line) = [] := by
  rw [List.flatMap_eq_nil_iff]
  intro l hl
  obtain ⟨q, hq, hlq⟩ := List.mem_flatMap.mp hl
  have hqmem : q ∈ Run.ofSource counting source := by
    rw [h]
    exact List.mem_append_left _ hq
  have hnot := Run.not_mem_declaredLines hqmem hlq (hbefore q hq)
  have hearlier : ¬ r.opener.line.index ≤ l.line.index := by
    obtain ⟨ls, ms, hls⟩ := List.append_of_mem hl
    have hsplit := Run.ofSource_split h
    rw [hls, List.append_assoc, List.cons_append] at hsplit
    rw [ShapedLine.index_eq_length hsplit, Run.index_opener h, hls, List.length_append,
      List.length_cons]
    omega
  simp only [Finding.onLine, Finding.ofDepth, Finding.ofDeclaration, hnot, hearlier, false_and,
    if_false, List.append_nil]

/-- The warnings about the lines are what has to be found on them. -/
theorem map_finding_inBody_none (counting : BraceCounting) (source : Text) :
    (Warning.inBody none 0 (Run.ofSource counting source)).map Warning.finding =
      Finding.inBody (Line.ofSource source) (Shape.scanAll counting false source.lines)
        (Run.declaredLines (Run.ofSource counting source)) := by
  rw [Finding.inBody, Run.head?_declaredLines]
  -- Findings start with the first declaration; without one there are none.
  rcases Run.exists_first_or_forall (Run.ofSource counting source) with
    ⟨before, r, after, h, hbefore, hr⟩ | hnone
  · have hindex := Run.index_opener h
    have hstart := flatMap_onLine_lines h (Nat.le_of_eq hindex)
    have hbehind := map_finding_inBody
      (h.trans (List.append_cons before r after)) (by
        rw [hindex, List.flatMap_append, List.length_append, List.flatMap_singleton, Run.lines,
          List.length_cons]
        omega)
    -- The depth is zero in front of the first declaration.
    rw [Run.depthBefore_run h (Nat.le_of_eq hindex), ← hindex, Shape.depthBefore_self] at hbehind
    rw [← hindex, Shape.depthBefore_self, if_neg fun hagain => hagain.2 rfl, List.append_nil]
      at hstart
    have hlines : Line.ofSource source =
        (before.flatMap Run.lines ++ (r.lines ++ after.flatMap Run.lines)).map (·.line) := by
      rw [← ShapedLine.map_line_ofSource counting source, Run.ofSource_split h]
      rfl
    have hfirst : Run.firstDeclaration? (Run.ofSource counting source) = some r.opener.line := by
      rw [h, Run.firstDeclaration?_append hbefore hr]
    rw [hfirst]
    show _ = (Line.ofSource source).flatMap _
    rw [hlines, List.flatMap_map, List.flatMap_append, List.flatMap_append,
      onLine_before_eq_nil h hbefore, List.nil_append, hstart, ← hbehind, ← List.map_append]
    congr 1
    rw [h, inBody_none_append hbefore]
    simp only [Warning.inBody, hr]
  · have hbody := inBody_none_append hnone 0 []
    rw [List.append_nil] at hbody
    rw [hbody, Run.firstDeclaration?, Run.body_eq_nil hnone]
    rfl

end Body

/-! ## At the end of the file -/

section End

variable {counting : BraceCounting} {source : Text} {before after : List Run} {r : Run}

/-- A run came to its end exactly if its construct may end on its last line. -/
theorem Run.complete_iff_endsAt (h : ofSource counting source = before ++ r :: after) :
    r.complete = true ↔ (extentOf r.construct?).EndsAt (Shape.scanAll counting false source.lines)
      r.segment.start r.segment.stop := by
  have hends := Extent.complete_reach_iff_endsAt (extentOf r.construct?) (before.flatMap lines)
    r.opener (r.rest ++ after.flatMap lines)
  rw [Progress.after_singleton, (allFrom_split h).2, ← ofSource_split h,
    ShapedLine.map_shape_ofSource, ← index_opener h] at hends
  exact hends

/-- The construct of a run may end nowhere exactly if the run is not complete. -/
theorem Run.unended_segment_iff (h : ofSource counting source = before ++ r :: after) :
    r.segment.Unended (Shape.scanAll counting false source.lines) ↔ r.complete = false := by
  have hends := complete_iff_endsAt h
  rcases (follows_segment h).isLastLine with hleast | ⟨hnowhere, hlast⟩
  · -- The construct may end on its last line, so neither side holds.
    obtain ⟨hstart, hlt, hstop⟩ := hleast.1
    constructor
    · intro hunended
      exact absurd hstop (hunended _ hlt hstart)
    · intro hincomplete
      rw [hends.mpr hstop] at hincomplete
      cases hincomplete
  · constructor
    · intro _
      rw [← Bool.not_eq_true, hends]
      exact hnowhere _ (Nat.le_add_right ..) (by omega)
    · intro _ k hk hstart
      exact hnowhere k hstart hk

/-- The last run, if the file ends before its construct does. -/
theorem unended?_map_segment (counting : BraceCounting) (source : Text) :
    Segment.unended? (Line.ofSource source) (Shape.scanAll counting false source.lines)
        ((Run.ofSource counting source).map Run.segment) =
      (Run.ofSource counting source).getLast?.bind fun r =>
        r.construct?.bind fun c =>
          if r.complete = false then some (c, r.opener.line) else none := by
  rw [Segment.unended?, List.getLast?_map]
  -- Only the last run can run into the end of the file.
  cases hlast : (Run.ofSource counting source).getLast? with
  | none => rfl
  | some r =>
    obtain ⟨before, hsplit⟩ := List.getLast?_eq_some_iff.mp hlast
    have hr : r ∈ Run.ofSource counting source := List.mem_of_getLast? hlast
    have hopener : (Line.ofSource source)[r.segment.start]? = some r.opener.line :=
      Line.getElem?_index (Run.line_mem_ofSource hr (l := r.opener) List.mem_cons_self)
    show (r.construct?.bind fun c => (Line.ofSource source)[r.segment.start]?.bind fun opener =>
      if r.segment.Unended _ then some (c, opener) else none) = _
    simp only [hopener, Option.bind_some, Run.unended_segment_iff hsplit]

/-- The depth behind the last line tells whether the body is still open. -/
theorem map_finding_openBody (counting : BraceCounting) (source : Text) :
    (match Run.firstDeclaration? (Run.ofSource counting source) with
      | some first =>
        if 0 < Run.finalDepth (Run.ofSource counting source) then
          some (Warning.bodyNeverCloses first) else none
      | none => none).map Warning.finding =
      Finding.openBody? (Line.ofSource source) (Shape.scanAll counting false source.lines)
        (Run.declaredLines (Run.ofSource counting source)) := by
  rw [Finding.openBody?, Run.head?_declaredLines]
  -- The depth behind the last line is counted from the first declaration on.
  rcases Run.exists_first_or_forall (Run.ofSource counting source) with
    ⟨before, r, after, h, hbefore, hr⟩ | hnone
  · have hcount : (Line.ofSource source).length = source.lines.length := Line.length_number ..
    rw [Run.finalDepth_eq h hbefore hr, hcount, h, Run.firstDeclaration?_append hbefore hr]
    exact apply_ite (Option.map Warning.finding) ..
  · rw [Run.firstDeclaration?, Run.body_eq_nil hnone]
    rfl

/-- The warning about the end of the file is what has to be found there. -/
theorem map_finding_atEnd? (counting : BraceCounting) (source : Text) :
    (Warning.atEnd? (Run.ofSource counting source)).map Warning.finding =
      Finding.atEnd? (Line.ofSource source) (Shape.scanAll counting false source.lines)
        ((Run.ofSource counting source).map Run.segment) := by
  rw [Finding.atEnd?, unended?_map_segment, Run.declared_map_segment, ← map_finding_openBody,
    Warning.atEnd?]
  -- An open body is looked at unless the last run has a construct and no end.
  rcases (Run.ofSource counting source).getLast? with _ | ⟨_ | c, opener, rest, _ | _⟩
  · rfl
  · rfl
  · rfl
  · exact congrArg some (Warning.finding_neverEnds c opener.line)
  · rfl

end End

/-- **Warnings are exact.** The lines have exactly one segmentation; its
segments start on the lines that are visited, with the same constructs; and
the warnings say what has to be found in the lines so divided, all of it, once
each and in order. -/
theorem warnings_are_exact (counting : BraceCounting) (source : Text) :
    let c := Classification.ofSource counting source
    let shapes := Shape.scanAll counting false source.lines
    ∃ segs, IsSegmentation source.lines shapes segs ∧
      (∀ other, IsSegmentation source.lines shapes other → other = segs) ∧
      (c.visits.map fun v => (v.index, v.construct?)) =
        segs.map (fun s => (s.start, s.construct?)) ∧
      (c.warnings.map fun w => w.diagnostic.finding) =
        Finding.all (Line.ofSource source) shapes segs := by
  intro c shapes
  have hsegs := Run.isSegmentation_ofSource counting source
  refine ⟨(Run.ofSource counting source).map Run.segment, hsegs, ?_, ?_, ?_⟩
  · intro other hother
    exact hsegs.unique hother
  · rw [Classification.visits_ofSource, List.map_map]
    exact Run.map_visitsFrom false 0 (Run.ofSource counting source)
  · show (Classification.ofSource counting source).warnings.map Warning.finding = _
    rw [Classification.warnings_ofSource, Warning.ofRuns, List.map_append,
      map_finding_inBody_none, Finding.all, Run.declared_map_segment, ← map_finding_atEnd?, Option.toList_map]

end MemberOrder
