import MemberOrder.Proofs.Grouping
import MemberOrder.Proofs.Pass

/-! # Classification partitions the lines

The lines of a source are numbered from zero, each run hands its lines over
to its section, and the runs together hold every line once. So the grouping
of a classified source is a partition of the lines: nothing is lost, nothing
is doubled, and within a section the lines keep their order. -/

namespace MemberOrder

namespace Section

/-- The canonical order is the order of the ranks, without a gap. -/
theorem map_rank_canonical : canonical.map rank = List.range canonical.length := by decide

/-- Every section has a place in the canonical order. -/
theorem mem_canonical (s : Section) : s ∈ canonical := by
  cases s <;> decide

/-- The canonical order is strictly ascending. -/
theorem pairwise_rank_canonical : canonical.Pairwise fun s t => s.rank < t.rank := by
  rw [← List.pairwise_map (f := rank) (R := (· < ·)), map_rank_canonical]
  exact List.pairwise_lt_range

theorem nodup_canonical : canonical.Nodup :=
  pairwise_rank_canonical.imp fun hlt heq => Nat.ne_of_lt hlt (congrArg rank heq)

end Section

/-! ## Numbers of lines -/

namespace Line

/-- Lines are numbered one after another. -/
theorem map_index_number (i o : Nat) (ts : List Text) :
    (number i o ts).map index = List.range' i ts.length := by
  induction ts generalizing i o with
  | nil => rfl
  | cons t ts ih => simp [number, ih, List.range'_succ]

/-- The lines of a source are numbered from zero. -/
theorem map_index_ofSource (source : Text) :
    (ofSource source).map index = List.range (ofSource source).length := by
  rw [ofSource, map_index_number, length_number, List.range_eq_range']

theorem pairwise_index_ofSource (source : Text) :
    (ofSource source).Pairwise fun l m => l.index < m.index := by
  rw [← List.pairwise_map (f := index) (R := (· < ·)), map_index_ofSource]
  exact List.pairwise_lt_range

/-- No two lines have the same number. -/
theorem nodup_index_ofSource (source : Text) : ((ofSource source).map index).Nodup := by
  rw [map_index_ofSource]
  exact List.nodup_range

/-- The numbers of lines are those below their count. -/
theorem exists_index_iff (source : Text) (i : Nat) :
    (∃ l ∈ ofSource source, l.index = i) ↔ i < (ofSource source).length := by
  rw [← List.mem_map, map_index_ofSource, List.mem_range]

end Line

namespace ShapedLine

/-- Every line has a shape. -/
theorem length_shapes (counting : BraceCounting) (source : Text) :
    (Shape.scanAll counting false source.lines).length = (Line.ofSource source).length := by
  rw [Line.ofSource, Line.length_number, Shape.length_scanAll]

/-- Shaping a source keeps its lines. -/
theorem map_line_ofSource (counting : BraceCounting) (source : Text) :
    (ofSource counting source).map (·.line) = Line.ofSource source := by
  apply List.ext_getElem
  · rw [List.length_map, ofSource, List.length_zipWith, length_shapes, Nat.min_self]
  · intro i hi hi'
    simp [ofSource]

/-- The shapes are those of one scan over all lines. -/
theorem map_shape_ofSource (counting : BraceCounting) (source : Text) :
    (ofSource counting source).map (·.shape) = Shape.scanAll counting false source.lines := by
  apply List.ext_getElem
  · rw [List.length_map, ofSource, List.length_zipWith, length_shapes, Nat.min_self]
  · intro i hi hi'
    simp [ofSource]

theorem map_text_ofSource (counting : BraceCounting) (source : Text) :
    (ofSource counting source).map (fun l => l.line.text) = source.lines := by
  have htexts := congrArg (List.map Line.text) (map_line_ofSource counting source)
  rwa [List.map_map, Line.ofSource, Line.map_text_number] at htexts

/-- The index of a line is the number of lines before it. -/
theorem index_eq_length {counting : BraceCounting} {source : Text}
    {before after : List ShapedLine} {l : ShapedLine}
    (h : ofSource counting source = before ++ l :: after) : l.line.index = before.length := by
  have hindex := congrArg (List.map Line.index) (map_line_ofSource counting source)
  rw [Line.map_index_ofSource, h, List.map_map] at hindex
  -- The list of all indices has its own position at every place; look at that of `l`.
  have hat := congrArg (fun is => is[before.length]?) hindex
  simp only [List.map_append, List.map_cons, Function.comp_apply, List.length_map,
    Nat.le_refl, List.getElem?_append_right, Nat.sub_self, List.getElem?_cons_zero] at hat
  obtain ⟨hlt, hget⟩ := List.getElem?_eq_some_iff.mp hat.symm
  rw [List.getElem_range] at hget
  exact hget.symm

end ShapedLine

/-! ## Runs as calls -/

namespace Run

/-- The call with which a run hands its lines over to its section. -/
def call (r : Run) : Section × List Line := (r.destination, r.lines.map (·.line))

/-- The calls of some runs hand over all their lines. -/
theorem allLines_map_call (rs : List Run) :
    Grouping.allLines (rs.map call) = (rs.flatMap lines).map (·.line) := by
  simp [Grouping.allLines, call, List.flatMap_map, List.map_flatMap]

/-- The runs of a source hold its lines, in order. -/
theorem allLines_ofSource (counting : BraceCounting) (source : Text) :
    Grouping.allLines ((ofSource counting source).map call) = Line.ofSource source := by
  rw [allLines_map_call, ofSource, flatMap_lines_allFrom, ShapedLine.map_line_ofSource]

/-- The lines before a run, its own and those behind it. -/
theorem ofSource_split {counting : BraceCounting} {source : Text} {before after : List Run}
    {r : Run} (h : ofSource counting source = before ++ r :: after) :
    ShapedLine.ofSource counting source =
      before.flatMap lines ++ r.opener :: (r.rest ++ after.flatMap lines) := by
  have hall := flatMap_lines_allFrom false (ShapedLine.ofSource counting source)
  rw [← hall]
  show (ofSource counting source).flatMap lines = _
  rw [h, List.flatMap_append, List.flatMap_cons, lines, List.cons_append]

/-- The index of a run is the number of lines in the runs before it. -/
theorem index_opener {counting : BraceCounting} {source : Text} {before after : List Run}
    {r : Run} (h : ofSource counting source = before ++ r :: after) :
    r.opener.line.index = (before.flatMap lines).length :=
  ShapedLine.index_eq_length (ofSource_split h)

theorem nodup_index_calls (counting : BraceCounting) (source : Text) :
    ((Grouping.allLines ((ofSource counting source).map call)).map (·.index)).Nodup := by
  rw [allLines_ofSource]
  exact Line.nodup_index_ofSource source

end Run

namespace Classification

/-- The grouping is made by the calls of the runs, in order. -/
theorem grouping_ofSource (counting : BraceCounting) (source : Text) :
    (ofSource counting source).grouping =
      .ofCalls ((Run.ofSource counting source).map Run.call) := by
  rw [ofSource_eq_ofRuns, ofRuns, Grouping.ofCalls, List.foldl_map]
  rfl

/-- Every line of a run goes to the section of the run. -/
theorem mem_lines_grouping {counting : BraceCounting} {source : Text} {r : Run} {l : ShapedLine}
    (hr : r ∈ Run.ofSource counting source) (hl : l ∈ r.lines) :
    l.line ∈ (ofSource counting source).grouping.lines r.destination := by
  rw [grouping_ofSource, Grouping.lines_ofCalls, Grouping.mem_linesIn]
  exact ⟨r.call, List.mem_map_of_mem hr, rfl, List.mem_map_of_mem hl⟩

/-- Every line of a run is found in the section to which the run goes. -/
theorem sectionOf?_of_mem {counting : BraceCounting} {source : Text} {r : Run} {l : ShapedLine}
    (hr : r ∈ Run.ofSource counting source) (hl : l ∈ r.lines) :
    (ofSource counting source).grouping.sectionOf? l.line.index = some r.destination := by
  rw [grouping_ofSource]
  have hnd := Run.nodup_index_calls counting source
  have hc : r.call ∈ (Run.ofSource counting source).map Run.call := List.mem_map_of_mem hr
  exact Grouping.sectionOf?_ofCalls_of_mem hnd hc (List.mem_map_of_mem hl)

variable (counting : BraceCounting) (source : Text)

/-- A section holds the lines that are found in it, in the order of the source. -/
theorem lines_grouping_eq_filter (s : Section) :
    (ofSource counting source).grouping.lines s = (Line.ofSource source).filter fun l =>
      (ofSource counting source).grouping.sectionOf? l.index = some s := by
  have hnd := Run.nodup_index_calls counting source
  have hfilter := Grouping.linesIn_eq_filter hnd s
  rw [Run.allLines_ofSource] at hfilter
  rw [grouping_ofSource, Grouping.lines_ofCalls]
  exact hfilter

/-- Exactly the lines of the source are found in a section. -/
theorem isSome_sectionOf?_grouping_iff (i : Nat) :
    ((ofSource counting source).grouping.sectionOf? i).isSome ↔
      i < (Line.ofSource source).length := by
  rw [← Line.exists_index_iff, Option.isSome_iff_exists]
  have hnd := Run.nodup_index_calls counting source
  -- A section is found for a line that was handed over, and every line was.
  constructor
  · rintro ⟨s, hs⟩
    rw [grouping_ofSource, Grouping.sectionOf?_ofCalls_eq_some_iff hnd] at hs
    obtain ⟨l, hl, hi⟩ := hs
    refine ⟨l, ?_, hi⟩
    rw [← Run.allLines_ofSource counting source]
    exact (Grouping.linesIn_sublist s _).subset hl
  · rintro ⟨l, hl, hi⟩
    rw [← Run.allLines_ofSource counting source, Grouping.allLines, List.mem_flatMap] at hl
    obtain ⟨c, hc, hl⟩ := hl
    refine ⟨c.1, ?_⟩
    rw [grouping_ofSource, ← hi]
    exact Grouping.sectionOf?_ofCalls_of_mem hnd hc hl

/-- The grouping holds as many lines as the source. -/
theorem size_grouping :
    (ofSource counting source).grouping.size = (Line.ofSource source).length := by
  rw [grouping_ofSource, Grouping.size_ofCalls, Run.allLines_ofSource]

theorem nodup_named_grouping : (ofSource counting source).grouping.named.Nodup := by
  rw [grouping_ofSource]
  exact Grouping.nodup_named_ofCalls _

/-- Every named section holds a line, and sections are named in the order of their first
lines. -/
theorem named_grouping_startsBefore :
    (∀ s ∈ (ofSource counting source).grouping.named,
        (ofSource counting source).grouping.lines s ≠ []) ∧
      (ofSource counting source).grouping.named.Pairwise
        (ofSource counting source).grouping.StartsBefore := by
  rw [grouping_ofSource]
  apply Grouping.pairwise_startsBefore_ofCalls
  · intro c hc
    obtain ⟨r, -, rfl⟩ := List.mem_map.mp hc
    simp [Run.call, Run.lines]
  · rw [Run.allLines_ofSource]
    exact Line.pairwise_index_ofSource source

/-- All named sections of a classified source hold lines. -/
theorem sections_grouping :
    (ofSource counting source).grouping.sections = (ofSource counting source).grouping.named := by
  rw [Grouping.sections_eq_filter (nodup_named_grouping counting source), List.filter_eq_self]
  intro s hs
  simpa using (named_grouping_startsBefore counting source).1 s hs

/-- A section holds no line twice. -/
theorem nodup_lines_grouping (s : Section) :
    ((ofSource counting source).grouping.lines s).Nodup := by
  rw [lines_grouping_eq_filter]
  exact (List.Nodup.of_map _ (Line.nodup_index_ofSource source)).filter _

/-- The sections together hold every line once. -/
theorem perm_flatMap_lines_grouping :
    (Section.canonical.flatMap (ofSource counting source).grouping.lines).Perm
      (Line.ofSource source) := by
  have hnd : (Line.ofSource source).Nodup :=
    List.Nodup.of_map _ (Line.nodup_index_ofSource source)
  rw [List.perm_ext_iff_of_nodup _ hnd]
  · -- A line of the source is in one section: the one that is found for its index.
    intro l
    simp only [List.mem_flatMap, lines_grouping_eq_filter, List.mem_filter, decide_eq_true_eq]
    constructor
    · rintro ⟨s, -, hl, -⟩
      exact hl
    · intro hl
      have hi := (Line.exists_index_iff source l.index).mp ⟨l, hl, rfl⟩
      have hsome := (isSome_sectionOf?_grouping_iff counting source l.index).mpr hi
      obtain ⟨s, hs⟩ := Option.isSome_iff_exists.mp hsome
      exact ⟨s, Section.mem_canonical s, hl, hs⟩
  · -- No line twice: neither within a section nor in two of them.
    rw [List.nodup_flatMap]
    refine ⟨fun s _ => nodup_lines_grouping counting source s, ?_⟩
    apply Section.nodup_canonical.imp
    intro s t hst l hs ht
    rw [lines_grouping_eq_filter, List.mem_filter, decide_eq_true_eq] at hs ht
    exact hst (Option.some.inj (hs.2.symm.trans ht.2))

end Classification

/-! ## The partition -/

/-- The smallest index of a line in a section. -/
def Grouping.smallestIndex? (g : Grouping) (s : Section) : Option Nat :=
  ((g.lines s).map (·.index)).min?

theorem Grouping.exists_smallestIndex? {g : Grouping} {s : Section} (h : g.lines s ≠ []) :
    ∃ i, g.smallestIndex? s = some i := by
  rw [← Option.isSome_iff_exists, smallestIndex?, List.isSome_min?_iff]
  simpa using h

/-- A section that starts before another has the smaller smallest index. -/
theorem Grouping.StartsBefore.smallestIndex?_lt {g : Grouping} {s t : Section}
    (h : g.StartsBefore s t) (ht : g.lines t ≠ []) :
    ∃ i j, g.smallestIndex? s = some i ∧ g.smallestIndex? t = some j ∧ i < j := by
  obtain ⟨l, hl, hbefore⟩ := h
  obtain ⟨i, hi⟩ := exists_smallestIndex? (List.ne_nil_of_mem hl)
  obtain ⟨j, hj⟩ := exists_smallestIndex? ht
  refine ⟨i, j, hi, hj, ?_⟩
  rw [smallestIndex?, List.min?_eq_some_iff] at hi hj
  obtain ⟨m, hm, rfl⟩ := List.mem_map.mp hj.1
  have hle : i ≤ l.index := hi.2 _ (List.mem_map_of_mem hl)
  have hlt : l.index < m.index := hbefore m hm
  omega

/-- **Classification is a partition of the lines.** Each section holds, in
source order and unchanged, exactly the lines whose index it is found for; a
section is found for exactly the indices of lines; all sections together hold
every line once; and the sections that hold a line are listed by increasing
smallest index. -/
theorem grouping_partitions_lines (counting : BraceCounting) (source : Text) :
    let g := (Classification.ofSource counting source).grouping
    (∀ s, g.lines s = (Line.ofSource source).filter fun l => g.sectionOf? l.index = some s) ∧
      (∀ i, (g.sectionOf? i).isSome ↔ i < (Line.ofSource source).length) ∧
      (Section.canonical.flatMap g.lines).Perm (Line.ofSource source) ∧
      g.size = (Line.ofSource source).length ∧
      (∀ s, s ∈ g.sections ↔ g.lines s ≠ []) ∧
      g.sections.Pairwise fun s t =>
        ∃ i j, g.smallestIndex? s = some i ∧ g.smallestIndex? t = some j ∧ i < j := by
  intro g
  have hnamed := Classification.named_grouping_startsBefore counting source
  have hsections : g.sections = g.named := Classification.sections_grouping counting source
  refine ⟨Classification.lines_grouping_eq_filter counting source,
    Classification.isSome_sectionOf?_grouping_iff counting source,
    Classification.perm_flatMap_lines_grouping counting source,
    Classification.size_grouping counting source, ?_, ?_⟩
  · intro s
    rw [hsections]
    -- A section is listed if it is named, and it is named if a line was put into it.
    constructor
    · exact hnamed.1 s
    · intro hs
      obtain ⟨l, hl⟩ := List.exists_mem_of_ne_nil _ hs
      exact Grouping.mem_named_of_mem_lines hl
  · rw [hsections]
    apply hnamed.2.imp_of_mem
    intro s t _ ht hst
    exact hst.smallestIndex?_lt (hnamed.1 t ht)

end MemberOrder
