import Mathlib.Algebra.Ring.Int.Defs
import Mathlib.Order.Bounds.Basic
import MemberOrder.Proofs.Partition
import MemberOrder.Proofs.Run

/-! # Segmentation

Where each construct starts and ends can be said without running anything.
The lines fall into consecutive segments. The first line of a segment decides
its construct, and the segment ends on the first line where a construct of
that extent may end, judged from the shapes of all its lines together. There
is exactly one such segmentation, and classification follows it
(`classification_follows_segmentation`). -/

namespace MemberOrder

/-! ## Where a construct may end -/

namespace Shape

/-- The shapes of the lines from `i` to `j`. -/
def stretch (shapes : List Shape) (i j : Nat) : List Shape := (shapes.drop i).take (j + 1 - i)

/-- Line `j` ends a statement. -/
def TerminatedAt (shapes : List Shape) (j : Nat) : Prop :=
  ∃ s, shapes[j]? = some s ∧ s.terminated = true

/-- The last shape of a stretch is that of its last line. -/
theorem getLast?_stretch {shapes : List Shape} {i j : Nat} (hij : i ≤ j)
    (hj : j < shapes.length) : (stretch shapes i j).getLast? = shapes[j]? := by
  have hlen : (stretch shapes i j).length = j + 1 - i := by
    simp only [stretch, List.length_take, List.length_drop]
    omega
  have hlast : j + 1 - i - 1 < j + 1 - i := by omega
  have hplace : i + (j + 1 - i - 1) = j := by omega
  rw [List.getLast?_eq_getElem?, hlen, stretch, List.getElem?_take_of_lt hlast,
    List.getElem?_drop, hplace]

end Shape

namespace Extent

/-- Whether a construct that starts on line `i` may end on line `j`. -/
def EndsAt (shapes : List Shape) (i j : Nat) : Extent → Prop
  | line => j = i
  | statement => Shape.TerminatedAt shapes j
  | block =>
    (∃ s ∈ Shape.stretch shapes i j, 0 < s.opens) ∧
        ((Shape.stretch shapes i j).map Shape.delta).sum ≤ 0 ∨
      (∀ s ∈ Shape.stretch shapes i j, s.opens = 0) ∧ Shape.TerminatedAt shapes j

/-- A construct that starts on line `i` ends on line `j`: the first line where
it may end, or the last line of all if it may end nowhere. -/
def IsLastLine (e : Extent) (shapes : List Shape) (i j : Nat) : Prop :=
  IsLeast {k | i ≤ k ∧ k < shapes.length ∧ e.EndsAt shapes i k} j ∨
    (∀ k, i ≤ k → k < shapes.length → ¬ e.EndsAt shapes i k) ∧ j + 1 = shapes.length

/-- A construct ends on one line only. -/
theorem IsLastLine.unique {e : Extent} {shapes : List Shape} {i j k : Nat}
    (hj : e.IsLastLine shapes i j) (hk : e.IsLastLine shapes i k) : j = k := by
  -- If it may end somewhere, both are the first such line; if not, both are the last of all.
  rcases hj with hj | ⟨hj, hjlast⟩ <;> rcases hk with hk | ⟨hk, hklast⟩
  · exact hj.unique hk
  · obtain ⟨hij, hlt, hends⟩ := hj.1
    exact absurd hends (hk j hij hlt)
  · obtain ⟨hik, hlt, hends⟩ := hk.1
    exact absurd hends (hj k hik hlt)
  · omega

end Extent

/-! ## Progress as a whole

The progress of a construct is kept line by line. Here it is computed from all
the shapes at once, and the two agree. -/

namespace Progress

/-- The progress after lines with the given shapes. -/
def after (seen : List Shape) : Progress where
  opened := seen.any fun s => 0 < s.opens
  balance := (seen.map Shape.delta).sum
  terminated := (seen.getLast?.map Shape.terminated).getD false

theorem after_singleton (s : Shape) : after [s] = start s := by
  simp [after, start]

/-- Progress as a whole goes on line by line. -/
theorem after_concat (seen : List Shape) (s : Shape) :
    after (seen ++ [s]) = (after seen).next s := by
  simp [after, next]

end Progress

namespace Extent

/-- A construct is at its end, judged by its progress, exactly if it may end there. -/
theorem isComplete_after_iff {e : Extent} {shapes : List Shape} {i j : Nat} (hij : i ≤ j)
    (hj : j < shapes.length) (hline : e = line → j = i) :
    e.isComplete (.after (Shape.stretch shapes i j)) = true ↔ e.EndsAt shapes i j := by
  have hterminated : (Progress.after (Shape.stretch shapes i j)).terminated = true ↔
      Shape.TerminatedAt shapes j := by
    rw [Progress.after, Shape.getLast?_stretch hij hj, Shape.TerminatedAt,
      List.getElem?_eq_getElem hj]
    simp
  have hopened : (Progress.after (Shape.stretch shapes i j)).opened = true ↔
      ∃ s ∈ Shape.stretch shapes i j, 0 < s.opens := by
    simp [Progress.after]
  cases e with
  | line => simp [isComplete, EndsAt, hline rfl]
  | statement => exact hterminated
  | block =>
    rw [EndsAt, ← hterminated]
    simp only [isComplete]
    -- With a brace opened the balance decides, and without one the end of the statement.
    split
    · rename_i hopen
      have hsome := hopened.mp hopen
      constructor
      · intro hbalance
        exact Or.inl ⟨hsome, of_decide_eq_true hbalance⟩
      · rintro (⟨-, hbalance⟩ | ⟨hnone, -⟩)
        · exact decide_eq_true hbalance
        · obtain ⟨s, hs, hpos⟩ := hsome
          have hzero := hnone s hs
          omega
    · rename_i hclosed
      have hnone : ∀ s ∈ Shape.stretch shapes i j, s.opens = 0 := by
        intro s hs
        by_contra hne
        exact hclosed (hopened.mpr ⟨s, hs, Nat.pos_of_ne_zero hne⟩)
      constructor
      · intro hterm
        exact Or.inr ⟨hnone, hterm⟩
      · rintro (⟨hsome, -⟩ | ⟨-, hterm⟩)
        · exact absurd (hopened.mpr hsome) hclosed
        · exact hterm

/-- A construct is not at its end before the last line that it takes. -/
theorem not_isComplete_of_lt {e : Extent} {seen : List Shape} {ls : List ShapedLine} {k : Nat}
    (hk : k < (e.reach (.after seen) ls).taken.length) :
    e.isComplete (.after (seen ++ (ls.take k).map (·.shape))) = false := by
  induction ls generalizing seen k with
  | nil => simp [reach] at hk
  | cons l ls ih =>
    cases hp : e.isComplete (.after seen) with
    | true => simp [reach_of_isComplete hp] at hk
    | false =>
      -- The first line was not the end, and the others are those behind it.
      cases k with
      | zero => simpa using hp
      | succ k =>
        rw [reach_cons_of_not_isComplete hp, ← Progress.after_concat] at hk
        have hrest := ih (Nat.lt_of_succ_lt_succ hk)
        rwa [List.append_assoc] at hrest

/-- Whether it came to its end is seen on the last line that it takes. -/
theorem complete_reach_eq (e : Extent) (seen : List Shape) (ls : List ShapedLine) :
    (e.reach (.after seen) ls).complete =
      e.isComplete (.after (seen ++ (e.reach (.after seen) ls).taken.map (·.shape))) := by
  induction ls generalizing seen with
  | nil => simp [reach]
  | cons l ls ih =>
    cases hp : e.isComplete (.after seen) with
    | true => simp [reach_of_isComplete hp, hp]
    | false =>
      rw [reach_cons_of_not_isComplete hp, ← Progress.after_concat]
      have hrest := ih (seen ++ [l.shape])
      rwa [List.append_assoc] at hrest

/-- Behind given lines, a stretch of the shapes is that of a line and those that follow
it. -/
theorem stretch_map_shape (before : List ShapedLine) (l : ShapedLine) (ls : List ShapedLine)
    (k : Nat) :
    Shape.stretch ((before ++ l :: ls).map (·.shape)) before.length (before.length + k) =
      [l.shape] ++ (ls.take k).map (·.shape) := by
  have hcount : before.length + k + 1 - before.length = k + 1 := by omega
  have hbehind : ((before ++ l :: ls).map (·.shape)).drop before.length =
      l.shape :: ls.map (·.shape) := by
    rw [List.map_append, List.drop_left' (List.length_map ..), List.map_cons]
  rw [Shape.stretch, hcount, hbehind, List.take_succ_cons, ← List.map_take, List.singleton_append]

theorem length_map_shape (before : List ShapedLine) (l : ShapedLine) (ls : List ShapedLine) :
    ((before ++ l :: ls).map (·.shape)).length = before.length + 1 + ls.length := by
  simp only [List.length_map, List.length_append, List.length_cons]
  omega

/-- A construct of one line takes no other. -/
theorem length_taken_of_line {e : Extent} {p : Progress} {ls : List ShapedLine} (h : e = line) :
    (e.reach p ls).taken.length = 0 := by
  rw [h, reach_line, List.length_nil]

/-- A construct came to its end exactly if it may end on the last line that it
takes. -/
theorem complete_reach_iff_endsAt (e : Extent) (before : List ShapedLine) (l : ShapedLine)
    (ls : List ShapedLine) :
    (e.reach (.after [l.shape]) ls).complete = true ↔
      e.EndsAt ((before ++ l :: ls).map (·.shape)) before.length
        (before.length + (e.reach (.after [l.shape]) ls).taken.length) := by
  have hprefix : (e.reach (.after [l.shape]) ls).taken <+: ls :=
    ⟨_, taken_append_left e (.after [l.shape]) ls⟩
  have hbound := hprefix.length_le
  have hone : e = line → (e.reach (.after [l.shape]) ls).taken.length = 0 := length_taken_of_line
  have hlen := length_map_shape before l ls
  rw [← isComplete_after_iff (by omega) (by omega) (fun he => by have := hone he; omega),
    stretch_map_shape, ← List.prefix_iff_eq_take.mp hprefix, ← complete_reach_eq]

/-- The lines that a construct takes end on its last line. -/
theorem isLastLine_reach (e : Extent) (before : List ShapedLine) (l : ShapedLine)
    (ls : List ShapedLine) :
    e.IsLastLine ((before ++ l :: ls).map (·.shape)) before.length
      (before.length + (e.reach (.start l.shape) ls).taken.length) := by
  rw [← Progress.after_singleton]
  have hkept := congrArg List.length (taken_append_left e (.after [l.shape]) ls)
  rw [List.length_append] at hkept
  have hlen := length_map_shape before l ls
  have hone : e = line → (e.reach (.after [l.shape]) ls).taken.length = 0 := length_taken_of_line
  -- Before its last line the construct may not end.
  have hbefore : ∀ m < (e.reach (.after [l.shape]) ls).taken.length,
      ¬ e.EndsAt ((before ++ l :: ls).map (·.shape)) before.length (before.length + m) := by
    intro m hm
    have hfalse := not_isComplete_of_lt hm
    rw [← stretch_map_shape before l ls m] at hfalse
    rw [← isComplete_after_iff (by omega) (by omega) (fun he => by have := hone he; omega), hfalse]
    simp
  have hlast := complete_reach_iff_endsAt e before l ls
  -- The construct came to its end, or the lines did.
  cases hcomplete : (e.reach (.after [l.shape]) ls).complete with
  | true =>
    left
    refine ⟨⟨by omega, by omega, hlast.mp hcomplete⟩, ?_⟩
    rintro k ⟨hk, hkn, hends⟩
    by_contra hlt
    obtain ⟨m, rfl⟩ := Nat.exists_eq_add_of_le hk
    exact hbefore m (by omega) hends
  | false =>
    right
    have hall := left_eq_nil_of_not_complete hcomplete
    rw [hall, List.length_nil] at hkept
    refine ⟨?_, by omega⟩
    intro k hk hkn hends
    obtain ⟨m, rfl⟩ := Nat.exists_eq_add_of_le hk
    by_cases hm : m < (e.reach (.after [l.shape]) ls).taken.length
    · exact hbefore m hm hends
    · have hmlast : m = (e.reach (.after [l.shape]) ls).taken.length := by omega
      rw [hmlast] at hends
      rw [hlast.mpr hends] at hcomplete
      cases hcomplete

end Extent

/-! ## Segments -/

/-- Consecutive lines that belong together: the construct that the first of
them opens, the first line and the last line. -/
structure Segment where
  construct? : Option Construct
  start : Nat
  stop : Nat
deriving DecidableEq, Repr

namespace Segment

def isDeclaration (s : Segment) : Bool := s.construct? == some .declaration

/-- The section to which the lines of a segment go. -/
def destination (texts : List Text) (s : Segment) : Section :=
  match s.construct? with
  | none => .uncategorized
  | some c =>
    c.section?.getD (functionSection ((texts.drop s.start).take (s.stop + 1 - s.start)))

/-- The line behind consecutive segments. -/
def nextLine (segs : List Segment) : Nat := (segs.getLast?.map fun s => s.stop + 1).getD 0

/-- The segment `s` is the one that has to come behind the segments `before`:
it starts on the next line, its first line opens its construct, where every
construct is looked for if one of the segments before is a declaration, and it
ends on the last line of the construct. -/
structure Follows (texts : List Text) (shapes : List Shape) (before : List Segment)
    (s : Segment) : Prop where
  start_eq : s.start = nextLine before
  construct_eq : ∃ t, texts[s.start]? = some t ∧
    s.construct? = Construct.first? (before.any isDeclaration) t.trim
  isLastLine : (Run.extentOf s.construct?).IsLastLine shapes s.start s.stop

/-- What comes before a segment leaves no choice for it. -/
theorem Follows.unique {texts : List Text} {shapes : List Shape} {before : List Segment}
    {s t : Segment} (hs : s.Follows texts shapes before) (ht : t.Follows texts shapes before) :
    s = t := by
  obtain ⟨c, i, j⟩ := s
  obtain ⟨d, i', j'⟩ := t
  obtain ⟨hi, ⟨a, ha, hc⟩, hj⟩ := hs
  obtain ⟨hi', ⟨b, hb, hd⟩, hj'⟩ := ht
  simp only at hi hi' ha hb hc hd hj hj'
  have hstart : i = i' := hi.trans hi'.symm
  subst hstart
  have htext : a = b := Option.some.inj (ha.symm.trans hb)
  subst htext
  have hconstruct : c = d := hc.trans hd.symm
  subst hconstruct
  rw [hj.unique hj']

end Segment

/-- Consecutive segments that cover all lines, each of which follows from
those before it. -/
structure IsSegmentation (texts : List Text) (shapes : List Shape) (segs : List Segment) :
    Prop where
  follows : ∀ before s after, segs = before ++ s :: after → s.Follows texts shapes before
  covers : Segment.nextLine segs = texts.length

namespace IsSegmentation

variable {texts : List Text} {shapes : List Shape}

/-- Nothing follows segments that cover all lines. -/
theorem not_follows {segs : List Segment} (h : IsSegmentation texts shapes segs) (s : Segment) :
    ¬ s.Follows texts shapes segs := by
  intro hs
  obtain ⟨t, ht, -⟩ := hs.construct_eq
  rw [hs.start_eq, h.covers, List.getElem?_eq_none (Nat.le_refl _)] at ht
  cases ht

/-- There is at most one segmentation. -/
theorem unique {segs segs' : List Segment} (h : IsSegmentation texts shapes segs)
    (h' : IsSegmentation texts shapes segs') : segs' = segs := by
  -- Two segmentations with a common start go on in the same way.
  have hrest : ∀ rest rest' before, segs = before ++ rest → segs' = before ++ rest' →
      rest' = rest := by
    intro rest
    induction rest with
    | nil =>
      intro rest' before hsegs hsegs'
      -- One cannot be shorter, since nothing follows a segmentation.
      cases rest' with
      | nil => rfl
      | cons s' rest' =>
        rw [List.append_nil] at hsegs
        exact absurd (h'.follows before s' rest' hsegs') (hsegs ▸ h.not_follows s')
    | cons s rest ih =>
      intro rest' before hsegs hsegs'
      have hs := h.follows before s rest hsegs
      cases rest' with
      | nil =>
        rw [List.append_nil] at hsegs'
        exact absurd hs (hsegs' ▸ h'.not_follows s)
      | cons s' rest' =>
        have heq : s' = s := (h'.follows before s' rest' hsegs').unique hs
        subst heq
        have htail := ih rest' (before ++ [s']) (by simpa using hsegs) (by simpa using hsegs')
        rw [htail]
  exact hrest segs segs' [] rfl rfl

end IsSegmentation

/-! ## The segments of the runs -/

namespace Run

/-- The segment that a run covers. -/
def segment (r : Run) : Segment :=
  ⟨r.construct?, r.opener.line.index, r.opener.line.index + r.rest.length⟩

variable {counting : BraceCounting} {source : Text} {before after : List Run} {r : Run}

/-- The line behind the segments of runs is the one behind their lines. -/
theorem nextLine_map_segment (h : ofSource counting source = before ++ after) :
    Segment.nextLine (before.map segment) = (before.flatMap lines).length := by
  -- The last run ends where its lines end; without one, the first line is next.
  rcases List.eq_nil_or_concat before with rfl | ⟨init, r, rfl⟩
  · rfl
  · rw [List.concat_eq_append, List.append_assoc, List.singleton_append] at h
    have hindex := index_opener h
    simp only [Segment.nextLine, segment, List.concat_eq_append, List.map_append, List.map_cons,
      List.map_nil, List.getLast?_append, List.getLast?_singleton, Option.some_or,
      Option.map_some, Option.getD_some, List.flatMap_append, List.flatMap_cons,
      List.flatMap_nil, List.append_nil, List.length_append, lines, List.length_cons, hindex]
    omega

theorem any_isDeclaration_map_segment (rs : List Run) :
    (rs.map segment).any Segment.isDeclaration = rs.any isDeclaration := by
  rw [List.any_map]
  rfl

/-- The segment of a run is the one that follows from the runs before it. -/
theorem follows_segment (h : ofSource counting source = before ++ r :: after) :
    r.segment.Follows source.lines (Shape.scanAll counting false source.lines)
      (before.map segment) := by
  obtain ⟨hconstruct, hreach⟩ := allFrom_split h
  have hsplit := ofSource_split h
  have hindex := index_opener h
  refine ⟨?_, ⟨r.opener.line.text, ?_, ?_⟩, ?_⟩
  · rw [nextLine_map_segment h, ← hindex]
    rfl
  · show source.lines[r.opener.line.index]? = _
    rw [← ShapedLine.map_text_ofSource counting source, hsplit, hindex]
    simp
  · rw [any_isDeclaration_map_segment]
    exact hconstruct
  · have hlast := Extent.isLastLine_reach (extentOf r.construct?) (before.flatMap lines) r.opener
      (r.rest ++ after.flatMap lines)
    rw [← hsplit, ShapedLine.map_shape_ofSource, hreach, ← hindex] at hlast
    exact hlast

/-- The segment knows the section of the run. -/
theorem destination_segment (h : ofSource counting source = before ++ r :: after) :
    r.segment.destination source.lines = r.destination := by
  have hcount : r.segment.stop + 1 - r.segment.start = r.lines.length := by
    simp only [segment, lines, List.length_cons]
    omega
  have htexts : (source.lines.drop r.segment.start).take r.lines.length = r.texts := by
    rw [← ShapedLine.map_text_ofSource counting source, ofSource_split h]
    show (List.drop r.opener.line.index _).take _ = _
    rw [index_opener h, List.map_append, List.drop_left' (List.length_map ..),
      ← List.cons_append, List.map_append]
    exact List.take_left' (List.length_map ..)
  rw [Segment.destination, hcount, htexts, destination_eq]
  rfl

/-- The lines of a run are those from the start to the stop of its segment. -/
theorem exists_mem_lines (h : ofSource counting source = before ++ r :: after) {i : Nat}
    (hstart : r.segment.start ≤ i) (hstop : i ≤ r.segment.stop) :
    ∃ l ∈ r.lines, l.line.index = i := by
  obtain ⟨k, rfl⟩ := Nat.exists_eq_add_of_le hstart
  have hk : k < r.lines.length := by
    simp only [segment, lines, List.length_cons] at hstop ⊢
    omega
  have hlines : r.lines = r.lines.take k ++ r.lines[k] :: r.lines.drop (k + 1) := by
    rw [List.getElem_cons_drop, List.take_append_drop]
  have hsplit : ShapedLine.ofSource counting source =
      (before.flatMap lines ++ r.lines.take k) ++
        r.lines[k] :: (r.lines.drop (k + 1) ++ after.flatMap lines) := by
    rw [List.append_assoc, ← List.cons_append, ← List.append_assoc (r.lines.take k), ← hlines]
    exact ofSource_split h
  refine ⟨r.lines[k], List.getElem_mem hk, ?_⟩
  rw [ShapedLine.index_eq_length hsplit, List.length_append, ← index_opener h,
    List.length_take_of_le (Nat.le_of_lt hk)]
  rfl

/-- The segments of the runs are a segmentation. -/
theorem isSegmentation_ofSource (counting : BraceCounting) (source : Text) :
    IsSegmentation source.lines (Shape.scanAll counting false source.lines)
      ((ofSource counting source).map segment) := by
  constructor
  · intro before s after h
    obtain ⟨rbefore, rest, hruns, rfl, hrest⟩ := List.map_eq_append_iff.mp h
    obtain ⟨r, rafter, rfl, rfl, rfl⟩ := List.map_eq_cons_iff.mp hrest
    exact follows_segment hruns
  · have hall : ofSource counting source = ofSource counting source ++ [] := by
      rw [List.append_nil]
    have hlines := congrArg List.length (ShapedLine.map_text_ofSource counting source)
    rw [List.length_map] at hlines
    rw [nextLine_map_segment hall, ofSource, flatMap_lines_allFrom, hlines]

/-- A run is visited on its first line. -/
theorem map_visitsFrom (inside : Bool) (depth : Int) (rs : List Run) :
    (visitsFrom inside depth rs).map (fun v => (v.index, v.construct?)) =
      rs.map fun r => (r.opener.line.index, r.construct?) := by
  induction rs generalizing inside depth with
  | nil => rfl
  | cons r rs ih =>
    simp only [visitsFrom]
    split
    · rw [List.map_cons, ih, List.map_cons]
    · rw [List.map_cons, ih, List.map_cons]

end Run

/-- **Classification follows the segmentation.** The lines have exactly one
segmentation; its segments start on the lines that are visited, with the same
constructs; and every line of a segment is found in the section of the
segment. -/
theorem classification_follows_segmentation (counting : BraceCounting) (source : Text) :
    let c := Classification.ofSource counting source
    let shapes := Shape.scanAll counting false source.lines
    ∃ segs, IsSegmentation source.lines shapes segs ∧
      (∀ other, IsSegmentation source.lines shapes other → other = segs) ∧
      (c.visits.map fun v => (v.index, v.construct?)) =
        segs.map (fun s => (s.start, s.construct?)) ∧
      ∀ s ∈ segs, ∀ i, s.start ≤ i → i ≤ s.stop →
        c.grouping.sectionOf? i = some (s.destination source.lines) := by
  intro c shapes
  have hsegs := Run.isSegmentation_ofSource counting source
  refine ⟨(Run.ofSource counting source).map Run.segment, hsegs, ?_, ?_, ?_⟩
  · intro other hother
    exact hsegs.unique hother
  · rw [Classification.visits_ofSource, List.map_map]
    exact Run.map_visitsFrom false 0 (Run.ofSource counting source)
  · intro s hs i hstart hstop
    obtain ⟨r, hr, rfl⟩ := List.mem_map.mp hs
    obtain ⟨before, after, hsplit⟩ := List.append_of_mem hr
    obtain ⟨l, hl, rfl⟩ := Run.exists_mem_lines hsplit hstart hstop
    rw [Run.destination_segment hsplit]
    exact Classification.sectionOf?_of_mem hr hl

end MemberOrder
