import MemberOrder.Proofs.Partition
import MemberOrder.Proofs.Run
import MemberOrder.Reordering

/-! # The reordered text, read off the runs

The reordered text depends on the runs only through the texts that each
section gets from them: the sections that got any, each with an empty line
behind it, and then the uncategorized lines. -/

namespace MemberOrder

/-! ## Lines and texts -/

namespace Text

/-- Joined lines are cut into the same lines, if no line has a line feed in it. -/
theorem lines_unlines {ts : List Text} (hne : ts ≠ []) (h : ∀ t ∈ ts, '\n' ∉ t) :
    (unlines ts).lines = ts :=
  pieces_join hne h

theorem lines_ne_nil (source : Text) : source.lines ≠ [] := pieces_ne_nil '\n' source

theorem not_mem_of_mem_lines {source t : Text} (h : t ∈ source.lines) : '\n' ∉ t :=
  not_mem_of_mem_pieces h

end Text

/-- The sections behind which an empty line is written. -/
def Section.separated : List Section := canonical.filter (· ≠ uncategorized)

/-- The uncategorized lines come last. -/
theorem Section.canonical_eq : canonical = separated ++ [uncategorized] := by decide

/-- All sections but the last are separated. -/
theorem Section.mem_separated {s : Section} : s ∈ separated ↔ s ≠ uncategorized := by
  rw [separated, List.mem_filter, decide_eq_true_eq, and_iff_right (mem_canonical s)]

theorem Section.nodup_separated : separated.Nodup := nodup_canonical.filter _

/-! ## What the runs bring into each section -/

namespace Run

/-- The runs that go to a section. -/
def runsIn (s : Section) (rs : List Run) : List Run := rs.filter fun r => r.destination = s

/-- The texts that a section gets from runs. -/
def textsIn (s : Section) (rs : List Run) : List Text := (runsIn s rs).flatMap texts

/-- The sections with an empty line behind them that get lines from runs. -/
def filled (rs : List Run) : List Section := Section.separated.filter fun s => textsIn s rs ≠ []

/-- The lines before the uncategorized ones in the reordered text. -/
def separatedTexts (rs : List Run) : List Text :=
  (filled rs).flatMap fun s => textsIn s rs ++ [[]]

@[simp] theorem runsIn_append (s : Section) (rs ts : List Run) :
    runsIn s (rs ++ ts) = runsIn s rs ++ runsIn s ts := List.filter_append ..

@[simp] theorem textsIn_append (s : Section) (rs ts : List Run) :
    textsIn s (rs ++ ts) = textsIn s rs ++ textsIn s ts := by
  rw [textsIn, runsIn_append, List.flatMap_append]
  rfl

theorem mem_runsIn {s : Section} {rs : List Run} {r : Run} :
    r ∈ runsIn s rs ↔ r ∈ rs ∧ r.destination = s := by
  rw [runsIn, List.mem_filter, decide_eq_true_eq]

/-- The texts of a section come from the runs that go there. -/
theorem mem_textsIn {s : Section} {rs : List Run} {t : Text} :
    t ∈ textsIn s rs ↔ ∃ r ∈ rs, r.destination = s ∧ t ∈ r.texts := by
  simp only [textsIn, List.mem_flatMap, mem_runsIn, and_assoc]

/-- Where the lines stand decides nothing about the texts of a section. -/
@[simp] theorem textsIn_map_bare (s : Section) (rs : List Run) :
    textsIn s (rs.map bare) = textsIn s rs := by
  rw [textsIn, runsIn, List.filter_map, List.flatMap_map]
  simp only [Function.comp_def, destination_bare, texts_bare]
  rfl

theorem texts_ne_nil (r : Run) : r.texts ≠ [] := by
  simp [texts, lines]

theorem flatMap_texts_map_bare (rs : List Run) :
    (rs.map bare).flatMap texts = rs.flatMap texts := by
  rw [List.flatMap_map]
  apply List.flatMap_congr
  intro r _
  exact texts_bare r

/-- Runs have as many texts as lines. -/
theorem length_flatMap_texts (rs : List Run) :
    (rs.flatMap texts).length = (rs.flatMap lines).length := by
  show (rs.flatMap fun r => r.lines.map fun l => l.line.text).length = _
  rw [← List.map_flatMap, List.length_map]

/-- The texts of all runs are the texts of the lines that were read. -/
theorem flatMap_texts_allFrom (inside : Bool) (ls : List ShapedLine) :
    (allFrom inside ls).flatMap texts = ls.map fun l => l.line.text := by
  conv_rhs => rw [← flatMap_lines_allFrom inside ls]
  rw [List.map_flatMap]
  rfl

/-- If all runs go to one section, it gets all texts and every other section
nothing. -/
theorem textsIn_of_forall {rs : List Run} {c : Section} (h : ∀ r ∈ rs, r.destination = c)
    (s : Section) : textsIn s rs = if s = c then rs.flatMap texts else [] := by
  -- The filter keeps all runs if this is their section, and none otherwise.
  split
  · rename_i hs
    rw [textsIn, runsIn, List.filter_eq_self.mpr]
    intro r hr
    rw [h r hr, hs, decide_eq_true_eq]
  · rename_i hs
    rw [textsIn, runsIn, List.filter_eq_nil_iff.mpr, List.flatMap_nil]
    intro r hr hd
    rw [decide_eq_true_eq, h r hr] at hd
    exact hs hd.symm

/-- Which sections are filled depends on what the runs bring into them only. -/
theorem filled_congr {rs ts : List Run} (h : ∀ s ≠ .uncategorized, textsIn s rs = textsIn s ts) :
    filled rs = filled ts := by
  apply List.filter_congr
  intro s hs
  rw [h s (Section.mem_separated.mp hs)]

/-- The separated sections depend on what the runs bring into them only. -/
theorem separatedTexts_congr {rs ts : List Run}
    (h : ∀ s ≠ .uncategorized, textsIn s rs = textsIn s ts) :
    separatedTexts rs = separatedTexts ts := by
  rw [separatedTexts, separatedTexts, filled_congr h]
  apply List.flatMap_congr
  intro s hs
  rw [h s (Section.mem_separated.mp (List.mem_of_mem_filter hs))]

end Run

/-! ## The arrangement -/

/-- The canonical reading goes through the sections that hold a line. -/
theorem Grouping.canonical_eq_map (g : Grouping) :
    g.canonical = (Section.canonical.filter fun s => g.lines s ≠ []).map fun s =>
      (s, g.lines s) := by
  rw [canonical, List.filter_map]
  congr 1
  apply List.filter_congr
  intro s _
  show (!(g.lines s).isEmpty) = decide (g.lines s ≠ [])
  cases g.lines s with
  | nil => rfl
  | cons l ls => rfl

/-- The lines that the calls of runs put into a section have the texts of the runs. -/
theorem Run.map_text_linesIn (s : Section) (rs : List Run) :
    (Grouping.linesIn s (rs.map call)).map (·.text) = textsIn s rs := by
  induction rs with
  | nil => rfl
  | cons r rs ih =>
    have hhead : (Grouping.linesIn s [r.call]).map (·.text) = textsIn s [r] := by
      -- The lines of the run go to its destination, and to no other section.
      by_cases hs : r.destination = s
      · simp [Grouping.linesIn, textsIn, runsIn, call, texts, hs]
      · have hs' : s ≠ r.destination := fun h => hs h.symm
        simp [Grouping.linesIn, textsIn, runsIn, call, hs, hs']
    calc (Grouping.linesIn s ((r :: rs).map call)).map (·.text)
        = (Grouping.linesIn s [r.call]).map (·.text) ++
            (Grouping.linesIn s (rs.map call)).map (·.text) := by
          simp [Grouping.linesIn]
      _ = textsIn s [r] ++ textsIn s rs := by rw [hhead, ih]
      _ = textsIn s (r :: rs) := by rw [← textsIn_append, List.singleton_append]

namespace Classification

variable (counting : BraceCounting) (source : Text)

/-- A section holds the texts that the runs bring into it. -/
theorem map_text_lines_grouping (s : Section) :
    ((ofSource counting source).grouping.lines s).map (·.text) =
      Run.textsIn s (Run.ofSource counting source) := by
  rw [grouping_ofSource, Grouping.lines_ofCalls, Run.map_text_linesIn]

/-- A section holds a line exactly if some run brings a text into it. -/
theorem lines_grouping_ne_nil_iff (s : Section) :
    (ofSource counting source).grouping.lines s ≠ [] ↔
      Run.textsIn s (Run.ofSource counting source) ≠ [] := by
  rw [← map_text_lines_grouping, ne_eq, ne_eq, List.map_eq_nil_iff]

/-- The sections that hold a line and get an empty line behind them. -/
theorem filter_canonical_grouping :
    ((ofSource counting source).grouping.canonical.filter fun e => e.1 ≠ .uncategorized) =
      (Run.filled (Run.ofSource counting source)).map fun s =>
        (s, (ofSource counting source).grouping.lines s) := by
  rw [Grouping.canonical_eq_map, List.filter_map, List.filter_filter, Run.filled,
    Section.separated, List.filter_filter]
  congr 1
  apply List.filter_congr
  intro s _
  simp only [lines_grouping_ne_nil_iff, Function.comp_apply]
  exact Bool.and_comm _ _

/-- What is written for separated sections: their texts and an empty line. -/
theorem flatMap_written_grouping {secs : List Section} (h : ∀ s ∈ secs, s ≠ .uncategorized) :
    (secs.map fun s => (s, (ofSource counting source).grouping.lines s)).flatMap
        Grouping.written =
      secs.flatMap fun s => Run.textsIn s (Run.ofSource counting source) ++ [[]] := by
  rw [List.flatMap_map]
  apply List.flatMap_congr
  intro s hs
  rw [Grouping.written, map_text_lines_grouping, if_neg (h s hs)]

/-- The lines of a reordered source. -/
theorem arranged_grouping :
    (ofSource counting source).grouping.arranged =
      Run.separatedTexts (Run.ofSource counting source) ++
        Run.textsIn .uncategorized (Run.ofSource counting source) := by
  rw [Grouping.arranged, Grouping.canonical_eq_map, Section.canonical_eq, List.filter_append,
    List.map_append, List.flatMap_append, flatMap_written_grouping]
  · simp only [lines_grouping_ne_nil_iff]
    congr 1
    -- The last section is written without an empty line, if it is written at all.
    by_cases hnone : Run.textsIn .uncategorized (Run.ofSource counting source) = []
    · simp [hnone]
    · simp [hnone, Grouping.written, map_text_lines_grouping]
  · intro s hs
    exact Section.mem_separated.mp (List.mem_of_mem_filter hs)

end Classification

/-- The reordered text of given lines, from the runs of the bare lines. -/
theorem reorder_unlines (counting : BraceCounting) {ts : List Text} (hne : ts ≠ [])
    (h : ∀ t ∈ ts, '\n' ∉ t) :
    reorder counting (Text.unlines ts) =
      Text.unlines (Run.separatedTexts (Run.allFrom false (ShapedLine.ofTexts counting false ts)) ++
        Run.textsIn .uncategorized (Run.allFrom false (ShapedLine.ofTexts counting false ts))) := by
  have hruns := Run.map_bare_ofSource counting (Text.unlines ts)
  rw [Text.lines_unlines hne h] at hruns
  -- The arrangement sees the texts of the runs only, and bare runs have the same.
  rw [reorder, Grouping.render, Classification.arranged_grouping, ← hruns, Run.textsIn_map_bare,
    Run.separatedTexts_congr fun s _ => Run.textsIn_map_bare s _]

/-- Lines whose runs bring the same texts into each section give the same
reordered text. -/
theorem reorder_congr (counting : BraceCounting) {ts us : List Text} (hts : ts ≠ []) (hus : us ≠ [])
    (htline : ∀ t ∈ ts, '\n' ∉ t) (huline : ∀ t ∈ us, '\n' ∉ t)
    (h : ∀ s, Run.textsIn s (Run.allFrom false (ShapedLine.ofTexts counting false ts)) =
      Run.textsIn s (Run.allFrom false (ShapedLine.ofTexts counting false us))) :
    reorder counting (Text.unlines ts) = reorder counting (Text.unlines us) := by
  rw [reorder_unlines counting hts htline, reorder_unlines counting hus huline, h,
    Run.separatedTexts_congr fun s _ => h s]

end MemberOrder
