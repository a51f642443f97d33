import MemberOrder.Proofs.Exchange

/-! # Sources one behind another

A finished source, one in which every construct comes to its end, can be
followed by any other source, and both are classified as if each stood alone.
All that the second one has to know of the first is whether it declared
something; the depth that the first one reached, above zero or below, does not
matter.

The section of a line is read off the runs line by line
(`Classification.sectionOf?_eq_getElem?`), so it is enough that the runs of
the whole are the runs of the two parts (`IsFinished.allFrom_append`).
-/

namespace MemberOrder

namespace Text

/-- A line feed between two texts separates their lines. -/
theorem lines_append (a b : Text) : (a ++ '\n' :: b).lines = a.lines ++ b.lines :=
  pieces_append '\n' a b

end Text

/-! ## Sections line by line -/

namespace Run

/-- The sections of the lines of runs, one line after another. -/
def sectionsOf (rs : List Run) : List Section :=
  rs.flatMap fun r => List.replicate r.lines.length r.destination

theorem sectionsOf_cons (r : Run) (rs : List Run) :
    sectionsOf (r :: rs) = List.replicate r.lines.length r.destination ++ sectionsOf rs := rfl

theorem sectionsOf_append (rs ts : List Run) :
    sectionsOf (rs ++ ts) = sectionsOf rs ++ sectionsOf ts := List.flatMap_append

theorem sectionsOf_map_bare (rs : List Run) : sectionsOf (rs.map bare) = sectionsOf rs := by
  rw [sectionsOf, List.flatMap_map]
  apply List.flatMap_congr
  intro r _
  rw [destination_bare]
  simp [lines, bare]

/-- The sections of the lines of a source, from its texts. -/
theorem sectionsOf_ofSource (counting : BraceCounting) (source : Text) :
    sectionsOf (ofSource counting source) =
      sectionsOf (allFrom false (ShapedLine.ofTexts counting false source.lines)) := by
  rw [← map_bare_ofSource, sectionsOf_map_bare]

/-- There is a section for each line. -/
theorem length_sectionsOf_ofSource (counting : BraceCounting) (source : Text) :
    (sectionsOf (ofSource counting source)).length = source.lines.length := by
  have hlines : (ofSource counting source).flatMap lines = ShapedLine.ofSource counting source :=
    flatMap_lines_allFrom false _
  have hcount : (sectionsOf (ofSource counting source)).length =
      ((ofSource counting source).flatMap lines).length := by
    rw [sectionsOf, List.length_flatMap, List.length_flatMap]
    simp only [List.length_replicate]
  rw [hcount, hlines, ← ShapedLine.map_text_ofSource counting source, List.length_map]

/-- The lines of runs, each as its index and its section. -/
def placed (rs : List Run) : List (Nat × Section) :=
  rs.flatMap fun r => r.lines.map fun l => (l.line.index, r.destination)

/-- The placed lines have the sections of the runs. -/
theorem map_snd_placed (rs : List Run) : (placed rs).map (·.2) = sectionsOf rs := by
  rw [placed, List.map_flatMap]
  apply List.flatMap_congr
  intro r _
  rw [List.map_map]
  exact List.map_const' ..

/-- The indices count up, so the place of a line in a source is its index. -/
theorem map_fst_placed (counting : BraceCounting) (source : Text) :
    (placed (ofSource counting source)).map (·.1) = List.range (Line.ofSource source).length := by
  rw [← Line.map_index_ofSource, ← allLines_ofSource counting source, allLines_map_call,
    List.map_map, placed, List.map_flatMap, List.map_flatMap]
  apply List.flatMap_congr
  intro r _
  rw [List.map_map]
  rfl

end Run

namespace Classification

variable (counting : BraceCounting) (source : Text)

/-- The section that is found for an index is the one that the runs give to
the line in this place. -/
theorem sectionOf?_eq_getElem? (i : Nat) :
    (ofSource counting source).grouping.sectionOf? i =
      (Run.sectionsOf (Run.ofSource counting source))[i]? := by
  have hlines : (Line.ofSource source).length = source.lines.length :=
    Line.length_number 0 0 source.lines
  -- An index of a line, which belongs to some run, or one behind the last line.
  by_cases hi : i < source.lines.length
  · have hplace : i < (Run.placed (Run.ofSource counting source)).length := by
      rw [← List.length_map (f := fun p : Nat × Section => p.2), Run.map_snd_placed,
        Run.length_sectionsOf_ofSource]
      exact hi
    have hindex : (Run.placed (Run.ofSource counting source))[i].1 = i := by
      have hget := congrArg (fun is => is[i]?) (Run.map_fst_placed counting source)
      simp only [List.getElem?_map, List.getElem?_eq_getElem hplace,
        List.getElem?_range (hlines ▸ hi)] at hget
      exact Option.some.inj hget
    obtain ⟨r, hr, hmem⟩ := List.mem_flatMap.mp (List.getElem_mem hplace)
    obtain ⟨l, hl, hpair⟩ := List.mem_map.mp hmem
    rw [← hpair] at hindex
    rw [← Run.map_snd_placed, List.getElem?_map, List.getElem?_eq_getElem hplace, ← hpair,
      ← hindex]
    exact sectionOf?_of_mem hr hl
  · have hnone : (ofSource counting source).grouping.sectionOf? i = none := by
      rw [← Option.not_isSome_iff_eq_none, isSome_sectionOf?_grouping_iff, hlines]
      exact hi
    rw [hnone, List.getElem?_eq_none]
    rw [Run.length_sectionsOf_ofSource]
    omega

end Classification

/-! ## Finished sources -/

/-- A source in which every construct comes to its end and, in lexical counting,
the last line does not end inside a comment. The braces need not balance. -/
structure IsFinished (counting : BraceCounting) (source : Text) : Prop where
  complete : ∀ r ∈ Run.ofSource counting source, r.complete = true
  outside : counting = .lexical → Shape.commentAfter .lexical false source.lines = false

namespace IsFinished

variable {counting : BraceCounting} {a : Text}

/-- Whether the source declares something is all that counts for what follows
it. -/
theorem allFrom_append (h : IsFinished counting a) (b : Text) :
    Run.allFrom false (ShapedLine.ofTexts counting false (a ++ '\n' :: b).lines) =
      Run.allFrom false (ShapedLine.ofTexts counting false a.lines) ++
        Run.allFrom ((Run.ofSource counting a).any Run.isDeclaration)
          (ShapedLine.ofTexts counting false b.lines) := by
  have hcomplete : ∀ r ∈ Run.allFrom false (ShapedLine.ofTexts counting false a.lines),
      r.complete = true := by
    rw [← Run.map_bare_ofSource]
    intro r hr
    obtain ⟨q, hq, rfl⟩ := List.mem_map.mp hr
    exact h.complete q hq
  have hdeclares : (Run.allFrom false (ShapedLine.ofTexts counting false a.lines)).any
      Run.isDeclaration = (Run.ofSource counting a).any Run.isDeclaration := by
    rw [← Run.map_bare_ofSource, List.any_map]
    rfl
  rw [Text.lines_append, ShapedLine.ofTexts_append, Shape.commentAfter_of_lexical h.outside,
    Run.allFrom_append hcomplete, hdeclares, Bool.false_or]

/-- The sections of the lines of the whole are those of the first source and
those of the second, read with what the first declared. -/
theorem sectionsOf_append (h : IsFinished counting a) (b : Text) :
    Run.sectionsOf (Run.ofSource counting (a ++ '\n' :: b)) =
      Run.sectionsOf (Run.ofSource counting a) ++
        Run.sectionsOf (Run.allFrom ((Run.ofSource counting a).any Run.isDeclaration)
          (ShapedLine.ofTexts counting false b.lines)) := by
  rw [Run.sectionsOf_ofSource, h.allFrom_append, Run.sectionsOf_append, ← Run.sectionsOf_ofSource]

/-- Where the lines of the whole are found. -/
theorem sectionOf?_append (h : IsFinished counting a) (b : Text) :
    (∀ i < a.lines.length,
      (Classification.ofSource counting (a ++ '\n' :: b)).grouping.sectionOf? i =
        (Classification.ofSource counting a).grouping.sectionOf? i) ∧
      ∀ j, (Classification.ofSource counting (a ++ '\n' :: b)).grouping.sectionOf?
          (a.lines.length + j) =
        (Run.sectionsOf (Run.allFrom ((Run.ofSource counting a).any Run.isDeclaration)
          (ShapedLine.ofTexts counting false b.lines)))[j]? := by
  simp only [Classification.sectionOf?_eq_getElem?, h.sectionsOf_append]
  constructor
  · -- Up to the seam the list is that of the first source.
    intro i hi
    rw [List.getElem?_append_left]
    rw [Run.length_sectionsOf_ofSource]
    exact hi
  · -- Behind the seam the places of the second source start anew.
    intro j
    rw [← Run.length_sectionsOf_ofSource counting a, List.getElem?_append_right (by omega),
      Nat.add_sub_cancel_left]

end IsFinished

/-- Behind a line `contract` the lines of a source are read inside a body. -/
theorem Classification.sectionOf?_contract (counting : BraceCounting) (b : Text) (j : Nat) :
    (ofSource counting ("contract".toList ++ '\n' :: b)).grouping.sectionOf? (j + 1) =
      (Run.sectionsOf (Run.allFrom true (ShapedLine.ofTexts counting false b.lines)))[j]? := by
  have hlines : Text.lines ("contract".toList ++ '\n' :: b) = ("contract" : Text) :: b.lines := by
    rw [Text.lines_append]
    rfl
  obtain ⟨r, -, hlen, hruns⟩ := Run.allFrom_contract counting b.lines
  rw [sectionOf?_eq_getElem?, Run.sectionsOf_ofSource, hlines, hruns, Run.sectionsOf_cons, hlen]
  rfl

/-- **Classification composes.** Behind a finished source, the lines of a second
source go to the sections where they go by themselves or, if the first source
declares something, to those where they go behind a line `contract`; the lines
of the first source go where they go anyway. In particular it makes no
difference which of two finished sources stands in front, whatever depths they
reach, as long as both declare something or neither does. -/
theorem sectionOf?_concatenation (counting : BraceCounting) (a b : Text)
    (h : IsFinished counting a) :
    let sectionIn := fun source => (Classification.ofSource counting source).grouping.sectionOf?
    let declares := fun source => ∃ r ∈ Run.ofSource counting source, r.isDeclaration = true
    (∀ i < a.lines.length, sectionIn (a ++ '\n' :: b) i = sectionIn a i) ∧
      (¬ declares a → ∀ j, sectionIn (a ++ '\n' :: b) (a.lines.length + j) = sectionIn b j) ∧
      (declares a → ∀ j, sectionIn (a ++ '\n' :: b) (a.lines.length + j) =
        sectionIn ("contract".toList ++ '\n' :: b) (j + 1)) ∧
      ∀ a', IsFinished counting a' → (declares a ↔ declares a') →
        ∀ j, sectionIn (a ++ '\n' :: b) (a.lines.length + j) =
          sectionIn (a' ++ '\n' :: b) (a'.lines.length + j) := by
  intro sectionIn declares
  have hany : ∀ source, (Run.ofSource counting source).any Run.isDeclaration = true ↔
      declares source := by
    intro source
    exact List.any_eq_true
  obtain ⟨hfirst, hsecond⟩ := h.sectionOf?_append b
  refine ⟨hfirst, ?_, ?_, ?_⟩
  · intro hdecl j
    have hflag : (Run.ofSource counting a).any Run.isDeclaration = false := by
      rw [← Bool.not_eq_true, hany]
      exact hdecl
    have hj := hsecond j
    rw [hflag, ← Run.sectionsOf_ofSource, ← Classification.sectionOf?_eq_getElem?] at hj
    exact hj
  · intro hdecl j
    have hj := hsecond j
    rw [(hany a).mpr hdecl, ← Classification.sectionOf?_contract] at hj
    exact hj
  · -- Only the flag of the first source goes into what is found behind it.
    intro a' h' hdecl j
    have hflag : (Run.ofSource counting a).any Run.isDeclaration =
        (Run.ofSource counting a').any Run.isDeclaration := by
      rw [Bool.eq_iff_iff, hany, hany]
      exact hdecl
    have hj := hsecond j
    rw [hflag, ← (h'.sectionOf?_append b).2 j] at hj
    exact hj

/-- A body that is closed once too often, and then a function and an event. -/
theorem sectionOf?_concatenation_below_zero :
    let a : Text := "contract A \x7b // \x7b\n\x7d \x7d\n/* \x7b */"
    let b : Text := "function f() private \x7b\n\x7d\nevent E();"
    IsFinished .lexical a ∧ (∃ r ∈ Run.ofSource .lexical a, r.isDeclaration = true) ∧
      Run.finalDepth (Run.ofSource .lexical a) = -1 ∧
      (Classification.ofSource .lexical (a ++ '\n' :: b)).grouping.sectionOf? (3 + 1) =
        some .privateFunctions := by
  intro a b
  have hfinished : IsFinished .lexical a := by
    refine ⟨?_, fun _ => ?_⟩ <;> decide +kernel
  have hdeclares : ∃ r ∈ Run.ofSource .lexical a, r.isDeclaration = true := by decide +kernel
  have hsections := sectionOf?_concatenation .lexical a b hfinished
  refine ⟨hfinished, hdeclares, by decide +kernel, (hsections.2.2.1 hdeclares 1).trans ?_⟩
  decide +kernel

end MemberOrder
