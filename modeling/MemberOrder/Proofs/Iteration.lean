import Mathlib.Data.List.TakeWhile
import Mathlib.Logic.Function.Iterate
import MemberOrder.Proofs.Layout

/-! # Reordering again

A reordered text can be reordered again. If every construct came to its end,
the second pass finds the same runs in each section, and the empty lines
between the sections are uncategorized. So each pass moves the empty lines of
the pass before to the uncategorized lines and writes others in their place
(`lines_iterate_reorder`). -/

namespace MemberOrder

/-! ## The text after some passes -/

namespace Run

theorem mem_flatMap_texts_of_mem_textsIn {s : Section} {rs : List Run} {t : Text}
    (h : t ∈ textsIn s rs) : t ∈ rs.flatMap texts := by
  obtain ⟨r, hr, -, ht⟩ := mem_textsIn.mp h
  exact List.mem_flatMap.mpr ⟨r, hr, ht⟩

/-- The separated sections hold lines of the runs, and empty lines. -/
theorem mem_separatedTexts {rs : List Run} {t : Text} (h : t ∈ separatedTexts rs) :
    t = [] ∨ t ∈ rs.flatMap texts := by
  obtain ⟨s, -, ht⟩ := List.mem_flatMap.mp h
  rcases List.mem_append.mp ht with ht | ht
  · exact .inr (mem_flatMap_texts_of_mem_textsIn ht)
  · exact .inl (List.mem_singleton.mp ht)

/-- The lines of the text after some more passes: the empty lines of every
pass but the last stand in front of the uncategorized lines. -/
def gathered (rs : List Run) (n : Nat) : List Text :=
  separatedTexts rs ++
    (List.replicate (n * (filled rs).length) [] ++ textsIn .uncategorized rs)

/-- There is always a line, since every run brings one. -/
theorem gathered_ne_nil {rs : List Run} (h : rs ≠ []) (n : Nat) : gathered rs n ≠ [] := by
  obtain ⟨r, hr⟩ := List.exists_mem_of_ne_nil _ h
  -- An uncategorized run brings its text, and any other its text and an empty line.
  by_cases hdest : r.destination = .uncategorized
  · obtain ⟨t, ht⟩ := List.exists_mem_of_ne_nil _ (texts_ne_nil r)
    have hmem : t ∈ textsIn .uncategorized rs := mem_textsIn.mpr ⟨r, hr, hdest, ht⟩
    exact List.ne_nil_of_mem (List.mem_append_right _ (List.mem_append_right _ hmem))
  · have hmem : [] ∈ separatedTexts rs :=
      List.mem_flatMap.mpr ⟨_, destination_mem_filled hr hdest, List.mem_append_right _ (by simp)⟩
    exact List.ne_nil_of_mem (List.mem_append_left _ hmem)

/-- No line that is written has a line feed in it. -/
theorem not_mem_of_mem_gathered {rs : List Run} (h : ∀ t ∈ rs.flatMap texts, '\n' ∉ t) {n : Nat}
    {t : Text} (ht : t ∈ gathered rs n) : '\n' ∉ t := by
  simp only [gathered, List.mem_append, List.mem_replicate] at ht
  rcases ht with ht | ⟨-, rfl⟩ | ht
  · rcases mem_separatedTexts ht with rfl | hmem
    · exact List.not_mem_nil
    · exact h t hmem
  · exact List.not_mem_nil
  · exact h t (mem_flatMap_texts_of_mem_textsIn ht)

theorem gathered_map_bare (rs : List Run) (n : Nat) :
    gathered (rs.map bare) n = gathered rs n := by
  have hsame : ∀ s ≠ .uncategorized, textsIn s (rs.map bare) = textsIn s rs := fun s _ =>
    textsIn_map_bare s rs
  rw [gathered, separatedTexts_congr hsame, filled_congr hsame, textsIn_map_bare]
  rfl

/-! ## Where a run stands in its source -/

variable {counting : BraceCounting} {source : Text} {before after : List Run} {r : Run}

/-- The runs of a source have its lines. -/
theorem flatMap_texts_ofSource (counting : BraceCounting) (source : Text) :
    (ofSource counting source).flatMap texts = source.lines := by
  rw [ofSource, flatMap_texts_allFrom, ShapedLine.map_text_ofSource]

/-- A source has at least one run, since it has at least one line. -/
theorem ofSource_ne_nil (counting : BraceCounting) (source : Text) :
    ofSource counting source ≠ [] := by
  intro hnil
  have htexts := flatMap_texts_ofSource counting source
  rw [hnil] at htexts
  exact Text.lines_ne_nil source htexts.symm

/-- The lines of the source before a run, in it and behind it. -/
theorem lines_split (h : ofSource counting source = before ++ r :: after) :
    source.lines = before.flatMap texts ++ (r.texts ++ after.flatMap texts) := by
  rw [← flatMap_texts_ofSource counting source, h, List.flatMap_append, List.flatMap_cons]

/-- If there is a declaration, but neither up to a run nor in it, the run opens
on a line before the first declaration. -/
theorem exists_firstDeclaration? (h : ofSource counting source = before ++ r :: after)
    (hbefore : before.any isDeclaration = false) (hr : r.isDeclaration = false)
    (hany : (ofSource counting source).any isDeclaration = true) :
    ∃ d, firstDeclaration? (ofSource counting source) = some d ∧
      r.opener.line.index < d.index := by
  have hfirst : firstDeclaration? (ofSource counting source) =
      (after.find? isDeclaration).map fun q => q.opener.line := by
    have hnone : before.find? isDeclaration = none := by
      rw [List.find?_eq_none]
      exact fun q hq => List.any_eq_false.mp hbefore q hq
    rw [firstDeclaration?, body, ← List.find?_eq_head?_dropWhile_not, h, List.find?_append, hnone,
      Option.none_or, List.find?_cons, hr]
  rw [h, List.any_append, hbefore, List.any_cons, hr, Bool.false_or, Bool.false_or,
    List.any_eq_true, ← List.find?_isSome, Option.isSome_iff_exists] at hany
  obtain ⟨d, hd⟩ := hany
  rw [hd] at hfirst
  refine ⟨d.opener.line, hfirst, ?_⟩
  -- The index of a run counts the lines before it, and those before `d` include the run.
  obtain ⟨-, between, tail, hafter, -⟩ := List.find?_eq_some_iff_append.mp hd
  have hsplit : ofSource counting source = (before ++ r :: between) ++ d :: tail := by
    rw [h, hafter, List.append_assoc, List.cons_append]
  rw [index_opener h, index_opener hsplit, List.flatMap_append, List.flatMap_cons,
    List.length_append, List.length_append]
  have hpos : 0 < r.lines.length := Nat.succ_pos _
  omega

/-- Where the texts of a run stand in the source. -/
theorem take_lines (h : ofSource counting source = before ++ r :: after) :
    source.lines.take r.opener.line.index = before.flatMap texts ∧
      source.lines.take (r.opener.line.index + r.lines.length) =
        before.flatMap texts ++ r.texts := by
  have hlen : r.texts.length = r.lines.length := List.length_map _
  rw [lines_split h, index_opener h, ← length_flatMap_texts, ← hlen, ← List.length_append]
  refine ⟨List.take_left, ?_⟩
  rw [← List.append_assoc]
  exact List.take_left

/-- The shapes of a run are those of its texts, read from where the lines
before it end. -/
theorem lines_bare (h : ofSource counting source = before ++ r :: after) :
    r.bare.lines =
      ShapedLine.ofTexts counting (Shape.commentAfter counting false (before.flatMap texts))
        r.texts := by
  have hbare := ShapedLine.map_bare_ofSource counting source
  rw [ofSource_split h, lines_split h, ShapedLine.ofTexts_append, ShapedLine.ofTexts_append,
    List.map_append] at hbare
  -- Both sides are three pieces of the same lengths; the run is the middle one.
  have hbehind := List.append_inj_right hbare
    (by rw [List.length_map, ShapedLine.length_ofTexts, length_flatMap_texts])
  rw [← List.cons_append, List.map_append] at hbehind
  have hlen : (r.lines.map ShapedLine.bare).length = r.texts.length := by
    rw [List.length_map, texts, List.length_map]
  exact List.append_inj_left hbehind (by rw [ShapedLine.length_ofTexts]; exact hlen)

end Run

/-! ## Sources that can be reordered again -/

/-- A source that can be reordered again: every construct comes to its end,
the uncategorized lines before the first declaration would open nothing behind
it either, and, in lexical counting, no line of a separated section shares a
block comment with the lines around its construct. -/
structure IsSettled (counting : BraceCounting) (source : Text) : Prop where
  complete : ∀ r ∈ Run.ofSource counting source, r.complete = true
  plain : ∀ d, Run.firstDeclaration? (Run.ofSource counting source) = some d →
    ∀ l ∈ (Classification.ofSource counting source).grouping.lines .uncategorized,
      l.index < d.index → Construct.first? true l.stripped = none
  outside : counting = .lexical → ∀ r ∈ Run.ofSource counting source,
    r.destination ≠ .uncategorized →
      Shape.commentAfter .lexical false (source.lines.take r.opener.line.index) = false ∧
        Shape.commentAfter .lexical false
          (source.lines.take (r.opener.line.index + r.lines.length)) = false

namespace IsSettled

variable {counting : BraceCounting} {source : Text}

/-- Every run could stand behind the first declaration. -/
theorem closed (h : IsSettled counting source) :
    ∀ r ∈ Run.ofSource counting source,
      r.Closed ((Run.ofSource counting source).any Run.isDeclaration) := by
  intro r hr
  obtain ⟨before, after, hsplit⟩ := List.append_of_mem hr
  have hchain : Run.Chain false (Run.ofSource counting source) := Run.chain_allFrom h.complete
  rw [hsplit, Run.chain_append, Bool.false_or] at hchain
  have hclosed : r.Closed (before.any Run.isDeclaration) := hchain.2.1
  -- Behind a declaration already, or before all of them.
  cases hbefore : before.any Run.isDeclaration with
  | true =>
    rw [hbefore] at hclosed
    rwa [hsplit, List.any_append, hbefore, Bool.true_or]
  | false =>
    rw [hbefore] at hclosed
    by_cases houter : r.destination ∈ Section.outer
    · exact hclosed.of_mem_outer houter _
    · -- Outside a body a run of no outer section opens nothing.
      have hnone := hclosed.construct?_eq_none houter
      refine ⟨?_, hclosed.reach_eq, hclosed.complete⟩
      cases hany : (Run.ofSource counting source).any Run.isDeclaration with
      | false => exact hclosed.construct_eq
      | true =>
        have hdecl : r.isDeclaration = false := by
          rw [Run.isDeclaration, hnone]
          rfl
        obtain ⟨d, hd, hlt⟩ := Run.exists_firstDeclaration? hsplit hbefore hdecl hany
        have hmem := Classification.mem_lines_grouping hr (l := r.opener) List.mem_cons_self
        rw [(Run.destination_eq_uncategorized_iff r).mpr hnone] at hmem
        rw [hnone, h.plain d hd _ hmem hlt]

/-- The separated runs of a settled source start and end outside a comment. -/
theorem clean (h : IsSettled counting source) :
    ∀ r ∈ Run.ofSource counting source, r.destination ≠ .uncategorized →
      r.bare.Clean counting := by
  intro r hr hdest
  obtain ⟨before, after, hsplit⟩ := List.append_of_mem hr
  obtain ⟨htake, htake'⟩ := Run.take_lines hsplit
  have hoff := fun hlexical => h.outside hlexical r hr hdest
  rw [htake, htake'] at hoff
  have hfirst : Shape.commentAfter counting false (before.flatMap Run.texts) = false :=
    Shape.commentAfter_of_lexical fun hlexical => (hoff hlexical).1
  have hlast : Shape.commentAfter counting false (before.flatMap Run.texts ++ r.texts) = false :=
    Shape.commentAfter_of_lexical fun hlexical => (hoff hlexical).2
  rw [Shape.commentAfter_append, hfirst] at hlast
  have hlines := Run.lines_bare hsplit
  rw [hfirst] at hlines
  refine ⟨?_, ?_⟩
  · rw [hlines, Run.texts_bare]
  · rwa [Run.texts_bare]

/-- The runs of a settled source can be moved. -/
theorem movable (h : IsSettled counting source) :
    Run.Movable counting ((Run.ofSource counting source).map Run.bare) := by
  have hany : ((Run.ofSource counting source).map Run.bare).any Run.isDeclaration =
      (Run.ofSource counting source).any Run.isDeclaration := by
    rw [List.any_map]
    rfl
  constructor
  · intro r hr
    obtain ⟨q, hq, rfl⟩ := List.mem_map.mp hr
    rw [hany]
    exact (h.closed q hq).bare
  · intro r hr hdest
    obtain ⟨q, hq, rfl⟩ := List.mem_map.mp hr
    rw [Run.destination_bare] at hdest
    exact h.clean q hq hdest

end IsSettled

/-! ## Reordering again and again -/

/-- What one more pass does to a text that is laid out already, pass by pass. -/
theorem iterate_reorder_gathered {counting : BraceCounting} {rs : List Run}
    (h : Run.Movable counting rs) (hne : rs ≠ []) (hline : ∀ t ∈ rs.flatMap Run.texts, '\n' ∉ t)
    (n : Nat) :
    (reorder counting)^[n] (Text.unlines (Run.gathered rs 0)) =
      Text.unlines (Run.gathered rs n) := by
  induction n with
  | zero => rfl
  | succ n ih =>
    -- The empty lines that have gathered so far open nothing, inside a body or outside.
    have hplain : ∀ t ∈ List.replicate (n * (Run.filled rs).length) ([] : Text) ++
        Run.textsIn .uncategorized rs,
        Construct.first? (rs.any Run.isDeclaration) (Text.trim t) = none := by
      intro t ht
      rcases List.mem_append.mp ht with ht | ht
      · rw [List.eq_of_mem_replicate ht]
        exact Construct.first?_nil _
      · exact h.first?_eq_none ht
    have hpass := reorder_separatedTexts h hplain (Run.gathered_ne_nil hne n)
      fun t ht => Run.not_mem_of_mem_gathered hline ht
    rw [← List.append_assoc (List.replicate _ _), ← List.replicate_add, Nat.add_comm,
      ← Nat.succ_mul] at hpass
    rw [Function.iterate_succ_apply', ih]
    exact hpass

/-- **Reordering again and again.** The first pass writes the separated
sections, each with an empty line behind it, and then the uncategorized lines.
Every further pass writes the same lines, and in front of the uncategorized
ones as many empty lines more as there are separated sections. -/
theorem lines_iterate_reorder (counting : BraceCounting) (source : Text)
    (h : IsSettled counting source) (n : Nat) :
    let g := (Classification.ofSource counting source).grouping
    let separated := g.canonical.filter fun e => e.1 ≠ .uncategorized
    ((reorder counting)^[n + 1] source).lines =
      separated.flatMap Grouping.written ++ List.replicate (n * separated.length) [] ++
        (g.lines .uncategorized).map (·.text) := by
  intro g separated
  -- The first pass gives the lines that the others start from.
  have hfirst : reorder counting source =
      Text.unlines (Run.gathered ((Run.ofSource counting source).map Run.bare) 0) := by
    rw [reorder, Grouping.render, Classification.arranged_grouping, Run.gathered_map_bare,
      Run.gathered, Nat.zero_mul, List.replicate_zero, List.nil_append]
  have hseparated : separated = (Run.filled (Run.ofSource counting source)).map fun s =>
      (s, g.lines s) := Classification.filter_canonical_grouping counting source
  have hwritten : separated.flatMap Grouping.written =
      Run.separatedTexts (Run.ofSource counting source) := by
    rw [hseparated, Classification.flatMap_written_grouping]
    · rfl
    · intro s hs
      exact (Run.mem_filled.mp hs).1
  have hne : (Run.ofSource counting source).map Run.bare ≠ [] := by
    rw [ne_eq, List.map_eq_nil_iff]
    exact Run.ofSource_ne_nil counting source
  have hline : ∀ t ∈ ((Run.ofSource counting source).map Run.bare).flatMap Run.texts,
      '\n' ∉ t := by
    rw [Run.flatMap_texts_map_bare, Run.flatMap_texts_ofSource]
    intro t ht
    exact Text.not_mem_of_mem_lines ht
  rw [Function.iterate_succ_apply, hfirst, iterate_reorder_gathered h.movable hne hline,
    Text.lines_unlines (Run.gathered_ne_nil hne n) fun t ht => Run.not_mem_of_mem_gathered hline ht,
    Run.gathered_map_bare, Run.gathered, hwritten, hseparated, List.length_map,
    Classification.map_text_lines_grouping, List.append_assoc]

/-- A comment before the declaration, braces in comments, a function with a
block in it and a header behind the body, reordered twice. -/
theorem lines_iterate_reorder_header_behind_body :
    IsSettled .lexical (Text.unlines ["/* kept", "*/", "contract A \x7b", "  uint x; /* \x7b */",
        "  function f() external \x7b", "    if (a) \x7b b(); \x7d", "  \x7d", "\x7d",
        "pragma solidity ^0.8.0;"]) ∧
      ((reorder .lexical)^[2] (Text.unlines ["/* kept", "*/", "contract A \x7b",
        "  uint x; /* \x7b */", "  function f() external \x7b", "    if (a) \x7b b(); \x7d",
        "  \x7d", "\x7d", "pragma solidity ^0.8.0;"])).lines =
        ["pragma solidity ^0.8.0;", "", "contract A \x7b", "", "  uint x; /* \x7b */", "",
          "  function f() external \x7b", "    if (a) \x7b b(); \x7d", "  \x7d", "",
          "", "", "", "", "/* kept", "*/", "\x7d"] := by
  have hsettled : IsSettled .lexical (Text.unlines ["/* kept", "*/", "contract A \x7b",
      "  uint x; /* \x7b */", "  function f() external \x7b", "    if (a) \x7b b(); \x7d",
      "  \x7d", "\x7d", "pragma solidity ^0.8.0;"]) := by
    refine ⟨by decide +kernel, ?_, fun _ => by decide +kernel⟩
    intro d hd
    have hfirst : d = ⟨2, 11, "contract A \x7b"⟩ := by
      apply Option.some.inj
      rw [← hd]
      decide +kernel
    subst hfirst
    decide +kernel
  have hlines := lines_iterate_reorder .lexical _ hsettled 1
  refine ⟨hsettled, hlines.trans ?_⟩
  decide +kernel

end MemberOrder
