import MemberOrder.Proofs.Construct
import MemberOrder.Proofs.Reordering

/-! # Laying runs out by section

A closed run is read in the same way wherever it stands, as long as what it
opens is looked for there. So runs can be laid out section by section, with an
empty line behind each section, and reading the lines gives the runs back: the
declarations come early enough to open the body for the members behind them.
Only the empty lines are new, and they belong nowhere. One more pass therefore
changes nothing else (`reorder_separatedTexts`). -/

namespace MemberOrder

/-! ## Sections of runs -/

namespace Section

/-- The sections of the constructs that are looked for everywhere. -/
def outer : List Section := [header, imports, declaration]

/-- The sections of the members of a body. -/
def inner : List Section := separated.filter (· ∉ outer)

theorem separated_eq : separated = outer ++ inner := by decide

theorem ne_uncategorized_of_mem_outer {s : Section} (h : s ∈ outer) : s ≠ uncategorized := by
  rintro rfl
  simp [outer] at h

/-- Functions are members of a body. -/
theorem not_mem_outer_of_holdsFunctions {s : Section} (h : s.holdsFunctions = true) :
    s ∉ outer := by
  intro hs
  simp only [outer, List.mem_cons, List.not_mem_nil, or_false] at hs
  rcases hs with rfl | rfl | rfl <;> cases h

end Section

namespace Run

/-- Only a line that opens nothing is uncategorized. -/
theorem destination_eq_uncategorized_iff (r : Run) :
    r.destination = .uncategorized ↔ r.construct? = none := by
  have hfunction := holdsFunctions_functionSection r.texts
  rw [destination_eq]
  cases r.construct? with
  | none => simp
  | some c =>
    constructor
    · intro h
      -- A function goes to a section of functions; all others have a section of their own.
      cases c with
      | function =>
        have hsection : functionSection r.texts = .uncategorized := h
        rw [hsection] at hfunction
        cases hfunction
      | _ => cases h
    · intro h
      cases h

/-- The outer sections are those of the constructs that are looked for everywhere. -/
theorem destination_mem_outer_iff {r : Run} {c : Construct} (h : r.construct? = some c) :
    r.destination ∈ Section.outer ↔ c.standsOutside = true := by
  have hfunction := holdsFunctions_functionSection r.texts
  rw [destination_eq, h]
  cases c with
  | function =>
    exact iff_of_false (Section.not_mem_outer_of_holdsFunctions hfunction) Bool.false_ne_true
  | _ => simp [Section.outer, Construct.section?, Construct.standsOutside]

/-- Declarations go to an outer section. -/
theorem destination_mem_outer_of_isDeclaration {r : Run} (h : r.isDeclaration = true) :
    r.destination ∈ Section.outer :=
  (destination_mem_outer_iff (eq_of_beq h)).mpr rfl

theorem destination_ne_uncategorized_of_isDeclaration {r : Run} (h : r.isDeclaration = true) :
    r.destination ≠ .uncategorized :=
  Section.ne_uncategorized_of_mem_outer (destination_mem_outer_of_isDeclaration h)

/-! ## Closed runs elsewhere -/

/-- A run is closed whatever place it has. -/
theorem Closed.bare {inside : Bool} {r : Run} (h : r.Closed inside) : r.bare.Closed inside := by
  refine ⟨h.construct_eq, ?_, h.complete⟩
  have hreach := Extent.reach_map_bare (extentOf r.construct?) (.start r.opener.shape) r.rest
  rw [h.reach_eq] at hreach
  exact hreach

/-- A closed run of an outer section is closed inside a body and outside. -/
theorem Closed.of_mem_outer {inside : Bool} {r : Run} (h : r.Closed inside)
    (houter : r.destination ∈ Section.outer) (inside' : Bool) : r.Closed inside' := by
  -- Without a construct the run would be uncategorized, and that is no outer section.
  cases hconstruct : r.construct? with
  | none =>
    have hdest := (destination_eq_uncategorized_iff r).mpr hconstruct
    exact absurd hdest (Section.ne_uncategorized_of_mem_outer houter)
  | some c =>
    have hc := (destination_mem_outer_iff hconstruct).mp houter
    have hopens := h.construct_eq
    rw [hconstruct] at hopens
    refine ⟨?_, h.reach_eq, h.complete⟩
    rw [hconstruct, Construct.first?_of_standsOutside hopens.symm hc inside']

/-- Outside a body only the outer sections get lines with a construct. -/
theorem Closed.construct?_eq_none {r : Run} (h : r.Closed false)
    (houter : r.destination ∉ Section.outer) : r.construct? = none := by
  cases hconstruct : r.construct? with
  | none => rfl
  | some c =>
    have hopens := h.construct_eq
    rw [hconstruct] at hopens
    have hc := Construct.standsOutside_of_first?_false hopens.symm
    exact absurd ((destination_mem_outer_iff hconstruct).mpr hc) houter

/-- An uncategorized run is one line. -/
theorem Closed.rest_eq_nil {inside : Bool} {r : Run} (h : r.Closed inside)
    (hnone : r.construct? = none) : r.rest = [] := by
  have hreach := h.reach_eq
  rw [hnone] at hreach
  have hline : (extentOf none).reach (.start r.opener.shape) r.rest = ⟨[], r.rest, true⟩ :=
    Extent.reach_line ..
  rw [hline] at hreach
  exact congrArg Extent.Reach.left hreach

/-- The run of a line that opens nothing. -/
def single (l : ShapedLine) : Run := ⟨none, l, [], true⟩

/-- A line that opens nothing is a closed run. -/
theorem closed_single {inside : Bool} {l : ShapedLine}
    (h : Construct.first? inside l.line.stripped = none) : (single l).Closed inside :=
  ⟨h.symm, Extent.reach_line .., rfl⟩

/-- Lines that open nothing are runs by themselves. -/
theorem allFrom_of_forall_none {inside : Bool} {ls : List ShapedLine}
    (h : ∀ l ∈ ls, Construct.first? inside l.line.stripped = none) :
    allFrom inside ls = ls.map single := by
  have hchain : Chain inside (ls.map single) := by
    -- Every line is closed by itself, and none of them is a declaration.
    apply chain_of_forall
    · intro r hr
      obtain ⟨l, hl, rfl⟩ := List.mem_map.mp hr
      exact closed_single (h l hl)
    · intro hdecl
      obtain ⟨r, hr, hdecl⟩ := List.any_eq_true.mp hdecl
      obtain ⟨l, -, rfl⟩ := List.mem_map.mp hr
      cases hdecl
  have hlines : (ls.map single).flatMap lines = ls := by
    rw [List.flatMap_map]
    exact List.flatMap_singleton' ls
  have hread := allFrom_flatMap_append hchain []
  rwa [hlines, List.append_nil, allFrom_nil, List.append_nil] at hread

/-! ## Clean runs -/

/-- A run that starts and ends outside a comment: its shapes are those of its
texts read from outside a comment, and they leave no comment open. -/
structure Clean (counting : BraceCounting) (r : Run) : Prop where
  lines_eq : r.lines = ShapedLine.ofTexts counting false r.texts
  outside : Shape.commentAfter counting false r.texts = false

/-- The texts of clean runs have the shapes of the runs. -/
theorem ofTexts_flatMap_append {counting : BraceCounting} {rs : List Run}
    (h : ∀ r ∈ rs, r.Clean counting) (ts : List Text) :
    ShapedLine.ofTexts counting false (rs.flatMap texts ++ ts) =
      rs.flatMap lines ++ ShapedLine.ofTexts counting false ts := by
  induction rs with
  | nil => rfl
  | cons r rs ih =>
    have hr := h r List.mem_cons_self
    have hrs := ih fun q hq => h q (List.mem_cons_of_mem _ hq)
    rw [List.flatMap_cons, List.append_assoc, ShapedLine.ofTexts_append, hr.outside, hrs,
      ← hr.lines_eq, List.flatMap_cons, List.append_assoc]

/-- The run of an empty line. -/
def blank (counting : BraceCounting) : Run := single ⟨⟨0, 0, []⟩, (Shape.scan counting false []).1⟩

/-- An empty line opens nothing anywhere. -/
theorem closed_blank (counting : BraceCounting) (inside : Bool) :
    (blank counting).Closed inside :=
  closed_single (Construct.first?_nil inside)

/-- An empty line opens no comment. -/
theorem clean_blank (counting : BraceCounting) : (blank counting).Clean counting := by
  refine ⟨rfl, ?_⟩
  cases counting with
  | raw => rfl
  | lexical => decide +kernel

/-! ## The runs of a reordered text -/

/-- The runs of some sections, section by section, with an empty line behind
each. -/
def laid (counting : BraceCounting) (secs : List Section) (rs : List Run) : List Run :=
  secs.flatMap fun s => runsIn s rs ++ [blank counting]

theorem laid_cons (counting : BraceCounting) (s : Section) (secs : List Section) (rs : List Run) :
    laid counting (s :: secs) rs = runsIn s rs ++ [blank counting] ++ laid counting secs rs := rfl

theorem laid_append (counting : BraceCounting) (secs secs' : List Section) (rs : List Run) :
    laid counting (secs ++ secs') rs = laid counting secs rs ++ laid counting secs' rs :=
  List.flatMap_append

/-- What is laid out are runs of the given sections and empty lines. -/
theorem mem_laid {counting : BraceCounting} {secs : List Section} {rs : List Run} {r : Run}
    (h : r ∈ laid counting secs rs) :
    r = blank counting ∨ r ∈ rs ∧ r.destination ∈ secs := by
  obtain ⟨s, hs, hr⟩ := List.mem_flatMap.mp h
  -- A run of the section, or the empty line behind it.
  rcases List.mem_append.mp hr with hr | hr
  · obtain ⟨hmem, rfl⟩ := mem_runsIn.mp hr
    exact .inr ⟨hmem, hs⟩
  · exact .inl (List.mem_singleton.mp hr)

/-- Every run of a given section is laid out. -/
theorem mem_laid_of_mem (counting : BraceCounting) {secs : List Section} {rs : List Run} {r : Run}
    (hr : r ∈ rs) (hs : r.destination ∈ secs) : r ∈ laid counting secs rs :=
  List.mem_flatMap.mpr ⟨_, hs, List.mem_append_left _ (mem_runsIn.mpr ⟨hr, rfl⟩)⟩

/-- The separated sections of a reordered text have the texts of these runs. -/
theorem flatMap_texts_laid (counting : BraceCounting) (rs : List Run) :
    (laid counting (filled rs) rs).flatMap texts = separatedTexts rs := by
  rw [laid, List.flatMap_assoc, separatedTexts]
  apply List.flatMap_congr
  intro s _
  rw [List.flatMap_append]
  rfl

/-- The runs of one section bring nothing into another. -/
theorem textsIn_runsIn (s s' : Section) (rs : List Run) :
    textsIn s (runsIn s' rs) = if s = s' then textsIn s' rs else [] :=
  textsIn_of_forall (fun _ hr => (mem_runsIn.mp hr).2) s

theorem textsIn_blank (counting : BraceCounting) (s : Section) :
    textsIn s [blank counting] = if s = .uncategorized then [[]] else [] := by
  have hblank : ∀ r ∈ [blank counting], r.destination = .uncategorized := by
    intro r hr
    rw [List.mem_singleton.mp hr]
    rfl
  exact textsIn_of_forall hblank s

/-- A section that is not laid out gets nothing. -/
theorem textsIn_laid_of_not_mem (counting : BraceCounting) (rs : List Run) {s : Section}
    {secs : List Section} (hs : s ≠ .uncategorized) (hnot : s ∉ secs) :
    textsIn s (laid counting secs rs) = [] := by
  rw [textsIn, List.flatMap_eq_nil_iff]
  intro r hr
  obtain ⟨hlaid, rfl⟩ := mem_runsIn.mp hr
  rcases mem_laid hlaid with rfl | ⟨-, hmem⟩
  · exact absurd rfl hs
  · exact absurd hmem hnot

/-- The empty line behind each section is uncategorized. -/
theorem textsIn_uncategorized_laid (counting : BraceCounting) {secs : List Section}
    (h : ∀ s ∈ secs, s ≠ .uncategorized) (rs : List Run) :
    textsIn .uncategorized (laid counting secs rs) = List.replicate secs.length [] := by
  induction secs with
  | nil => rfl
  | cons s secs ih =>
    have hs : .uncategorized ≠ s := (h s List.mem_cons_self).symm
    have hsecs := ih fun s' hs' => h s' (List.mem_cons_of_mem _ hs')
    rw [laid_cons, textsIn_append, textsIn_append, textsIn_runsIn, textsIn_blank, if_neg hs,
      if_pos rfl, hsecs]
    rfl

theorem mem_filled {rs : List Run} {s : Section} :
    s ∈ filled rs ↔ s ≠ .uncategorized ∧ textsIn s rs ≠ [] := by
  rw [filled, List.mem_filter, decide_eq_true_eq, Section.mem_separated]

/-- The section of a run is filled. -/
theorem destination_mem_filled {rs : List Run} {r : Run} (hr : r ∈ rs)
    (h : r.destination ≠ .uncategorized) : r.destination ∈ filled rs := by
  obtain ⟨t, ht⟩ := List.exists_mem_of_ne_nil _ (texts_ne_nil r)
  have hmem : t ∈ textsIn r.destination rs := mem_textsIn.mpr ⟨r, hr, rfl, ht⟩
  exact mem_filled.mpr ⟨h, List.ne_nil_of_mem hmem⟩

/-- A separated section holds what it held before. -/
theorem textsIn_laid_filled (counting : BraceCounting) (rs : List Run) {s : Section}
    (hs : s ≠ .uncategorized) : textsIn s (laid counting (filled rs) rs) = textsIn s rs := by
  by_cases hmem : s ∈ filled rs
  · -- The section stands at one place only, and the others bring nothing into it.
    obtain ⟨before, after, hsplit⟩ := List.append_of_mem hmem
    have hnodup : (filled rs).Nodup := Section.nodup_separated.filter _
    rw [hsplit, List.nodup_middle, List.nodup_cons, List.mem_append, not_or] at hnodup
    obtain ⟨⟨hbefore, hafter⟩, -⟩ := hnodup
    rw [hsplit, laid_append, laid_cons]
    simp only [textsIn_append, textsIn_laid_of_not_mem counting rs hs hbefore,
      textsIn_laid_of_not_mem counting rs hs hafter, textsIn_runsIn, textsIn_blank, if_neg hs,
      if_true, List.append_nil, List.nil_append]
  · have hempty : textsIn s rs = [] := by
      by_contra hne
      exact hmem (mem_filled.mpr ⟨hs, hne⟩)
    rw [hempty, textsIn_laid_of_not_mem counting rs hs hmem]

/-! ## One more pass -/

/-- Runs that can be moved: each is closed behind a declaration if there is
one, and those with a section of their own are clean. -/
structure Movable (counting : BraceCounting) (rs : List Run) : Prop where
  closed : ∀ r ∈ rs, r.Closed (rs.any isDeclaration)
  clean : ∀ r ∈ rs, r.destination ≠ .uncategorized → r.Clean counting

namespace Movable

variable {counting : BraceCounting} {rs : List Run}

/-- The uncategorized lines open nothing behind the declaration either. -/
theorem first?_eq_none (h : Movable counting rs) {t : Text} (ht : t ∈ textsIn .uncategorized rs) :
    Construct.first? (rs.any isDeclaration) t.trim = none := by
  obtain ⟨r, hmem, hdest, ht⟩ := mem_textsIn.mp ht
  have hnone := (destination_eq_uncategorized_iff r).mp hdest
  have hopens := (h.closed r hmem).construct_eq
  have hrest := (h.closed r hmem).rest_eq_nil hnone
  rw [texts, lines, hrest, List.map_singleton, List.mem_singleton] at ht
  rw [hnone] at hopens
  rw [ht]
  exact hopens.symm

/-- Everything that is laid out starts and ends outside a comment. -/
theorem clean_laid_filled (h : Movable counting rs) :
    ∀ r ∈ laid counting (filled rs) rs, r.Clean counting := by
  intro r hr
  rcases mem_laid hr with rfl | ⟨hmem, hdest⟩
  · exact clean_blank counting
  · exact h.clean r hmem (mem_filled.mp hdest).1

/-- Outer sections are read in the same way before and behind a declaration. -/
theorem chain_laid_outer (h : Movable counting rs) {secs : List Section}
    (hsecs : ∀ s ∈ secs, s ∈ Section.outer) (inside : Bool) :
    Chain inside (laid counting secs rs) := by
  have hclosed : ∀ inside', ∀ r ∈ laid counting secs rs, r.Closed inside' := by
    intro inside' r hr
    rcases mem_laid hr with rfl | ⟨hmem, hdest⟩
    · exact closed_blank counting inside'
    · exact (h.closed r hmem).of_mem_outer (hsecs _ hdest) inside'
  exact chain_of_forall (hclosed inside) fun _ => hclosed true

/-- Inner sections are read in the body. -/
theorem chain_laid_inner (h : Movable counting rs) {secs : List Section}
    (hsecs : ∀ s ∈ secs, s ∉ Section.outer) :
    Chain (rs.any isDeclaration) (laid counting secs rs) := by
  -- No declaration is among them, so the flag does not change on the way.
  apply chain_of_forall
  · intro r hr
    rcases mem_laid hr with rfl | ⟨hmem, -⟩
    · exact closed_blank counting _
    · exact h.closed r hmem
  · intro hany
    obtain ⟨r, hr, hdecl⟩ := List.any_eq_true.mp hany
    rcases mem_laid hr with rfl | ⟨-, hdest⟩
    · cases hdecl
    · exact absurd (destination_mem_outer_of_isDeclaration hdecl) (hsecs _ hdest)

end Movable

/-- Laying out runs keeps the declarations, if their section is laid out. -/
theorem any_isDeclaration_laid (counting : BraceCounting) {secs : List Section} {rs : List Run}
    (h : ∀ r ∈ rs, r.isDeclaration = true → r.destination ∈ secs) :
    (laid counting secs rs).any isDeclaration = rs.any isDeclaration := by
  rw [Bool.eq_iff_iff, List.any_eq_true, List.any_eq_true]
  constructor
  · rintro ⟨r, hr, hdecl⟩
    rcases mem_laid hr with rfl | ⟨hmem, -⟩
    · cases hdecl
    · exact ⟨r, hmem, hdecl⟩
  · rintro ⟨r, hr, hdecl⟩
    exact ⟨r, mem_laid_of_mem counting hr (h r hr hdecl), hdecl⟩

namespace Movable

variable {counting : BraceCounting} {rs : List Run}

/-- The separated sections are read as the runs that were laid out: first the
sections with the declarations, then the others in the body that these open. -/
theorem chain_laid_filled (h : Movable counting rs) :
    Chain false (laid counting (filled rs) rs) := by
  have hfilled : filled rs = (Section.outer.filter fun s => textsIn s rs ≠ []) ++
      Section.inner.filter fun s => textsIn s rs ≠ [] := by
    rw [filled, Section.separated_eq, List.filter_append]
  -- All declarations are among the outer sections, so the inner ones are read behind them.
  have hdecl : ∀ r ∈ rs, r.isDeclaration = true →
      r.destination ∈ Section.outer.filter fun s => textsIn s rs ≠ [] := by
    intro r hr hdecl
    have hmem := destination_mem_filled hr (destination_ne_uncategorized_of_isDeclaration hdecl)
    exact List.mem_filter.mpr
      ⟨destination_mem_outer_of_isDeclaration hdecl, (List.mem_filter.mp hmem).2⟩
  rw [hfilled, laid_append, chain_append, any_isDeclaration_laid counting hdecl, Bool.false_or]
  refine ⟨h.chain_laid_outer (fun s hs => List.mem_of_mem_filter hs) false, ?_⟩
  apply h.chain_laid_inner
  intro s hs
  have hinner := List.mem_of_mem_filter hs
  exact of_decide_eq_true (List.mem_filter.mp hinner).2

/-- The runs of a text that is laid out already. -/
theorem allFrom_separatedTexts (h : Movable counting rs) {ts : List Text}
    (hts : ∀ t ∈ ts, Construct.first? (rs.any isDeclaration) t.trim = none) :
    allFrom false (ShapedLine.ofTexts counting false (separatedTexts rs ++ ts)) =
      laid counting (filled rs) rs ++ (ShapedLine.ofTexts counting false ts).map single := by
  have hflag : (laid counting (filled rs) rs).any isDeclaration = rs.any isDeclaration := by
    apply any_isDeclaration_laid
    intro r hr hdecl
    exact destination_mem_filled hr (destination_ne_uncategorized_of_isDeclaration hdecl)
  have hlines : ∀ l ∈ ShapedLine.ofTexts counting false ts,
      Construct.first? (rs.any isDeclaration) l.line.stripped = none := by
    intro l hl
    have hmem := List.mem_map_of_mem (f := fun l : ShapedLine => l.line.text) hl
    rw [ShapedLine.map_text_ofTexts] at hmem
    exact hts _ hmem
  rw [← flatMap_texts_laid counting, ofTexts_flatMap_append h.clean_laid_filled,
    allFrom_flatMap_append h.chain_laid_filled, hflag, Bool.false_or,
    allFrom_of_forall_none hlines]

end Movable

/-- Lines that open nothing bring their texts to the last section. -/
theorem textsIn_map_single (s : Section) (ls : List ShapedLine) :
    textsIn s (ls.map single) =
      if s = .uncategorized then ls.map (fun l => l.line.text) else [] := by
  have hdest : ∀ r ∈ ls.map single, r.destination = .uncategorized := by
    intro r hr
    obtain ⟨l, -, rfl⟩ := List.mem_map.mp hr
    rfl
  have htexts : (ls.map single).flatMap texts = ls.map fun l => l.line.text := by
    rw [List.flatMap_map]
    exact List.map_eq_flatMap.symm
  rw [textsIn_of_forall hdest, htexts]

end Run

/-- One more pass over a text that is laid out changes only the uncategorized
lines: in front of them come the empty lines of the pass before. -/
theorem reorder_separatedTexts {counting : BraceCounting} {rs : List Run}
    (h : Run.Movable counting rs) {ts : List Text}
    (hts : ∀ t ∈ ts, Construct.first? (rs.any Run.isDeclaration) t.trim = none)
    (hne : Run.separatedTexts rs ++ ts ≠ []) (hline : ∀ t ∈ Run.separatedTexts rs ++ ts, '\n' ∉ t) :
    reorder counting (Text.unlines (Run.separatedTexts rs ++ ts)) =
      Text.unlines (Run.separatedTexts rs ++
        (List.replicate (Run.filled rs).length [] ++ ts)) := by
  -- Every separated section gets back what it had.
  have hsame : ∀ s ≠ Section.uncategorized,
      Run.textsIn s (Run.laid counting (Run.filled rs) rs ++
        (ShapedLine.ofTexts counting false ts).map Run.single) = Run.textsIn s rs := by
    intro s hs
    rw [Run.textsIn_append, Run.textsIn_laid_filled counting rs hs, Run.textsIn_map_single,
      if_neg hs, List.append_nil]
  -- The last section gets the empty lines and what was uncategorized before.
  have hrest : Run.textsIn .uncategorized (Run.laid counting (Run.filled rs) rs ++
      (ShapedLine.ofTexts counting false ts).map Run.single) =
        List.replicate (Run.filled rs).length [] ++ ts := by
    rw [Run.textsIn_append, Run.textsIn_map_single, if_pos rfl, ShapedLine.map_text_ofTexts,
      Run.textsIn_uncategorized_laid counting fun s hs => (Run.mem_filled.mp hs).1]
  rw [reorder_unlines counting hne hline, h.allFrom_separatedTexts hts, hrest,
    Run.separatedTexts_congr hsame]

end MemberOrder
