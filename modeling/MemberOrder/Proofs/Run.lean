import Mathlib.Data.List.Basic
import MemberOrder.Run.Basic

/-! # Runs and what follows them

A run whose construct came to its end takes the same lines whatever follows
it, and what it takes depends on the texts and the shapes of the lines, not on
where they stand. From these two facts:

* each run of a file is the one that its opener dispatches, given whether a
  declaration came before (`allFrom_split`);
* runs that are closed can be put one behind another, and reading the lines
  gives them back (`allFrom_flatMap_append`);
* the runs of two stretches of lines are the runs of each of them, if all runs
  of the first are complete (`allFrom_append`).
-/

namespace MemberOrder

/-! ## How far a construct reaches -/

namespace Extent

/-- A construct that is complete takes no line. -/
theorem reach_of_isComplete {e : Extent} {p : Progress} (h : e.isComplete p = true)
    (ls : List ShapedLine) : e.reach p ls = ⟨[], ls, true⟩ := by
  cases ls with
  | nil => simp [reach, h]
  | cons l ls => simp [reach, h]

/-- A construct that is not complete takes the next line and goes on behind it. -/
theorem reach_cons_of_not_isComplete {e : Extent} {p : Progress} (h : e.isComplete p = false)
    (l : ShapedLine) (ls : List ShapedLine) :
    e.reach p (l :: ls) = ⟨l :: (e.reach (p.next l.shape) ls).taken,
      (e.reach (p.next l.shape) ls).left, (e.reach (p.next l.shape) ls).complete⟩ := by
  simp [reach, h]

/-- A construct of one line takes nothing more. -/
@[simp] theorem reach_line (p : Progress) (ls : List ShapedLine) :
    line.reach p ls = ⟨[], ls, true⟩ :=
  reach_of_isComplete rfl ls

/-- A construct that is at its end takes nothing of what follows. -/
theorem reach_append {e : Extent} {p : Progress} {ls : List ShapedLine}
    (h : (e.reach p ls).complete = true) (more : List ShapedLine) :
    e.reach p (ls ++ more) = ⟨(e.reach p ls).taken, (e.reach p ls).left ++ more, true⟩ := by
  induction ls generalizing p with
  | nil =>
    have hp : e.isComplete p = true := h
    rw [List.nil_append, reach_of_isComplete hp, reach_of_isComplete hp, List.nil_append]
  | cons l ls ih =>
    rw [List.cons_append]
    -- Complete before the next line, or it takes this line and the induction applies.
    cases hp : e.isComplete p with
    | true => simp only [reach_of_isComplete hp, List.cons_append]
    | false =>
      rw [reach_cons_of_not_isComplete hp] at h ⊢
      rw [reach_cons_of_not_isComplete hp, ih h]

/-- Only the end of the file leaves a construct without an end. -/
theorem left_eq_nil_of_not_complete {e : Extent} {p : Progress} {ls : List ShapedLine}
    (h : (e.reach p ls).complete = false) : (e.reach p ls).left = [] := by
  induction ls generalizing p with
  | nil => rfl
  | cons l ls ih =>
    -- A complete construct contradicts the hypothesis, so the line is taken.
    cases hp : e.isComplete p with
    | true => simp [reach_of_isComplete hp] at h
    | false =>
      rw [reach_cons_of_not_isComplete hp] at h ⊢
      exact ih h

/-- The lines that a construct takes are all that it looks at. -/
theorem reach_taken {e : Extent} {p : Progress} {ls : List ShapedLine}
    (h : (e.reach p ls).complete = true) :
    e.reach p (e.reach p ls).taken = ⟨(e.reach p ls).taken, [], true⟩ := by
  induction ls generalizing p with
  | nil =>
    have hp : e.isComplete p = true := h
    simp [reach, hp]
  | cons l ls ih =>
    -- If the construct is complete at once, nothing was taken.
    cases hp : e.isComplete p with
    | true => simp only [reach_of_isComplete hp]
    | false =>
      rw [reach_cons_of_not_isComplete hp] at h ⊢
      rw [reach_cons_of_not_isComplete hp, ih h]

end Extent

/-! ## Dispatch -/

namespace Run

@[simp] theorem allFrom_nil (inside : Bool) : allFrom inside [] = [] := by
  rw [allFrom]

/-- The first run is the one that its opener dispatches. -/
theorem allFrom_cons {inside : Bool} {l : ShapedLine} {ls : List ShapedLine}
    {construct? : Option Construct} {reach : Extent.Reach}
    (hconstruct : Construct.first? inside l.line.stripped = construct?)
    (hreach : (extentOf construct?).reach (.start l.shape) ls = reach) :
    allFrom inside (l :: ls) =
      ⟨construct?, l, reach.taken, reach.complete⟩ ::
        allFrom (inside || construct? == some .declaration) reach.left := by
  rw [allFrom, hconstruct, hreach]

/-- Every run is the one that its opener dispatches: the construct is looked
for with what the runs before have declared, and it reaches over the rest of
the run and no further. -/
theorem allFrom_split {inside : Bool} {ls : List ShapedLine} {before after : List Run} {r : Run}
    (h : allFrom inside ls = before ++ r :: after) :
    r.construct? =
        Construct.first? (inside || before.any isDeclaration) r.opener.line.stripped ∧
      (extentOf r.construct?).reach (.start r.opener.shape) (r.rest ++ after.flatMap lines) =
        ⟨r.rest, after.flatMap lines, r.complete⟩ := by
  -- On the runs before: each one declares or does not, and the flag goes along.
  induction before generalizing inside ls with
  | nil =>
    cases ls with
    | nil => simp at h
    | cons l ls =>
      rw [allFrom_cons rfl rfl, List.nil_append] at h
      -- The run is the first one, so it is dispatched with the flag as it is.
      obtain ⟨hr, hafter⟩ := List.cons.inj h
      have hleft := congrArg (List.flatMap lines) hafter
      rw [flatMap_lines_allFrom] at hleft
      subst hr
      refine ⟨by simp, ?_⟩
      simp only [← hleft, Extent.taken_append_left]
  | cons b before ih =>
    cases ls with
    | nil => simp at h
    | cons l ls =>
      rw [allFrom_cons rfl rfl, List.cons_append] at h
      obtain ⟨hb, hrest⟩ := List.cons.inj h
      have hflag : (inside || (Construct.first? inside l.line.stripped == some .declaration)) =
          (inside || b.isDeclaration) := by
        rw [← hb]
        rfl
      rw [hflag] at hrest
      have hr := ih hrest
      rwa [Bool.or_assoc, ← List.any_cons] at hr

/-! ## Closed runs -/

/-- A run that came to its end by itself: its opener dispatches its construct,
and the construct reaches exactly over the rest of the run. -/
structure Closed (inside : Bool) (r : Run) : Prop where
  construct_eq : r.construct? = Construct.first? inside r.opener.line.stripped
  reach_eq : (extentOf r.construct?).reach (.start r.opener.shape) r.rest = ⟨r.rest, [], true⟩
  complete : r.complete = true

/-- Runs one behind another, each closed where it stands. -/
def Chain : Bool → List Run → Prop
  | _, [] => True
  | inside, r :: rs => r.Closed inside ∧ Chain (inside || r.isDeclaration) rs

/-- A closed run leaves all that follows it. -/
theorem Closed.reach_append {inside : Bool} {r : Run} (h : r.Closed inside)
    (more : List ShapedLine) :
    (extentOf r.construct?).reach (.start r.opener.shape) (r.rest ++ more) =
      ⟨r.rest, more, true⟩ := by
  have hcomplete : ((extentOf r.construct?).reach (.start r.opener.shape) r.rest).complete := by
    rw [h.reach_eq]
  rw [Extent.reach_append hcomplete, h.reach_eq, List.nil_append]

/-- The lines of a chain are read as the chain. -/
theorem allFrom_flatMap_append {inside : Bool} {rs : List Run} (h : Chain inside rs)
    (more : List ShapedLine) :
    allFrom inside (rs.flatMap lines ++ more) =
      rs ++ allFrom (inside || rs.any isDeclaration) more := by
  induction rs generalizing inside with
  | nil => simp
  | cons r rs ih =>
    obtain ⟨hr, hrs⟩ := h
    -- The first run stops at its own end, so the lines behind it are read afresh.
    have hreach := hr.reach_append (rs.flatMap lines ++ more)
    have hread := allFrom_cons hr.construct_eq.symm hreach
    rw [List.flatMap_cons, lines, List.cons_append, List.cons_append, List.append_assoc, hread,
      List.any_cons, ← Bool.or_assoc]
    show _ :: allFrom (inside || r.isDeclaration) _ = r :: (rs ++ _)
    rw [ih hrs, ← hr.complete]

/-- Runs that all came to their ends form a chain. -/
theorem chain_allFrom {inside : Bool} {ls : List ShapedLine}
    (h : ∀ r ∈ allFrom inside ls, r.complete = true) : Chain inside (allFrom inside ls) := by
  fun_induction allFrom inside ls with
  | case1 => trivial
  | case2 inside l ls construct? reach ih =>
    have hcomplete : reach.complete = true := h _ List.mem_cons_self
    constructor
    · exact ⟨rfl, Extent.reach_taken hcomplete, hcomplete⟩
    · apply ih
      intro r hr
      exact h r (List.mem_cons_of_mem _ hr)

/-- If all runs of some lines are complete, reading goes on behind them as if
from the start, except that a declaration may have come before. -/
theorem allFrom_append {inside : Bool} {ls : List ShapedLine}
    (h : ∀ r ∈ allFrom inside ls, r.complete = true) (more : List ShapedLine) :
    allFrom inside (ls ++ more) =
      allFrom inside ls ++ allFrom (inside || (allFrom inside ls).any isDeclaration) more := by
  have hread := allFrom_flatMap_append (chain_allFrom h) more
  rwa [flatMap_lines_allFrom] at hread

/-- A chain may be cut anywhere. What follows the cut is a chain behind the declarations
before it. -/
theorem chain_append {inside : Bool} {rs ts : List Run} :
    Chain inside (rs ++ ts) ↔ Chain inside rs ∧ Chain (inside || rs.any isDeclaration) ts := by
  induction rs generalizing inside with
  | nil => simp [Chain]
  | cons r rs ih =>
    simp only [List.cons_append, Chain, ih, List.any_cons, Bool.or_assoc, and_assoc]

/-- Closed runs form a chain if they are closed behind a declaration as well,
or none of them is one. -/
theorem chain_of_forall {inside : Bool} {rs : List Run} (h : ∀ r ∈ rs, r.Closed inside)
    (hdecl : rs.any isDeclaration = true → ∀ r ∈ rs, r.Closed true) : Chain inside rs := by
  induction rs generalizing inside with
  | nil => trivial
  | cons r rs ih =>
    refine ⟨h r List.mem_cons_self, ?_⟩
    rw [List.any_cons] at hdecl
    -- Behind a declaration all runs have to be closed inside a body.
    cases hr : r.isDeclaration with
    | false =>
      rw [hr, Bool.false_or] at hdecl
      rw [Bool.or_false]
      exact ih (fun q hq => h q (List.mem_cons_of_mem _ hq))
        fun hany q hq => hdecl hany q (List.mem_cons_of_mem _ hq)
    | true =>
      rw [hr, Bool.true_or] at hdecl
      have hclosed : ∀ q ∈ rs, q.Closed true := fun q hq =>
        hdecl rfl q (List.mem_cons_of_mem _ hq)
      rw [Bool.or_true]
      exact ih hclosed fun _ => hclosed

end Run

/-! ## Lines without their places

Where a line stands decides nothing. A bare line has its text and its shape
only, and reading bare lines gives the bare runs. -/

namespace Shape

/-- The state of comments is carried from one stretch of lines to the next. -/
theorem commentAfter_append (counting : BraceCounting) (inComment : Bool) (ts us : List Text) :
    commentAfter counting inComment (ts ++ us) =
      commentAfter counting (commentAfter counting inComment ts) us :=
  List.foldl_append ..

/-- Raw counting is never inside a comment. -/
theorem commentAfter_of_lexical {counting : BraceCounting} {ts : List Text}
    (h : counting = .lexical → commentAfter .lexical false ts = false) :
    commentAfter counting false ts = false := by
  cases counting with
  | lexical => exact h rfl
  | raw =>
    clear h
    induction ts with
    | nil => rfl
    | cons t ts ih => exact ih

end Shape

namespace ShapedLine

/-- The line without its place in the source. -/
def bare (l : ShapedLine) : ShapedLine := ⟨⟨0, 0, l.line.text⟩, l.shape⟩

/-- Bare lines with the given texts; the first may start inside a comment. -/
def ofTexts (counting : BraceCounting) (inComment : Bool) (ts : List Text) : List ShapedLine :=
  List.zipWith (fun t s => ⟨⟨0, 0, t⟩, s⟩) ts (Shape.scanAll counting inComment ts)

theorem ofTexts_cons (counting : BraceCounting) (inComment : Bool) (t : Text) (ts : List Text) :
    ofTexts counting inComment (t :: ts) =
      ⟨⟨0, 0, t⟩, (Shape.scan counting inComment t).1⟩ ::
        ofTexts counting (Shape.scan counting inComment t).2 ts := rfl

/-- The shapes of a second stretch depend on the first by the comment that it leaves
open. -/
theorem ofTexts_append (counting : BraceCounting) (inComment : Bool) (ts us : List Text) :
    ofTexts counting inComment (ts ++ us) =
      ofTexts counting inComment ts ++
        ofTexts counting (Shape.commentAfter counting inComment ts) us := by
  rw [ofTexts, Shape.scanAll_append, List.zipWith_append]
  · rfl
  · rw [Shape.length_scanAll]

@[simp] theorem map_text_ofTexts (counting : BraceCounting) (inComment : Bool) (ts : List Text) :
    (ofTexts counting inComment ts).map (fun l => l.line.text) = ts := by
  induction ts generalizing inComment with
  | nil => rfl
  | cons t ts ih => rw [ofTexts_cons, List.map_cons, ih]

@[simp] theorem length_ofTexts (counting : BraceCounting) (inComment : Bool) (ts : List Text) :
    (ofTexts counting inComment ts).length = ts.length := by
  rw [ofTexts, List.length_zipWith, Shape.length_scanAll, Nat.min_self]

/-- Numbers and offsets are what a bare line lacks. -/
theorem map_bare_zipWith_number (i o : Nat) (ts : List Text) (shapes : List Shape) :
    (List.zipWith mk (Line.number i o ts) shapes).map bare =
      List.zipWith (fun t s => ⟨⟨0, 0, t⟩, s⟩) ts shapes := by
  induction ts generalizing i o shapes with
  | nil => rfl
  | cons t ts ih =>
    cases shapes with
    | nil => rfl
    | cons s shapes =>
      rw [Line.number, List.zipWith_cons_cons, List.map_cons, ih]
      rfl

/-- The bare lines of a source. -/
theorem map_bare_ofSource (counting : BraceCounting) (source : Text) :
    (ofSource counting source).map bare = ofTexts counting false source.lines :=
  map_bare_zipWith_number 0 0 source.lines _

end ShapedLine

/-- How far a construct reaches depends on shapes, not on places. -/
theorem Extent.reach_map_bare (e : Extent) (p : Progress) (ls : List ShapedLine) :
    e.reach p (ls.map ShapedLine.bare) = ⟨(e.reach p ls).taken.map ShapedLine.bare,
      (e.reach p ls).left.map ShapedLine.bare, (e.reach p ls).complete⟩ := by
  induction ls generalizing p with
  | nil => rfl
  | cons l ls ih =>
    rw [List.map_cons]
    -- The same lines decide, since a bare line has the same shape.
    cases hp : e.isComplete p with
    | true => simp only [reach_of_isComplete hp, List.map_nil, List.map_cons]
    | false =>
      have hshape : l.bare.shape = l.shape := rfl
      rw [reach_cons_of_not_isComplete hp, reach_cons_of_not_isComplete hp, hshape, ih]
      rfl

namespace Run

/-- The run with bare lines. -/
def bare (r : Run) : Run := ⟨r.construct?, r.opener.bare, r.rest.map .bare, r.complete⟩

/-- The texts of the lines of a run. -/
def texts (r : Run) : List Text := r.lines.map fun l => l.line.text

/-- A bare run has the same texts. -/
@[simp] theorem texts_bare (r : Run) : r.bare.texts = r.texts := by
  simp [texts, lines, bare, ShapedLine.bare, Function.comp_def]

theorem destination_eq (r : Run) :
    r.destination = match r.construct? with
      | none => .uncategorized
      | some c => c.section?.getD (functionSection r.texts) := rfl

/-- A run goes to its section whatever place it has. -/
@[simp] theorem destination_bare (r : Run) : r.bare.destination = r.destination := by
  rw [destination_eq, destination_eq, texts_bare]
  rfl

/-- The runs of bare lines are the bare runs. -/
theorem allFrom_map_bare (inside : Bool) (ls : List ShapedLine) :
    allFrom inside (ls.map .bare) = (allFrom inside ls).map bare := by
  fun_induction allFrom inside ls with
  | case1 inside => simp
  | case2 inside l ls construct? reach ih =>
    have hreach := Extent.reach_map_bare (extentOf construct?) (.start l.shape) ls
    rw [List.map_cons, List.map_cons, ← ih]
    exact allFrom_cons (l := l.bare) rfl hreach

/-- The bare runs of a source, read from the texts of its lines. -/
theorem map_bare_ofSource (counting : BraceCounting) (source : Text) :
    (ofSource counting source).map bare =
      allFrom false (ShapedLine.ofTexts counting false source.lines) := by
  rw [ofSource, ← allFrom_map_bare, ShapedLine.map_bare_ofSource]

end Run
end MemberOrder
