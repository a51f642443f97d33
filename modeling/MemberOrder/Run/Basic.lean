import MemberOrder.Construct.Opening
import MemberOrder.Construct.Visibility
import MemberOrder.Line
import MemberOrder.Shape.Scan

/-! # Runs

The lines of a file fall into runs. A run is a line that opens a construct
together with the lines that the construct reaches over, or a single line
that opens nothing. The next run starts right behind it.

Runs say what a pass over the lines comes to without its state: a construct that
is pending in the pass (`Pass.pending?`) is a run that has not come to its end.
That both give the same is `Classification.ofSource_eq_ofRuns`. -/

namespace MemberOrder

/-- A line with its shape. -/
structure ShapedLine where
  line : Line
  shape : Shape
deriving DecidableEq, Repr

/-- The lines of a source with their shapes. -/
def ShapedLine.ofSource (counting : BraceCounting) (source : Text) : List ShapedLine :=
  List.zipWith ShapedLine.mk (Line.ofSource source)
    (Shape.scanAll counting false source.lines)

/-! ## Where a construct ends -/

/-- What the lines of a construct have shown so far: whether one of them
opened a brace, by how much they changed the depth, and whether the last of
them ends a statement. -/
structure Progress where
  opened : Bool
  balance : Int
  terminated : Bool
deriving DecidableEq, Repr

namespace Progress

def start (s : Shape) : Progress := ⟨0 < s.opens, s.delta, s.terminated⟩

def next (p : Progress) (s : Shape) : Progress :=
  ⟨p.opened || 0 < s.opens, p.balance + s.delta, s.terminated⟩

end Progress

namespace Extent

/-- Whether a construct that has made this progress is at its end. -/
def isComplete : Extent → Progress → Bool
  | line, _ => true
  | statement, p => p.terminated
  | block, p => if p.opened then p.balance ≤ 0 else p.terminated

/-- How far a construct reaches: the lines that it takes, the lines that it
leaves, and whether it came to its end. -/
structure Reach where
  taken : List ShapedLine
  left : List ShapedLine
  complete : Bool
deriving DecidableEq, Repr

/-- Take lines until the construct is complete, or all of them. -/
def reach (e : Extent) (p : Progress) : List ShapedLine → Reach
  | [] => ⟨[], [], e.isComplete p⟩
  | l :: ls =>
    if e.isComplete p then ⟨[], l :: ls, true⟩
    else
      let r := reach e (p.next l.shape) ls
      ⟨l :: r.taken, r.left, r.complete⟩

/-- No line is lost. -/
@[simp] theorem taken_append_left (e : Extent) (p : Progress) (ls : List ShapedLine) :
    (e.reach p ls).taken ++ (e.reach p ls).left = ls := by
  induction ls generalizing p with
  | nil => rfl
  | cons l ls ih =>
    simp only [reach]
    split
    · rfl
    · simp [ih]

theorem length_left_le (e : Extent) (p : Progress) (ls : List ShapedLine) :
    (e.reach p ls).left.length ≤ ls.length := by
  have h := congrArg List.length (taken_append_left e p ls)
  rw [List.length_append] at h
  omega

end Extent

/-! ## The runs of a file -/

/-- A run of lines: the construct that its first line opens, the lines, and
whether the construct came to its end. -/
structure Run where
  construct? : Option Construct
  opener : ShapedLine
  rest : List ShapedLine
  complete : Bool
deriving DecidableEq, Repr

namespace Run

def lines (r : Run) : List ShapedLine := r.opener :: r.rest

/-- By how much the lines of the run change the depth. -/
def delta (r : Run) : Int := r.lines.foldr (fun l d => l.shape.delta + d) 0

def isDeclaration (r : Run) : Bool := r.construct? == some .declaration

/-- The section to which all lines of the run go. Only a function has no section
of its own (`Construct.section?_eq_none_iff`), so the visibility is asked for
functions alone. -/
def destination (r : Run) : Section :=
  match r.construct? with
  | none => .uncategorized
  | some c => c.section?.getD (functionSection (r.lines.map fun l => l.line.text))

/-- How far a line reaches; one that opens nothing stands alone. -/
def extentOf (construct? : Option Construct) : Extent :=
  (construct?.map Construct.extent).getD .line

/-- The runs of consecutive lines. Behind a declaration every construct is
looked for. -/
def allFrom (inside : Bool) : List ShapedLine → List Run
  | [] => []
  | l :: ls =>
    let construct? := Construct.first? inside l.line.stripped
    let reach := (extentOf construct?).reach (.start l.shape) ls
    ⟨construct?, l, reach.taken, reach.complete⟩ ::
      allFrom (inside || construct? == some .declaration) reach.left
termination_by ls => ls.length
decreasing_by exact Nat.lt_succ_of_le (Extent.length_left_le _ _ _)

/-- The runs hold all the lines, in order. -/
theorem flatMap_lines_allFrom (inside : Bool) (ls : List ShapedLine) :
    (allFrom inside ls).flatMap lines = ls := by
  fun_induction allFrom inside ls with
  | case1 => rfl
  | case2 inside l ls construct? reach ih =>
    have kept : reach.taken ++ reach.left = ls := Extent.taken_append_left _ _ ls
    rw [List.flatMap_cons, ih]
    show l :: (reach.taken ++ reach.left) = l :: ls
    rw [kept]

/-- The runs of a source. -/
def ofSource (counting : BraceCounting) (source : Text) : List Run :=
  allFrom false (ShapedLine.ofSource counting source)

end Run
end MemberOrder
