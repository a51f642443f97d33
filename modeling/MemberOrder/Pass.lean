import MemberOrder.Grouping
import MemberOrder.Warning

/-! # One pass over the lines

A source is classified in a single pass over its lines, from the first to the
last (`Scan`). The pass keeps a running depth and knows whether it is inside a
body. A line that opens nothing or a construct of one line is dealt with at once.
Any other construct stays pending, and takes the following lines, until it comes to
its end:

* a block ends when the depth is back at the baseline, its value in front of the
  first line, or at the end of a statement if no brace was opened;
* a statement ends with the first line that is terminated.

The pass hands lines over to the grouping, raises warnings and records a visit
for each line on which it looks for a construct, all in the order in which it
comes to them. -/

namespace MemberOrder

/-- A construct that has not come to its end: its lines so far, the depth in front
of them, whether one of them opened a brace and whether the last is terminated. -/
structure Pending where
  construct : Construct
  opener : Line
  rest : List Line
  baseline : Int
  opened : Bool
  terminated : Bool
deriving DecidableEq, Repr

namespace Pending

/-- A construct of which only the first line is known. -/
def start (c : Construct) (l : ShapedLine) (baseline : Int) : Pending :=
  ⟨c, l.line, [], baseline, 0 < l.shape.opens, l.shape.terminated⟩

def lines (p : Pending) : List Line := p.opener :: p.rest

/-- Whether the construct is at its end, given the depth behind its last line. -/
def isComplete (p : Pending) (depth : Int) : Bool :=
  match p.construct.extent with
  | .block => if p.opened then depth ≤ p.baseline else p.terminated
  | _ => p.terminated

/-- The construct with one more line. -/
def extend (p : Pending) (l : ShapedLine) : Pending :=
  { p with
    rest := p.rest ++ [l.line]
    opened := p.opened || 0 < l.shape.opens
    terminated := l.shape.terminated }

end Pending

/-- The state of a pass between two lines. -/
structure Pass where
  depth : Int := 0
  insideBody : Bool := false
  first? : Option Line := none
  /-- Whether a construct without an end has been reported. -/
  reportedUnended : Bool := false
  pending? : Option Pending := none
  grouping : Grouping := .empty
  warnings : List Warning := []
  visits : List Run.Visit := []
deriving DecidableEq, Repr

namespace Pass

def warn (s : Pass) (w : Warning) : Pass := { s with warnings := s.warnings ++ [w] }

/-- Account for the braces of a line. -/
def trackDepth (s : Pass) (l : ShapedLine) : Pass :=
  let tracked := { s with depth := s.depth + l.shape.delta }
  if 0 ≤ s.depth ∧ tracked.depth < 0 then tracked.warn (.closesNothing l.line) else tracked

/-- Come to a declaration. The body of the first one is entered, and all others
are reported. -/
def enterBody (s : Pass) (l : Line) : Pass :=
  match s.first? with
  | some first => { s.warn (.declaresAgain l first) with insideBody := true }
  | none => { s with first? := some l, insideBody := true }

/-- Hand lines over to a section. Without a section they are not kept. -/
def keep (s : Pass) (section? : Option Section) (ls : List Line) : Pass :=
  match section? with
  | some sec => { s with grouping := s.grouping.append sec ls }
  | none => s

/-- Hand the lines of a construct over to its section. A block without a section
of its own is that of a function. -/
def close (s : Pass) (p : Pending) : Pass :=
  match p.construct.extent with
  | .block =>
    s.keep (some (p.construct.section?.getD (functionSection (p.lines.map (·.text))))) p.lines
  | _ => s.keep p.construct.section? p.lines

def suspend (s : Pass) (p : Pending) : Pass := { s with pending? := some p }

/-- Close a construct that is at its end; any other one stays pending. -/
def settle (s : Pass) (p : Pending) : Pass :=
  if p.isComplete s.depth then s.close p else s.suspend p

/-- See what a line opens. Before the first declaration only a declaration moves
the depth. -/
def visit (s : Pass) (construct? : Option Construct) (l : ShapedLine) : Pass :=
  let s := if s.insideBody || construct? == some .declaration then s.trackDepth l else s
  { s with visits := s.visits ++ [(⟨l.line.index, s.depth, construct?⟩ : Run.Visit)] }

/-- Come to a line with no construct pending. -/
def dispatch (s : Pass) (l : ShapedLine) : Pass :=
  let construct? := Construct.first? s.insideBody l.line.stripped
  let seen := s.visit construct? l
  match construct? with
  | none => seen.keep (some .uncategorized) [l.line]
  | some c =>
    match c.extent with
    | .line =>
      let seen := if c = .declaration then seen.enterBody l.line else seen
      seen.keep c.section? [l.line]
    | _ => seen.settle (.start c l s.depth)

/-- Come to the next line. -/
def step (s : Pass) (l : ShapedLine) : Pass :=
  match s.pending? with
  | some p => ({ s with pending? := none }.trackDepth l).settle (p.extend l)
  | none => s.dispatch l

/-- Report a construct without an end. All remaining lines are kept with it. -/
def abandon (s : Pass) (p : Pending) : Pass :=
  ({ s with reportedUnended := true }.warn (.neverEnds p.construct p.opener)).close p

/-- Deal with the construct that is still pending at the end of the file. -/
def flush (s : Pass) : Pass :=
  match s.pending? with
  | some p => { s with pending? := none }.abandon p
  | none => s

/-- The warning about a body that is still open, unless something else was
reported. -/
def openBody? (s : Pass) : Option Warning :=
  if s.insideBody && 0 < s.depth && !s.reportedUnended then s.first?.map .bodyNeverCloses
  else none

/-- Come to the end of the file. -/
def finish (s : Pass) : Pass :=
  let s := s.flush
  match s.openBody? with
  | some w => s.warn w
  | none => s

/-- Pass over the lines of a source. -/
def ofSource (counting : BraceCounting) (source : Text) : Pass :=
  ((ShapedLine.ofSource counting source).foldl step {}).finish

end Pass
end MemberOrder
