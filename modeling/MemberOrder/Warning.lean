import MemberOrder.Diagnostic
import MemberOrder.Run.Depth

/-! # Warnings

Ordering the members of a file always succeeds, but three things suggest
that the result is not what the author wants: a construct without an end, a
brace that closes nothing, and a second declaration.

The pass raises warnings as it comes to them. Which ones these are is said here run
by run (`Warning.ofRuns`). -/

namespace MemberOrder

/-- The reasons for a warning. -/
inductive Warning where
  /-- The file ends before the construct does. -/
  | neverEnds (construct : Construct) (opener : Line)
  /-- The file ends before the body of the declaration is closed. -/
  | bodyNeverCloses (declaration : Line)
  /-- The depth falls below zero on the line. -/
  | closesNothing (line : Line)
  /-- The line declares something, but `first` already did. -/
  | declaresAgain (line first : Line)
deriving DecidableEq, Repr

namespace Warning

/-- The line that a warning is about. -/
def line : Warning → Line
  | neverEnds _ l | bodyNeverCloses l | closesNothing l | declaresAgain l _ => l

/-- What a construct without an end is called. -/
def unendedNoun : Extent → Text
  | .block => "block"
  | _ => "declaration"

/-- The wording of a warning. -/
def diagnostic : Warning → Diagnostic
  | neverEnds c opener =>
    let message := .concat ["unterminated `", c.keyword, "` ", unendedNoun c.extent]
    ({ message } : Diagnostic).withCode .W001
      |>.withLabel opener.span "starts here"
      |>.withHelp "end of input was reached first; the remaining lines were kept with it"
  | bodyNeverCloses declaration =>
    ({ message := "contract body is never closed" } : Diagnostic).withCode .W001
      |>.withLabel declaration.span "body opened here"
      |>.withHelp "check for a missing `\x7d` at the end of the file"
  | closesNothing line =>
    ({ message := "closing brace without a matching opening brace" } : Diagnostic).withCode .W002
      |>.withLabel line.span "depth drops below zero here"
      |>.withHelp
        "braces inside string literals or comments are counted; try lexical brace counting"
  | declaresAgain line first =>
    ({ message := "more than one top-level declaration in this file" } : Diagnostic).withCode .W003
      |>.withLabel line.span "additional declaration"
      |>.withSecondaryLabel first.span "first declared here"
      |>.withHelp "members of every body are ordered together; split the file to keep them apart"

/-- The lines on which the depth falls from zero or above to below zero. -/
def drops (depth : Int) : List ShapedLine → List Warning
  | [] => []
  | l :: ls =>
    let after := depth + l.shape.delta
    if 0 ≤ depth ∧ after < 0 then closesNothing l.line :: drops after ls else drops after ls

/-- The warnings about the lines of consecutive runs, given the first
declaration before them and the depth that they start from. -/
def inBody (first? : Option Line) (depth : Int) : List Run → List Warning
  | [] => []
  | r :: rs =>
    match first?, r.isDeclaration with
    | none, false => inBody none depth rs
    | none, true => drops depth r.lines ++ inBody (some r.opener.line) (depth + r.delta) rs
    | some first, false => drops depth r.lines ++ inBody (some first) (depth + r.delta) rs
    | some first, true =>
      drops depth r.lines ++ declaresAgain r.opener.line first ::
        inBody (some first) (depth + r.delta) rs

/-- The warning about the end of the file. A construct without an end comes
before a body that is not closed. -/
def atEnd? (rs : List Run) : Option Warning :=
  match rs.getLast? with
  | some ⟨some c, opener, _, false⟩ => some (neverEnds c opener.line)
  | _ =>
    match Run.firstDeclaration? rs with
    | some first => if 0 < Run.finalDepth rs then some (bodyNeverCloses first) else none
    | none => none

/-- All warnings about a file with the given runs. -/
def ofRuns (rs : List Run) : List Warning := inBody none 0 rs ++ (atEnd? rs).toList

end Warning
end MemberOrder
