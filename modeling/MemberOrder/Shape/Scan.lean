import MemberOrder.Shape.Lexeme
import MemberOrder.Shape.Raw

/-! # Shapes of consecutive lines

In lexical counting a block comment may reach over several lines, so the
lines of a file are scanned in order and the scan carries one bit: whether
the next line starts inside a block comment. It is all that a `LineScanner` keeps
from line to line. -/

namespace MemberOrder.Shape

/-- What the lexemes of a line have shown so far. -/
structure Tally where
  opens : Nat := 0
  closes : Nat := 0
  /-- The last character outside comments that is not blank; a literal
  stands for its quote. -/
  last? : Option Char := none
  inComment : Bool := false
deriving DecidableEq, Repr

/-- Account for one more lexeme. -/
def Tally.add (n : Tally) : Lexeme → Tally
  | .openBrace => { n with opens := n.opens + 1, last? := some '{' }
  | .closeBrace => { n with closes := n.closes + 1, last? := some '}' }
  | .literal => { n with last? := some '"' }
  | .code (some c) => { n with last? := some c }
  | .code none => n
  | .lineComment => n
  | .blockComment closed => { n with inComment := !closed }

def Tally.shape (n : Tally) : Shape := ⟨n.opens, n.closes, n.last? == some ';'⟩

/-- The lexemes of a line that may start inside a block comment. -/
def lexemes (inComment : Bool) (t : Text) : List Lexeme :=
  if inComment then
    let (l, rest) := Lexeme.blockRest t
    l :: Lexeme.all rest
  else Lexeme.all t

/-- The shape of a line that may start inside a block comment, and whether
the next line does. -/
def ofLexical (inComment : Bool) (t : Text) : Shape × Bool :=
  let n := (lexemes inComment t).foldl Tally.add {}
  (n.shape, n.inComment)

/-- Scan one line in the given way. Raw counting knows no comments. -/
def scan : BraceCounting → Bool → Text → Shape × Bool
  | .raw, _, t => (ofRaw t, false)
  | .lexical, inComment, t => ofLexical inComment t

/-- The shapes of consecutive lines. -/
def scanAll (counting : BraceCounting) (inComment : Bool) : List Text → List Shape
  | [] => []
  | t :: ts =>
    let (s, inComment') := scan counting inComment t
    s :: scanAll counting inComment' ts

/-- Whether the line after the given ones starts inside a block comment. -/
def commentAfter (counting : BraceCounting) (inComment : Bool) (ts : List Text) : Bool :=
  ts.foldl (fun b t => (scan counting b t).2) inComment

@[simp] theorem length_scanAll (counting : BraceCounting) (b : Bool) (ts : List Text) :
    (scanAll counting b ts).length = ts.length := by
  induction ts generalizing b with
  | nil => rfl
  | cons t ts ih => simp [scanAll, ih]

/-- Scanning goes on behind the first lines with what they left over. -/
theorem scanAll_append (counting : BraceCounting) (b : Bool) (ts us : List Text) :
    scanAll counting b (ts ++ us) =
      scanAll counting b ts ++ scanAll counting (commentAfter counting b ts) us := by
  induction ts generalizing b with
  | nil => rfl
  | cons t ts ih =>
    show _ :: scanAll counting _ (ts ++ us) = _ :: (_ ++ _)
    rw [ih]
    rfl

end MemberOrder.Shape
