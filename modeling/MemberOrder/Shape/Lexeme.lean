import MemberOrder.Text.Blank

/-! # Lexemes of a line

For lexical brace counting a line is cut into lexemes: braces, literals,
comments and stretches of other code (`Piece`). Every text that is not empty starts
with a lexeme, and reading it leaves a shorter text. -/

namespace MemberOrder

inductive Lexeme where
  | openBrace
  | closeBrace
  /-- A quoted literal, closed on the line or not. -/
  | literal
  /-- Other code, with its last character that is not blank. -/
  | code (last? : Option Char)
  /-- A comment to the end of the line. -/
  | lineComment
  /-- A comment between marks; `closed` says whether its end was found. -/
  | blockComment (closed : Bool)
deriving DecidableEq, Repr

namespace Lexeme

/-- Whether a character can neither be nor begin another kind of lexeme. -/
def isPlain (c : Char) : Bool :=
  c != '{' && c != '}' && c != '"' && c != '\x27' && c != '/'

/-- What follows a literal, read from behind its opening quote. A backslash
takes the next character with it. A backslash at the very end of the line
escapes nothing and does not belong to the literal. -/
def afterLiteral (quote : Char) : Text → Text
  | [] => []
  | ['\\'] => ['\\']
  | '\\' :: _ :: t => afterLiteral quote t
  | c :: t => if c = quote then t else afterLiteral quote t

/-- Read the rest of a block comment, its end mark included. -/
def blockRest (t : Text) : Lexeme × Text :=
  match Text.cut? "*/" t with
  | some (_, t') => (blockComment true, t')
  | none => (blockComment false, [])

/-- Read a stretch of plain code whose first character is given. -/
def plainRun (c : Char) (t : Text) : Lexeme × Text :=
  (code (Text.trimEnd (c :: t.takeWhile isPlain)).getLast?, t.dropWhile isPlain)

/-- The first lexeme of a text and what follows it. -/
def next? : Text → Option (Lexeme × Text)
  | [] => none
  | c :: t =>
    if c = '/' then
      match t with
      | '/' :: _ => some (lineComment, [])
      | '*' :: t' => some (blockRest t')
      | _ => some (code (some '/'), t)
    else if c = '"' || c = '\x27' then some (literal, afterLiteral c t)
    else if c = '{' then some (openBrace, t)
    else if c = '}' then some (closeBrace, t)
    else some (plainRun c t)

theorem length_afterLiteral_le (quote : Char) (t : Text) :
    (afterLiteral quote t).length ≤ t.length := by
  fun_induction afterLiteral quote t with
  | case1 => simp
  | case2 => simp
  | case3 _ t ih => simp only [List.length_cons]; omega
  | case4 => simp
  | case5 c t _ _ _ ih => simp only [List.length_cons]; omega

theorem length_blockRest_le (t : Text) : (blockRest t).2.length ≤ t.length := by
  unfold blockRest
  split
  · rename_i h
    have := Text.cut?_length h
    simp only
    omega
  · simp

/-- Reading a lexeme makes progress. -/
theorem length_next?_lt {t rest : Text} {l : Lexeme} (h : next? t = some (l, rest)) :
    rest.length < t.length := by
  cases t with
  | nil => simp [next?] at h
  | cons c t =>
    have literal := length_afterLiteral_le c t
    have plain := (List.dropWhile_sublist isPlain (l := t)).length_le
    simp only [next?] at h
    split at h
    · split at h
      · simp_all
      · rename_i u
        have block := length_blockRest_le u
        simp only [Option.some.injEq] at h
        rw [h] at block
        exact Nat.lt_succ_of_le (Nat.le_succ_of_le block)
      · simp_all
    · repeat' split at h
      all_goals
        simp only [Option.some.injEq, Prod.mk.injEq, plainRun] at h
        rw [← h.2]
        simp only [List.length_cons]
        omega

/-- A text that is not empty starts with a lexeme. -/
theorem next?_isSome {t : Text} (h : t ≠ []) : (next? t).isSome := by
  cases t with
  | nil => contradiction
  | cons c t =>
    simp only [next?]
    repeat' split
    all_goals rfl

/-- The lexemes of a text, in order. -/
def all (t : Text) : List Lexeme :=
  match _h : next? t with
  | none => []
  | some (l, rest) => l :: all rest
termination_by t.length
decreasing_by exact length_next?_lt _h

end Lexeme
end MemberOrder
