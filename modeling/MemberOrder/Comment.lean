import MemberOrder.Text.Basic

/-! # Code without comments

Line comments are removed first, so a comment mark behind `//` never opens a
block comment. A block comment that is not closed is kept. -/

namespace MemberOrder
namespace Text

/-- A line up to its line comment. -/
def withoutLineComment (t : Text) : Text :=
  match cut? "//" t with
  | some (before, _) => before
  | none => t

/-- A text without line comments; the line feeds stay. -/
def withoutLineComments (t : Text) : Text := unlines (t.lines.map withoutLineComment)

/-- A text without closed block comments. The end mark is looked for behind
the whole opening mark. -/
def withoutBlockComments (t : Text) : Text :=
  match _h : cut? "/*" t with
  | none => t
  | some (before, body) =>
    match _h' : cut? "*/" body with
    | none => t
    | some (_, after) => before ++ withoutBlockComments after
termination_by t.length
decreasing_by
  have opening := cut?_length _h
  have closing := cut?_length _h'
  simp only [String.length_toList] at opening closing
  have : "/*".length = 2 := rfl
  omega

/-- A text without comments. -/
def withoutComments (t : Text) : Text := withoutBlockComments (withoutLineComments t)

end Text
end MemberOrder
