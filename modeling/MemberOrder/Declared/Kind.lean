import MemberOrder.Construct.Visibility
import MemberOrder.Text.Blank
import MemberOrder.Text.Word

/-! # Declarations of names

Functions, events and structs declare names. A declaration is recognised at
the beginning of a line: its keyword, the name, and what has to follow the
name. -/

namespace MemberOrder

/-- The kinds of declarations that are compared. -/
inductive DeclaredKind where
  | function
  | event
  | struct
deriving DecidableEq, Repr

namespace DeclaredKind

def keyword : DeclaredKind → Text
  | function => "function"
  | event => "event"
  | struct => "struct"

/-- What follows a list in parentheses. The first closing parenthesis ends
the list. -/
def afterParameters? (t : Text) : Option Text :=
  ((Text.after? "(" t).bind (Text.cut? ")")).map (·.2)

/-- What follows blanks and a visibility; the visibility may be missing. -/
def afterVisibility (t : Text) : Text :=
  let rest := t.trimStart
  (visibilities.findSome? fun v => Text.after? v.1 rest).getD rest

/-- What follows the part of a declaration that stands behind the name. -/
def afterTail? : DeclaredKind → Text → Option Text
  | function, t => (afterParameters? t).map afterVisibility
  | event, t => afterParameters? t
  | struct, t => Text.after? "\x7b" t

/-- The name that is declared at the beginning of a text, blanks in front of
it allowed, and what follows the declaration. -/
def head? (k : DeclaredKind) (t : Text) : Option (Text × Text) :=
  match (Text.after? k.keyword t.trimStart).bind Text.afterBlanks? with
  | none => none
  | some u =>
    let name := u.takeWhile isWordChar
    if name.isEmpty then none
    else (k.afterTail? (Text.trimStart (u.dropWhile isWordChar))).map fun rest => (name, rest)

end DeclaredKind
end MemberOrder
