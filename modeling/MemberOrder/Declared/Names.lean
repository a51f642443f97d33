import MemberOrder.Declared.Kind

/-! # Declared names

A code is searched for declarations from the left. Each declaration starts
where a line begins and does not overlap the one before it. A function takes
the blanks behind its parameters with it, the beginnings of the next lines
included. -/

namespace MemberOrder

/-- A place in a text: how many characters stand before it, and the text
from there on. -/
structure Place where
  position : Nat
  text : Text
deriving DecidableEq, Repr

namespace Place

/-- The places behind the line feeds of a text that starts at a position. -/
def afterLineFeeds (position : Nat) : Text → List Place
  | [] => []
  | c :: t =>
    if c = '\n' then ⟨position + 1, t⟩ :: afterLineFeeds (position + 1) t
    else afterLineFeeds (position + 1) t

/-- The places where a line of the text begins. -/
def lineStarts (t : Text) : List Place := ⟨0, t⟩ :: afterLineFeeds 0 t

end Place

namespace DeclaredKind

/-- The names declared at the given places, from a position on. -/
def namesFrom (k : DeclaredKind) (position : Nat) : List Place → List Text
  | [] => []
  | p :: ps =>
    if p.position < position then namesFrom k position ps
    else
      match k.head? p.text with
      | none => namesFrom k position ps
      | some (name, rest) =>
        name :: namesFrom k (p.position + (p.text.length - rest.length)) ps

/-- The names that a code declares, in order. -/
def names (k : DeclaredKind) (code : Text) : List Text := k.namesFrom 0 (Place.lineStarts code)

end DeclaredKind
end MemberOrder
