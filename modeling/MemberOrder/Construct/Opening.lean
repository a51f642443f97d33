import MemberOrder.Construct.Basic
import MemberOrder.Text.Blank
import MemberOrder.Text.Word

/-! # Opening lines

What the first line of each construct looks like, blanks around it removed.
The readers go forward without ever trying a second way: blanks and
identifier characters have nothing in common, so the longest stretch of
either is the only one that can lead to a match. -/

namespace MemberOrder
namespace Construct

/-- Whether a text starts with one of the words. -/
def startsWithAny (words : List Text) (t : Text) : Bool := words.any fun w => w.isPrefixOf t

/-- What follows one or more identifier characters. -/
def afterIdentifier? : Text → Option Text
  | [] => none
  | c :: t => if isIdentifierChar c then some (t.dropWhile isIdentifierChar) else none

def startsIdentifier : Text → Bool
  | [] => false
  | c :: _ => isIdentifierChar c

/-- A keyword, blanks and the start of a name. -/
def opensNamed (keyword t : Text) : Bool :=
  ((Text.after? keyword t).bind Text.afterBlanks?).any startsIdentifier

/-- What follows the first of the words with which a text starts. -/
def afterAny? (words : List Text) (t : Text) : Option Text :=
  words.findSome? fun w => Text.after? w t

/-- One of the keywords and a parenthesis, blanks allowed between them. -/
def opensSpecial (keywords : List Text) (t : Text) : Bool :=
  (afterAny? keywords t).any fun r => (Text.trimStart r).head? == some '('

/-- A name and, after blanks, a visibility. -/
def opensTyped (t : Text) : Bool :=
  ((afterIdentifier? t).bind Text.afterBlanks?).any
    (startsWithAny ["public", "private", "internal"])

/-- A word somewhere on a line that is no comment. -/
def mentionsOutsideComment (word t : Text) : Bool :=
  !("//".toList.isPrefixOf t) && Text.mentions word t

/-- Whether a stripped line is the first line of such a construct. -/
def opens : Construct → Text → Bool
  | header => startsWithAny ["// SPDX", "pragma solidity"]
  | importing => startsWithAny ["import "]
  | declaration => startsWithAny ["contract", "interface", "library", "abstract contract"]
  | enumeration => opensNamed "enum"
  | struct => opensNamed "struct"
  | customError => opensNamed "error"
  | event => opensNamed "event"
  | modifier => opensNamed "modifier"
  | constructor => opensSpecial ["constructor"]
  | receiveOrFallback => opensSpecial ["receive", "fallback"]
  | function => opensNamed "function"
  | constant => mentionsOutsideComment "constant"
  | immutable => mentionsOutsideComment "immutable"
  | stateVariable => fun t =>
    startsWithAny ["mapping", "uint", "int", "bool", "address", "string", "bytes", "array"] t ||
      opensTyped t

/-- The first construct of a table that a stripped line opens. Before the
first declaration only some constructs are looked for. -/
def firstIn? (table : List Construct) (inside : Bool) (t : Text) : Option Construct :=
  table.find? fun c => (inside || c.standsOutside) && c.opens t

/-- The construct that a stripped line opens. -/
def first? (inside : Bool) (t : Text) : Option Construct := firstIn? priority inside t

end Construct
end MemberOrder
