import MemberOrder.Text.Basic
import MemberOrder.Text.CharRange

/-! # Blanks

Blank characters are the code points with the Unicode property
`White_Space`, the no-break spaces and the line separators included. -/

namespace MemberOrder

/-- The ranges of `White_Space`, in ascending order. -/
def whiteSpace : List CharRange := [
  (0x9, 0xD), (0x20, 0x20), (0x85, 0x85), (0xA0, 0xA0), (0x1680, 0x1680), (0x2000, 0x200A),
  (0x2028, 0x2029), (0x202F, 0x202F), (0x205F, 0x205F), (0x3000, 0x3000)]

/-- Whether a character is blank. -/
def isBlank (c : Char) : Bool := inRanges whiteSpace c

namespace Text

/-- The text from its first character that is not blank. -/
def trimStart (t : Text) : Text := t.dropWhile isBlank

/-- The text up to its last character that is not blank. -/
def trimEnd (t : Text) : Text := (t.reverse.dropWhile isBlank).reverse

/-- The text without the blanks around it. -/
def trim (t : Text) : Text := trimEnd (trimStart t)

/-- What follows one or more blanks at the start of a text. -/
def afterBlanks? : Text → Option Text
  | [] => none
  | c :: t => if isBlank c then some (trimStart t) else none

end Text
end MemberOrder
