import MemberOrder.Text.Basic

/-! # Layout of a settings file

Spaces and tabs separate, a line feed ends a line (a carriage return may
stand in front of it), and a number sign starts a comment. -/

namespace MemberOrder.Toml

def isSpace (c : Char) : Bool := c == ' ' || c == '\t'

/-- The characters that strings and comments may hold. -/
def isPrintable (c : Char) : Bool := c == '\t' || (0x20 ≤ c.toNat && c.toNat != 0x7F)

def skipSpace (t : Text) : Text := t.dropWhile isSpace

/-- What follows the end of a line. -/
def afterLineEnd? : Text → Option Text
  | '\n' :: t => some t
  | '\r' :: '\n' :: t => some t
  | _ => none

/-- Skip spaces, line ends and comments. -/
def skipLayout (inComment : Bool) : Text → Text
  | [] => []
  | '\n' :: t => skipLayout false t
  | '\r' :: '\n' :: t => skipLayout false t
  | c :: t =>
    if inComment then if isPrintable c then skipLayout true t else c :: t
    else if isSpace c then skipLayout false t
    else if c = '#' then skipLayout true t
    else c :: t

/-- What follows a line on which only spaces and a comment are left. -/
def afterLine? (t : Text) : Option Text :=
  let t := match skipSpace t with
    | '#' :: t => t.dropWhile isPrintable
    | t => t
  if t.isEmpty then some [] else afterLineEnd? t

end MemberOrder.Toml
