import MemberOrder.Toml.Layout

/-! # Strings of a settings file

A basic string stands between double quotes and knows escapes. A literal
string stands between single quotes and is taken as it is. Three quotes in a
row enclose a string of several lines, whose line ends are kept as they are
written. -/

namespace MemberOrder.Toml

/-- The value of a hexadecimal digit. -/
def hexDigit? (c : Char) : Option Nat :=
  if c.isDigit then some (c.toNat - '0'.toNat)
  else if 'a' ≤ c && c ≤ 'f' then some (c.toNat - 'a'.toNat + 10)
  else if 'A' ≤ c && c ≤ 'F' then some (c.toNat - 'A'.toNat + 10)
  else none

/-- The character with a code point, if there is one. -/
def character? (n : Nat) : Option Char :=
  if n.isValidChar then some (Char.ofNat n) else none

/-- The escapes of one character. -/
def escaped? : Char → Option Char
  | 'b' => some '\x08'
  | 't' => some '\t'
  | 'n' => some '\n'
  | 'f' => some '\x0c'
  | 'r' => some '\r'
  | 'e' => some '\x1b'
  | '"' => some '"'
  | '\\' => some '\\'
  | _ => none

/-- How many digits an escape by code point has. -/
def codeLength? : Char → Option Nat
  | 'x' => some 2
  | 'u' => some 4
  | 'U' => some 8
  | _ => none

/-- Where the reader of a basic string stands. -/
inductive InBasic where
  | plain
  /-- Behind a backslash. -/
  | escape
  /-- In a code point: how many digits are still to come, and the value of
  those before. -/
  | code (left value : Nat)
  /-- Behind a backslash at the end of a line; `ended` tells whether the end
  of the line has come. -/
  | fold (ended : Bool)
deriving DecidableEq, Repr

/-- A character in front of what has been read. -/
def prepend (c : Char) (r : Text × Text) : Text × Text := (c :: r.1, r.2)

/-- The end of a string of several lines that starts with a quote, if the
text does: up to two quotes belong to the string. -/
def closing? (quote : Char) (t : Text) : Option (Text × Text) :=
  let n := min 5 (t.takeWhile (· == quote)).length
  if 3 ≤ n then some (List.replicate (n - 3) quote, t.drop n) else none

/-- Read a basic string from behind its opening quotes; the result is the
string and what follows it. -/
def basic? (multiline : Bool) : InBasic → Text → Option (Text × Text)
  | _, [] => none
  | .plain, '\r' :: '\n' :: t =>
    if multiline then (basic? multiline .plain t).map (prepend '\r' ∘ prepend '\n') else none
  | .plain, c :: t =>
    if c = '\\' then basic? multiline .escape t
    else if c = '"' then
      if multiline then
        match closing? '"' (c :: t) with
        | some r => some r
        | none => (basic? multiline .plain t).map (prepend c)
      else some ([], t)
    else if isPrintable c || (multiline && c = '\n') then
      (basic? multiline .plain t).map (prepend c)
    else none
  | .escape, '\r' :: '\n' :: t => if multiline then basic? multiline (.fold true) t else none
  | .escape, c :: t =>
    match escaped? c, codeLength? c with
    | some c', _ => (basic? multiline .plain t).map (prepend c')
    | none, some n => basic? multiline (.code n 0) t
    | none, none =>
      if multiline && c = '\n' then basic? multiline (.fold true) t
      else if multiline && isSpace c then basic? multiline (.fold false) t
      else none
  | .code left value, c :: t =>
    match hexDigit? c with
    | none => none
    | some d =>
      let value := value * 16 + d
      if left ≤ 1 then
        match character? value with
        | some c' => (basic? multiline .plain t).map (prepend c')
        | none => none
      else basic? multiline (.code (left - 1) value) t
  | .fold _, '\r' :: '\n' :: t => basic? multiline (.fold true) t
  | .fold ended, c :: t =>
    if c = '\n' then basic? multiline (.fold true) t
    else if isSpace c then basic? multiline (.fold ended) t
    else if !ended then none
    else if c = '\\' then basic? multiline .escape t
    else if c = '"' then
      match closing? '"' (c :: t) with
      | some r => some r
      | none => (basic? multiline .plain t).map (prepend c)
    else if isPrintable c then (basic? multiline .plain t).map (prepend c)
    else none

/-- Read a literal string on one line from behind its opening quote. -/
def literal? (t : Text) : Option (Text × Text) :=
  match t.dropWhile fun c => c != '\x27' && isPrintable c with
  | '\x27' :: rest => some (t.takeWhile fun c => c != '\x27' && isPrintable c, rest)
  | _ => none

/-- Read a literal string of several lines from behind its opening quotes. -/
def literalLines? : Text → Option (Text × Text)
  | [] => none
  | '\r' :: '\n' :: t => (literalLines? t).map (prepend '\r' ∘ prepend '\n')
  | c :: t =>
    if c = '\x27' then
      match closing? '\x27' (c :: t) with
      | some r => some r
      | none => (literalLines? t).map (prepend c)
    else if isPrintable c || c = '\n' then (literalLines? t).map (prepend c)
    else none

/-- A line end right behind the opening quotes does not count. -/
def skipLineEnd (t : Text) : Text := (afterLineEnd? t).getD t

/-- Read a string of any kind. -/
def quoted? (t : Text) : Option (Text × Text) :=
  match Text.after? "\"\"\"" t, Text.after? "\x27\x27\x27" t with
  | some t, _ => basic? true .plain (skipLineEnd t)
  | none, some t => literalLines? (skipLineEnd t)
  | none, none =>
    match t with
    | '"' :: t => basic? false .plain t
    | '\x27' :: t => literal? t
    | _ => none

end MemberOrder.Toml
