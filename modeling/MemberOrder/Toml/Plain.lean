import MemberOrder.Toml.Decimal
import MemberOrder.Toml.Quoted

/-! # Plain values of a settings file

Truth values, numbers and moments are written without quotes. No setting
has such a value, but a file may hold keys that mean nothing here, and their
values have to be well formed. A number may be well formed and still stand
for no value. -/

namespace MemberOrder.Toml

/-! ## Numbers -/

/-- Digits with single underscores between them. -/
def isDigits (isDigit : Char → Bool) (t : Text) : Bool :=
  (t.pieces '_').all fun p => !p.isEmpty && p.all isDigit

/-- The value of digits in a base; other characters count nothing. -/
def valueOf (base : Nat) (t : Text) : Nat :=
  (t.filterMap hexDigit?).foldl (fun n d => n * base + d) 0

def afterSign (t : Text) : Text :=
  match t with
  | '+' :: t => t
  | '-' :: t => t
  | _ => t

/-- Digits of which the first is no zero, unless it is the only one. -/
def isDecimal (t : Text) : Bool :=
  isDigits Char.isDigit t && (t.head? != some '0' || t.length == 1)

/-- Digits with the mark of their base in front of them. There may be none. -/
def basedDigits? (t : Text) : Option (Nat × Text) :=
  let digits? (base : Nat) (isDigit : Char → Bool) (t : Text) : Option (Nat × Text) :=
    if t.isEmpty || isDigits isDigit t then some (base, t) else none
  match t with
  | '0' :: 'x' :: t => digits? 16 (fun c => (hexDigit? c).isSome) t
  | '0' :: 'o' :: t => digits? 8 (fun c => '0' ≤ c && c ≤ '7') t
  | '0' :: 'b' :: t => digits? 2 (fun c => c == '0' || c == '1') t
  | _ => none

/-- A number that starts with digits and an underscore. Each underscore
stands between two digits of some base; the rest of the number shows when it
is read, but nothing in it marks a fraction or an exponent. -/
def isSpaced (t : Text) : Bool :=
  let pieces := t.pieces '_'
  let isDigit (c : Char) : Bool := (hexDigit? c).isSome
  2 ≤ pieces.length && pieces.tail.all (fun p => p.head?.any isDigit) &&
    pieces.dropLast.all (fun p => p.getLast?.any isDigit) &&
    (t.takeWhile (· != '_')).all Char.isDigit && t.head? != some '0' &&
    t.all fun c => c != '.' && c != 'e' && c != 'E'

/-- A whole number, in a base or with a sign. -/
def isInteger (t : Text) : Bool :=
  (basedDigits? t).isSome || isDecimal (afterSign t) || isSpaced (afterSign t)

/-- Whether a whole number has digits of its base and at most 128 bits. -/
def integerFits (t : Text) : Bool :=
  match basedDigits? t with
  | some (base, digits) => !digits.isEmpty && valueOf base digits < Nat.pow 2 128
  | none =>
    let size := valueOf 10 (afterSign t)
    isDecimal (afterSign t) &&
      if t.head? == some '-' then size ≤ Nat.pow 2 127 else size < Nat.pow 2 128

/-- The value of an exponent with its mark and its sign. There may be none. -/
def exponent? : Text → Option Int
  | [] => some 0
  | _ :: t =>
    let size : Int := valueOf 10 (afterSign t)
    if isDigits Char.isDigit (afterSign t) then some (if t.head? == some '-' then -size else size)
    else none

/-- The value of a number with a fraction, an exponent or both; it has no
sign in front. -/
def decimal? (t : Text) : Option Decimal := do
  let mantissa := t.takeWhile fun c => c != 'e' && c != 'E'
  let rest := t.drop mantissa.length
  let exponent ← exponent? rest
  match Text.pieces '.' mantissa with
  | [whole] =>
    if isDecimal whole && !rest.isEmpty then some ⟨valueOf 10 whole, exponent⟩ else none
  | [whole, part] =>
    if isDecimal whole && isDigits Char.isDigit part then
      some ⟨valueOf 10 (whole ++ part), exponent - (part.countP Char.isDigit : Nat)⟩
    else none
  | _ => none

/-- A number with a fraction, an exponent or both. -/
def isFraction (t : Text) : Bool := (decimal? (afterSign t)).isSome

def isUnbounded (t : Text) : Bool :=
  afterSign t == "inf".toList || afterSign t == "nan".toList

/-- Whether a number stands for a value. One with a fraction or an exponent
has at most 64 bits. -/
def hasValue (t : Text) : Bool :=
  if isInteger t then integerFits t else (decimal? (afterSign t)).all Decimal.isFinite

/-! ## Times -/

/-- A number with the given count of digits. -/
def fixedNumber? (width : Nat) (t : Text) : Option Nat :=
  if t.length = width && t.all Char.isDigit then some (valueOf 10 t) else none

def isLeapYear (y : Nat) : Bool := y % 4 == 0 && (y % 100 != 0 || y % 400 == 0)

def daysIn (year month : Nat) : Nat :=
  if month = 2 then if isLeapYear year then 29 else 28
  else if [4, 6, 9, 11].contains month then 30
  else 31

def isDate (t : Text) : Bool :=
  match t.pieces '-' with
  | [y, m, d] =>
    match fixedNumber? 4 y, fixedNumber? 2 m, fixedNumber? 2 d with
    | some y, some m, some d => 1 ≤ m && m ≤ 12 && 1 ≤ d && d ≤ daysIn y m
    | _, _, _ => false
  | _ => false

/-- Seconds, possibly with a fraction. -/
def isSeconds (t : Text) : Bool :=
  match t.pieces '.' with
  | [s] => (fixedNumber? 2 s).any (· ≤ 60)
  | [s, part] => (fixedNumber? 2 s).any (· ≤ 60) && !part.isEmpty && part.all Char.isDigit
  | _ => false

def isHourMinute (h m : Text) : Bool :=
  (fixedNumber? 2 h).any (· ≤ 23) && (fixedNumber? 2 m).any (· ≤ 59)

/-- A time of day; its seconds may be missing. -/
def isTime (t : Text) : Bool :=
  match t.pieces ':' with
  | [h, m] => isHourMinute h m
  | [h, m, s] => isHourMinute h m && isSeconds s
  | _ => false

/-- A difference from universal time. -/
def isOffset (t : Text) : Bool :=
  match t with
  | ['z'] | ['Z'] => true
  | '+' :: t | '-' :: t =>
    match Text.pieces ':' t with
    | [h, m] => isHourMinute h m
    | _ => false
  | _ => false

/-- A time of day with or without an offset. -/
def isZonedTime (t : Text) : Bool :=
  let clock := t.takeWhile fun c => c.isDigit || c == ':' || c == '.'
  let offset := t.drop clock.length
  isTime clock && (offset.isEmpty || isOffset offset)

/-- A date, a time of day, or both with a mark between them. -/
def isMoment (t : Text) : Bool :=
  isDate t || isTime t ||
    isDate (t.take 10) && ["T".toList, "t".toList, " ".toList].contains ((t.drop 10).take 1) &&
      isZonedTime (t.drop 11)

/-! ## Reading -/

/-- The characters that do not end a plain value. -/
def isPlainChar (c : Char) : Bool :=
  ['=', ',', '[', ']', '\x7b', '\x7d', '#', ' ', '\t', '\r', '\n'].all (· != c)

def isPlainValue (t : Text) : Bool :=
  t == "true".toList || t == "false".toList || isInteger t || isFraction t || isUnbounded t ||
    isMoment t

/-- The characters of a plain value at the start of a text. A space may
stand between a date and a digit. -/
def plainText (t : Text) : Text :=
  let first := t.takeWhile isPlainChar
  match t.drop first.length with
  | ' ' :: c :: rest =>
    if isDate first && c.isDigit then first ++ ' ' :: (c :: rest).takeWhile isPlainChar else first
  | _ => first

/-- Read a plain value. -/
def plain? (t : Text) : Option (Text × Text) :=
  let p := plainText t
  if isPlainValue p then some (p, t.drop p.length) else none

end MemberOrder.Toml
