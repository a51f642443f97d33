import MemberOrder.Section

/-! # Constructs

A file is made of constructs: directives, declarations and members. The
first line of a construct says what it is, and its kind says how far it
reaches and which section it goes to. For each kind `solorder` has a `Rule`, and
the first rule that fits a line decides. -/

namespace MemberOrder

/-- The kinds of constructs, in the order in which a line is tried. -/
inductive Construct where
  /-- A licence comment or a compiler version. -/
  | header
  | importing
  /-- A contract, an interface or a library. -/
  | declaration
  | enumeration
  | struct
  | customError
  | event
  | modifier
  | constructor
  | receiveOrFallback
  | function
  | constant
  | immutable
  | stateVariable
deriving DecidableEq, Repr

/-- How far a construct reaches from its first line. -/
inductive Extent where
  /-- The first line only. -/
  | line
  /-- To the end of a statement. -/
  | statement
  /-- Until its braces are closed, or to the end of a statement if it has
  no braces. -/
  | block
deriving DecidableEq, Repr

namespace Construct

/-- All constructs; the first that fits a line wins. -/
def priority : List Construct := [
  header, importing, declaration, enumeration, struct, customError, event, modifier, constructor,
  receiveOrFallback, function, constant, immutable, stateVariable]

def extent : Construct → Extent
  | enumeration | struct | modifier | constructor | receiveOrFallback | function => .block
  | customError | event => .statement
  | header | importing | declaration | constant | immutable | stateVariable => .line

/-- The section of a construct. That of a function depends on its
visibility. -/
def section? : Construct → Option Section
  | header => some .header
  | importing => some .imports
  | declaration => some .declaration
  | enumeration => some .enumerations
  | struct => some .structs
  | customError => some .customErrors
  | event => some .events
  | modifier => some .modifiers
  | constructor => some .constructors
  | receiveOrFallback => some .receiveOrFallback
  | function => none
  | constant => some .constants
  | immutable => some .immutables
  | stateVariable => some .stateVariables

/-- Whether the construct is looked for before the first declaration. -/
def standsOutside : Construct → Bool
  | header | importing | declaration => true
  | _ => false

/-- The word for the construct in a warning. -/
def keyword : Construct → Text
  | header => "header"
  | importing => "import"
  | declaration => "contract"
  | enumeration => "enum"
  | struct => "struct"
  | customError => "error"
  | event => "event"
  | modifier => "modifier"
  | constructor => "constructor"
  | receiveOrFallback => "receive/fallback"
  | function => "function"
  | constant => "constant"
  | immutable => "immutable"
  | stateVariable => "state variable"

end Construct
end MemberOrder
