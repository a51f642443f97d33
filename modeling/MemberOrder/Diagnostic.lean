import MemberOrder.Span

/-! # Diagnostics

A diagnostic is a message for the reader of a source: a code, a sentence,
labels on parts of the source and a word of advice. The codes are those of
`ErrorCode`. -/

namespace MemberOrder

/-- The kinds of warnings. -/
inductive WarningCode where
  | W001
  | W002
  | W003
deriving DecidableEq, Repr

namespace WarningCode

def name : WarningCode → Text
  | W001 => "W001"
  | W002 => "W002"
  | W003 => "W003"

def description : WarningCode → Text
  | W001 => "unterminated block"
  | W002 => "unbalanced closing brace"
  | W003 => "additional top-level declaration"

/-- The code with a given name. -/
def ofName? (t : Text) : Option WarningCode := [W001, W002, W003].find? fun c => c.name = t

end WarningCode

/-- A remark on a part of the source. A primary label marks the place of the
problem, a secondary one a place that explains it. -/
structure Label where
  span : Span
  message : Text
  isPrimary : Bool
deriving DecidableEq, Repr

/-- A warning about a source. -/
structure Diagnostic where
  message : Text
  code? : Option WarningCode := none
  labels : List Label := []
  help? : Option Text := none
deriving DecidableEq, Repr

namespace Diagnostic

def withCode (d : Diagnostic) (code : WarningCode) : Diagnostic := { d with code? := some code }

def withLabel (d : Diagnostic) (span : Span) (message : Text) : Diagnostic :=
  { d with labels := d.labels ++ [⟨span, message, true⟩] }

def withSecondaryLabel (d : Diagnostic) (span : Span) (message : Text) : Diagnostic :=
  { d with labels := d.labels ++ [⟨span, message, false⟩] }

def withHelp (d : Diagnostic) (help : Text) : Diagnostic := { d with help? := some help }

/-- The diagnostic on one line, its code in brackets. -/
def headline (d : Diagnostic) : Text :=
  match d.code? with
  | some c => .concat ["warning[", c.name, "]: ", d.message]
  | none => .concat ["warning: ", d.message]

end Diagnostic
end MemberOrder
