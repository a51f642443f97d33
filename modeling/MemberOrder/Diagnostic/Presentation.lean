import MemberOrder.Diagnostic

/-! # Presenting diagnostics

A diagnostic is shown together with the source that it is about. The parts of
the source to be underlined are given by the byte at which they start and the
number of their bytes. -/

namespace MemberOrder

/-- A part of a source with a remark on it. -/
structure Excerpt where
  offset : Nat
  length : Nat
  remark : Text
  isPrimary : Bool
deriving DecidableEq, Repr

/-- What is shown of a diagnostic. Without labels nothing is underlined. -/
structure Presentation where
  source : Text
  title : Text
  code? : Option WarningCode
  help? : Option Text
  excerpts? : Option (List Excerpt)
deriving DecidableEq, Repr

def Label.excerpt (b : Label) : Excerpt := ⟨b.span.start, b.span.length, b.message, b.isPrimary⟩

/-- How a diagnostic about a source is shown. -/
def Diagnostic.presentation (source : Text) (d : Diagnostic) : Presentation where
  source
  title := d.message
  code? := d.code?
  help? := d.help?
  excerpts? := if d.labels.isEmpty then none else some (d.labels.map Label.excerpt)

/-- How the diagnostics about a source are shown, in order. -/
def Presentation.all (source : Text) (ds : List Diagnostic) : List Presentation :=
  ds.map (Diagnostic.presentation source)

end MemberOrder
