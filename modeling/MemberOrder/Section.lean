import MemberOrder.Text.Basic

/-! # Sections

The canonical layout of a file is a sequence of sections. Every line of the
file belongs to one of them. A section is what `solorder` calls a `Category`. -/

namespace MemberOrder

/-- The sections of a file. -/
inductive Section where
  | header
  | imports
  | declaration
  | enumerations
  | structs
  | constants
  | immutables
  | stateVariables
  | customErrors
  | events
  | modifiers
  | constructors
  | receiveOrFallback
  | externalFunctions
  | publicFunctions
  | internalFunctions
  | privateFunctions
  | uncategorized
deriving DecidableEq, Repr

namespace Section

/-- All sections in the order in which a file shows them. It is the order in which
they are declared (`Section.map_rank_canonical`). -/
def canonical : List Section := [
  header, imports, declaration, enumerations, structs, constants, immutables, stateVariables,
  customErrors, events, modifiers, constructors, receiveOrFallback, externalFunctions,
  publicFunctions, internalFunctions, privateFunctions, uncategorized]

/-- The position of a section among all sections. -/
def rank (s : Section) : Nat := s.ctorIdx

/-- Whether the section holds functions of one visibility. -/
def holdsFunctions : Section → Bool
  | externalFunctions | publicFunctions | internalFunctions | privateFunctions => true
  | _ => false

/-- The name of a section, as it is shown to the user. -/
def name : Section → Text
  | header => "header"
  | imports => "imports"
  | declaration => "contract-declaration"
  | enumerations => "enum"
  | structs => "struct"
  | constants => "constant"
  | immutables => "immutable"
  | stateVariables => "state-variable"
  | customErrors => "custom-error"
  | events => "event"
  | modifiers => "modifier"
  | constructors => "constructor"
  | receiveOrFallback => "receive-or-fallback"
  | externalFunctions => "external-function"
  | publicFunctions => "public-function"
  | internalFunctions => "internal-function"
  | privateFunctions => "private-function"
  | uncategorized => "uncategorized"

/-- The section with a given name. -/
def ofName? (t : Text) : Option Section := canonical.find? fun s => s.name = t

end Section
end MemberOrder
