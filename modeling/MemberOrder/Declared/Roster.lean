import MemberOrder.Comment
import MemberOrder.Declared.Names
import MemberOrder.NameSet

/-! # Rosters

A roster holds names of functions, events and structs, each kind by itself.
The names that a file declares form a roster (`Declarations`), and so do the names
that a comparison ignores (`DenyList`) or that one file lacks (`DeclarationDiff`). -/

namespace MemberOrder

/-- Names of functions, of events and of structs. -/
structure Roster where
  functions : NameSet
  events : NameSet
  structs : NameSet
deriving DecidableEq, Repr

namespace Roster

def empty : Roster := ⟨.empty, .empty, .empty⟩

/-- The roster with the given names. -/
def ofLists (functions events structs : List Text) : Roster :=
  ⟨.ofList functions, .ofList events, .ofList structs⟩

/-- The names that are ignored unless others are given: words that exercises
use in places where a name is expected. -/
def defaultDenied : Roster := ofLists ["visibility", "require", "revert"] ["data", "revert"] []

/-- The names of one roster that another lacks, kind by kind. -/
def diff (r s : Roster) : Roster :=
  ⟨r.functions.diff s.functions, r.events.diff s.events, r.structs.diff s.structs⟩

def isEmpty (r : Roster) : Bool := r.functions.isEmpty && r.events.isEmpty && r.structs.isEmpty

/-- The names that a source declares outside comments, without the denied
ones. -/
def ofSource (denied : Roster) (source : Text) : Roster :=
  let code := source.withoutComments
  (ofLists (DeclaredKind.function.names code) (DeclaredKind.event.names code)
    (DeclaredKind.struct.names code)).diff denied

end Roster
end MemberOrder
