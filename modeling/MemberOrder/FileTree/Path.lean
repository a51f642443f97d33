import MemberOrder.Text.Basic

/-! # Paths

A path is kept as it was given, because it is shown to the user in this
form. Slashes divide it into components. -/

namespace MemberOrder

structure Path where
  text : Text
deriving DecidableEq, Repr

namespace Path

instance : Coe String Path := ⟨fun s => ⟨s.toList⟩⟩

/-- A step of a path. -/
inductive Component where
  /-- The root, for a path that starts with a slash. -/
  | root
  /-- The directory in which the path starts, if the path says so. -/
  | here
  /-- The directory above. -/
  | up
  | named (n : Text)
deriving DecidableEq, Repr

def isAbsolute (p : Path) : Bool := p.text.head? == some '/'

/-- The parts between the slashes, empty ones included. -/
def parts (p : Path) : List Text := p.text.pieces '/'

/-- What a part behind the first one stands for. Empty parts and single dots
lead nowhere. -/
def component? (part : Text) : Option Component :=
  if part = "" || part = "." then none
  else if part = ".." then some .up
  else some (.named part)

/-- The components of a path. -/
def components (p : Path) : List Component :=
  let start : List Component :=
    if p.isAbsolute then [.root]
    else if p.parts.head? = some "." then [.here]
    else []
  start ++ p.parts.filterMap component?

/-- The name of the file or directory that a path leads to, if its last
component is a name. -/
def fileName? (p : Path) : Option Text :=
  match p.components.getLast? with
  | some (.named n) => some n
  | _ => none

/-- A name without its extension, and the extension. A dot in front of the
whole name starts no extension. -/
def splitExtension (n : Text) : Text × Option Text :=
  match n.cutLast? '.' with
  | some (c :: stem, extension) => (c :: stem, some extension)
  | _ => (n, none)

def stem? (p : Path) : Option Text := p.fileName?.map fun n => (splitExtension n).1

def extension? (p : Path) : Option Text := p.fileName?.bind fun n => (splitExtension n).2

/-- The path of a name inside the directory at a path. -/
def join (p : Path) (n : Text) : Path :=
  match p.text.getLast? with
  | none | some '/' => ⟨p.text ++ n⟩
  | some _ => ⟨p.text ++ '/' :: n⟩

def Component.text : Component → Text
  | root => ""
  | here => "."
  | up => ".."
  | named n => n

/-- A path as seen from a directory that it starts with; a path that does not
start with it stays as it is. -/
def relativeTo (p base : Path) : Path :=
  if base.components.isPrefixOf p.components then
    ⟨Text.join ['/'] ((p.components.drop base.components.length).map Component.text)⟩
  else p

end Path
end MemberOrder
