import MemberOrder.FileTree.Path

/-! # File trees

What the program can see of a file system: directories, files that hold
text, and files that do not. A path that does not start with a slash is
followed from the working directory.

Permissions are left out: every file may be opened and every directory may be
listed. What remains to go wrong is that something is missing, is of the other
kind or holds no text. -/

namespace MemberOrder

/-- A place in a file tree: the names from the root down to it. -/
abbrev Location := List Text

inductive Entry where
  | directory
  /-- A file that holds text. -/
  | document (content : Text)
  /-- A file whose bytes are no text. -/
  | binary
deriving DecidableEq, Repr

/-- A file with the given bytes. Text is encoded as UTF-8. -/
def Entry.ofBytes (bytes : ByteArray) : Entry :=
  match String.fromUTF8? bytes with
  | some s => document s.toList
  | none => binary

/-- Why something in a file tree cannot be used. -/
inductive AccessError where
  | notFound
  | notDirectory
  | isDirectory
  | notText
deriving DecidableEq, Repr

def AccessError.message : AccessError → Text
  | notFound => "No such file or directory (os error 2)"
  | notDirectory => "Not a directory (os error 20)"
  | isDirectory => "Is a directory (os error 21)"
  | notText => "stream did not contain valid UTF-8"

/-- A working directory and what is where. The entries come in the order in
which the system lists them. -/
structure FileTree where
  workingDirectory : Location := []
  entries : List (Location × Entry) := []
deriving DecidableEq, Repr

namespace FileTree

/-- What is at a location. The root is always there. -/
def entry? (t : FileTree) (l : Location) : Option Entry :=
  if l = [] then some .directory else t.entries.lookup l

/-- Put an entry at a location where nothing is. -/
def place (t : FileTree) (e : Entry) (l : Location) : FileTree :=
  if (t.entry? l).isSome then t else { t with entries := t.entries ++ [(l, e)] }

/-- Put an entry at a location, with the directories above it. -/
def add (t : FileTree) (l : Location) (e : Entry) : FileTree :=
  ((List.range l.length).foldl (fun t n => t.place .directory (l.take n)) t).place e l

/-- Follow the parts of a path from a location. Only a directory can be left
again, even by a part that leads nowhere. -/
def follow (t : FileTree) (l : Location) : List Text → Except AccessError Location
  | [] => .ok l
  | part :: parts =>
    match t.entry? l with
    | none => .error .notFound
    | some .directory =>
      match Path.component? part with
      | some .up => t.follow l.dropLast parts
      | some (.named n) =>
        if (t.entry? (l ++ [n])).isSome then t.follow (l ++ [n]) parts else .error .notFound
      | _ => t.follow l parts
    | some _ => .error .notDirectory

/-- The location that a path leads to. The empty path leads nowhere. -/
def locate (t : FileTree) (p : Path) : Except AccessError Location :=
  if p.text.isEmpty then .error .notFound
  else t.follow (if p.isAbsolute then [] else t.workingDirectory) p.parts

/-- What a path leads to. -/
def get (t : FileTree) (p : Path) : Except AccessError Entry := do
  match t.entry? (← t.locate p) with
  | some e => return e
  | none => throw .notFound

/-- Whether a path leads to something. -/
def has (t : FileTree) (p : Path) : Bool := (t.get p).toOption.isSome

def isDirectory (t : FileTree) (p : Path) : Bool := (t.get p).toOption == some .directory

/-- Whether a path leads to a file of any content. -/
def isFile (t : FileTree) (p : Path) : Bool := t.has p && !t.isDirectory p

/-- The text of the file at a path. -/
def read (t : FileTree) (p : Path) : Except AccessError Text := do
  match ← t.get p with
  | .document content => return content
  | .directory => throw .isDirectory
  | .binary => throw .notText

/-- The names in the directory at a location, in the order of the system. -/
def namesAt (t : FileTree) (l : Location) : List Text :=
  t.entries.filterMap fun e => if e.1.dropLast = l then e.1.getLast? else none

/-- The names in the directory at a path. -/
def list (t : FileTree) (p : Path) : Except AccessError (List Text) := do
  let l ← t.locate p
  match t.entry? l with
  | some .directory => return t.namesAt l
  | some _ => throw .notDirectory
  | none => throw .notFound

end FileTree
end MemberOrder
