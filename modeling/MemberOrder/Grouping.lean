import MemberOrder.Line
import MemberOrder.Section

/-! # Lines grouped by section

A grouping collects lines under their sections. It remembers the order in
which the sections were first named, and it can be read in the canonical
order. Within a section the lines keep the order in which they came. This is the
`ClassifiedDocument` to which a classification hands its lines. -/

namespace MemberOrder

/-- The lines of each section that was named, in the order of the first
naming. -/
structure Grouping where
  entries : List (Section × List Line)
deriving DecidableEq, Repr

namespace Grouping

def empty : Grouping := ⟨[]⟩

/-- Add lines at the end of a section's entry. A section that is not yet
there gets a new last entry, even for no lines at all. -/
def addTo (s : Section) (ls : List Line) :
    List (Section × List Line) → List (Section × List Line)
  | [] => [(s, ls)]
  | (s', ls') :: es => if s' = s then (s', ls' ++ ls) :: es else (s', ls') :: addTo s ls es

/-- Put several lines into a section. -/
def append (g : Grouping) (s : Section) (ls : List Line) : Grouping := ⟨addTo s ls g.entries⟩

/-- Put one line into a section. -/
def push (g : Grouping) (s : Section) (l : Line) : Grouping := g.append s [l]

/-- The lines of a section; none if it was never named. -/
def lines (g : Grouping) (s : Section) : List Line := (g.entries.lookup s).getD []

theorem lookup_addTo (s s' : Section) (ls : List Line) (es : List (Section × List Line)) :
    ((addTo s ls es).lookup s').getD [] =
      (es.lookup s').getD [] ++ if s' = s then ls else [] := by
  induction es with
  | nil =>
    by_cases h : s' = s
    · simp [addTo, h]
    · have hne : (s' == s) = false := by simpa using h
      simp [addTo, List.lookup_cons, hne, h]
  | cons e es ih =>
    obtain ⟨k, old⟩ := e
    by_cases hk : k = s
    · subst hk
      by_cases h : s' = k
      · simp [addTo, h]
      · have hne : (s' == k) = false := by simpa using h
        simp [addTo, List.lookup_cons, hne, h]
    · by_cases h : s' = k
      · subst h
        simp [addTo, hk]
      · have hne : (s' == k) = false := by simpa using h
        simp [addTo, hk, List.lookup_cons, hne, ih]

/-- Lines that are put into a section come behind those that are there. -/
@[simp] theorem lines_append (g : Grouping) (s s' : Section) (ls : List Line) :
    (g.append s ls).lines s' = g.lines s' ++ if s' = s then ls else [] :=
  lookup_addTo s s' ls g.entries

/-- The sections that hold a line, in canonical order, with their lines. -/
def canonical (g : Grouping) : List (Section × List Line) :=
  (Section.canonical.map fun s => (s, g.lines s)).filter fun e => !e.2.isEmpty

/-- The sections that hold a line, in the order of their first naming. -/
def sections (g : Grouping) : List Section :=
  (g.entries.filter fun e => !e.2.isEmpty).map (·.1)

/-- The number of lines in all sections together. -/
def size (g : Grouping) : Nat := g.entries.foldr (fun e n => e.2.length + n) 0

@[simp] theorem size_append (g : Grouping) (s : Section) (ls : List Line) :
    (g.append s ls).size = g.size + ls.length := by
  obtain ⟨es⟩ := g
  show (addTo s ls es).foldr (fun e n => e.2.length + n) 0 =
    es.foldr (fun e n => e.2.length + n) 0 + ls.length
  induction es with
  | nil => simp [addTo]
  | cons e es ih =>
    by_cases h : e.1 = s
    · simp [addTo, h]
      omega
    · simp [addTo, h, ih]
      omega

def isEmpty (g : Grouping) : Bool := g.size == 0

/-- The section that holds a line with the given index. Of several, the one
named first. -/
def sectionOf? (g : Grouping) (index : Nat) : Option Section :=
  (g.entries.find? fun e => e.2.any fun l => l.index == index).map (·.1)

end Grouping
end MemberOrder
