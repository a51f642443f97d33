import MemberOrder.Text.Basic

/-! # Sets of names

A set of names is kept as a list in ascending order. The order compares
names character by character by code point; a proper beginning of a name
comes before the name. -/

namespace MemberOrder
namespace Text

/-- Whether one text comes before another. -/
def precedes : Text → Text → Bool
  | _, [] => false
  | [], _ :: _ => true
  | a :: s, b :: t => a.toNat < b.toNat || a == b && precedes s t

@[simp] theorem precedes_nil (s : Text) : precedes s [] = false := by cases s <;> rfl

theorem precedes_trans {s t u : Text} (h : precedes s t = true) (h' : precedes t u = true) :
    precedes s u = true := by
  induction s generalizing t u with
  | nil => cases t <;> cases u <;> simp_all [precedes]
  | cons a s ih =>
    cases t with
    | nil => simp at h
    | cons b t =>
      cases u with
      | nil => simp at h'
      | cons c u =>
        simp only [precedes, Bool.or_eq_true, decide_eq_true_eq, Bool.and_eq_true,
          beq_iff_eq] at h h' ⊢
        rcases h with h | ⟨rfl, h⟩ <;> rcases h' with h' | ⟨rfl, h'⟩
        · exact .inl (by omega)
        · exact .inl h
        · exact .inl h'
        · exact .inr ⟨rfl, ih h h'⟩

/-- Two different texts are in one order or the other. -/
theorem precedes_or_precedes {s t : Text} (h : s ≠ t) :
    precedes s t = true ∨ precedes t s = true := by
  induction s generalizing t with
  | nil => cases t <;> simp_all [precedes]
  | cons a s ih =>
    cases t with
    | nil => simp [precedes]
    | cons b t =>
      simp only [precedes, Bool.or_eq_true, decide_eq_true_eq, Bool.and_eq_true, beq_iff_eq]
      by_cases hab : a = b
      · subst hab
        have hst : s ≠ t := fun e => h (by rw [e])
        rcases ih hst with h' | h'
        · exact .inl (.inr ⟨rfl, h'⟩)
        · exact .inr (.inr ⟨rfl, h'⟩)
      · have : a.toNat ≠ b.toNat := fun e => hab (Char.toNat_inj.mp e)
        rcases Nat.lt_or_gt_of_ne this with h' | h'
        · exact .inl (.inl h')
        · exact .inr (.inl h')

end Text

/-- A set of names, listed in ascending order. -/
structure NameSet where
  toList : List Text
  ascending : toList.Pairwise fun s t => Text.precedes s t = true := by simp
deriving DecidableEq, Repr

namespace NameSet

def empty : NameSet := { toList := [] }

/-- Put a name at its place in an ascending list, unless it is there. -/
def place (n : Text) : List Text → List Text
  | [] => [n]
  | m :: ms => if n = m then m :: ms else if n.precedes m then n :: m :: ms else m :: place n ms

@[simp] theorem mem_place {n m : Text} {ms : List Text} : m ∈ place n ms ↔ m = n ∨ m ∈ ms := by
  induction ms with
  | nil => simp [place]
  | cons k ks ih =>
    simp only [place]
    split
    · rename_i h
      simp [h]
    · split
      · simp
      · simp only [List.mem_cons, ih]
        constructor
        · rintro (h | h | h) <;> simp [h]
        · rintro (h | h | h) <;> simp [h]

theorem ascending_place (n : Text) {ms : List Text}
    (h : ms.Pairwise fun s t => Text.precedes s t = true) :
    (place n ms).Pairwise fun s t => Text.precedes s t = true := by
  induction ms with
  | nil => simp [place]
  | cons m ms ih =>
    obtain ⟨hm, hms⟩ := List.pairwise_cons.mp h
    simp only [place]
    split
    · exact h
    · rename_i hne
      split
      · rename_i hlt
        refine List.pairwise_cons.mpr ⟨fun k hk => ?_, h⟩
        rcases List.mem_cons.mp hk with rfl | hk
        · exact hlt
        · exact Text.precedes_trans hlt (hm k hk)
      · rename_i hlt
        refine List.pairwise_cons.mpr ⟨fun k hk => ?_, ih hms⟩
        rcases mem_place.mp hk with rfl | hk
        · exact (Text.precedes_or_precedes hne).resolve_left hlt
        · exact hm k hk

def insert (s : NameSet) (n : Text) : NameSet := ⟨place n s.toList, ascending_place n s.ascending⟩

/-- The set of the names in a list. -/
def ofList (ns : List Text) : NameSet := ns.foldl insert empty

def contains (s : NameSet) (n : Text) : Bool := s.toList.contains n

@[simp] theorem mem_insert {s : NameSet} {n m : Text} :
    m ∈ (s.insert n).toList ↔ m = n ∨ m ∈ s.toList := mem_place

theorem mem_foldl_insert {ns : List Text} {s : NameSet} {m : Text} :
    m ∈ (ns.foldl insert s).toList ↔ m ∈ s.toList ∨ m ∈ ns := by
  induction ns generalizing s with
  | nil => simp
  | cons n ns ih =>
    rw [List.foldl_cons, ih, mem_insert, List.mem_cons]
    constructor
    · rintro ((h | h) | h) <;> simp [h]
    · rintro (h | h | h) <;> simp [h]

@[simp] theorem mem_ofList {ns : List Text} {m : Text} : m ∈ (ofList ns).toList ↔ m ∈ ns := by
  simp [ofList, mem_foldl_insert, empty]

/-- The names of one set that are not in another. -/
def diff (s t : NameSet) : NameSet :=
  ⟨s.toList.filter fun n => !t.contains n, s.ascending.filter _⟩

@[simp] theorem mem_diff {s t : NameSet} {n : Text} :
    n ∈ (s.diff t).toList ↔ n ∈ s.toList ∧ n ∉ t.toList := by
  simp [diff, contains]

def isEmpty (s : NameSet) : Bool := s.toList.isEmpty

end NameSet
end MemberOrder
