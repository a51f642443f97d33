import Mathlib.Data.List.Sort
import Mathlib.Tactic.SplitIfs
import MemberOrder.Exercise.Pairing

/-! # The order of names

Names are compared character by character. This is the order of their bytes:
UTF-8 keeps the order of the code points, and the bytes of a character never
begin those of another (`Text.precedes_iff_bytes_lt`). Sorting leaves a list
that depends on nothing but which names there are
(`Exercise.sorted_eq_of_mem_iff`), so it does not matter in which order a
directory lists them. -/

namespace MemberOrder

namespace Text

/-- The bytes of the UTF-8 form of a text. -/
def bytes (t : Text) : List UInt8 := t.flatMap String.utf8EncodeChar

/-- Byte sequences are compared by their first bytes, which are compared as numbers. -/
theorem cons_ofNat_lt_cons_ofNat {m n : Nat} (hm : m < 256) (hn : n < 256) (x y : List UInt8) :
    UInt8.ofNat m :: x < UInt8.ofNat n :: y ↔ m < n ∨ m = n ∧ x < y := by
  rw [List.cons_lt_cons_iff, UInt8.ofNat_lt_iff_lt hm hn, ← UInt8.toNat_inj,
    UInt8.toNat_ofNat_of_lt' hm, UInt8.toNat_ofNat_of_lt' hn]

/-- The first character that differs decides, whatever follows it. -/
theorem utf8EncodeChar_append_lt {a b : Char} (h : a.toNat < b.toNat) (x y : List UInt8) :
    String.utf8EncodeChar a ++ x < String.utf8EncodeChar b ++ y := by
  have hvalid := b.valid
  simp only [UInt32.isValidChar, Nat.isValidChar] at hvalid
  change a.val.toNat < b.val.toNat at h
  -- Each byte takes six more bits off the code point.
  have hsteps : ∀ k : Nat, k / 4096 = k / 64 / 64 ∧ k / 262144 = k / 64 / 64 / 64 := by omega
  unfold String.utf8EncodeChar
  simp only [(hsteps _).1, (hsteps _).2]
  split_ifs <;>
    simp (disch := omega) only [List.cons_append, List.nil_append, cons_ofNat_lt_cons_ofNat] <;>
    omega

theorem bytes_lt_of_precedes {s t : Text} (h : s.precedes t = true) : s.bytes < t.bytes := by
  unfold bytes
  induction s generalizing t with
  | nil =>
    cases t with
    | nil => simp at h
    | cons b t =>
      rw [List.flatMap_nil, List.flatMap_cons]
      -- A character has at least one byte.
      cases hb : String.utf8EncodeChar b with
      | nil =>
        have hsize := b.utf8Size_pos
        rw [← String.length_utf8EncodeChar, hb] at hsize
        exact absurd hsize (Nat.lt_irrefl 0)
      | cons byte rest => exact List.nil_lt_cons byte _
  | cons a s ih =>
    cases t with
    | nil => simp at h
    | cons b t =>
      simp only [precedes, Bool.or_eq_true, decide_eq_true_eq, Bool.and_eq_true, beq_iff_eq] at h
      rw [List.flatMap_cons, List.flatMap_cons]
      rcases h with hlt | ⟨rfl, hrest⟩
      · exact utf8EncodeChar_append_lt hlt _ _
      · exact List.append_left_lt (ih hrest)

/-- Names are in the order of their bytes. -/
theorem precedes_iff_bytes_lt {s t : Text} : s.precedes t = true ↔ s.bytes < t.bytes := by
  constructor
  · exact bytes_lt_of_precedes
  · intro hlt
    by_contra hnot
    have hne : s ≠ t := by
      rintro rfl
      exact List.lt_irrefl _ hlt
    have hgt := (precedes_or_precedes hne).resolve_left hnot
    exact List.lt_asymm hlt (bytes_lt_of_precedes hgt)

end Text

namespace Exercise

@[simp] theorem mem_sorted {names : List Text} {n : Text} : n ∈ sorted names ↔ n ∈ names :=
  NameSet.mem_ofList

/-- Sorted names are in the order of their bytes, and none comes twice. -/
theorem pairwise_sorted (names : List Text) :
    (sorted names).Pairwise fun m n => m.bytes < n.bytes := by
  refine (NameSet.ofList names).ascending.imp ?_
  intro m n h
  exact Text.precedes_iff_bytes_lt.mp h

/-- Which names there are decides the order. -/
theorem sorted_eq_of_mem_iff {names names' : List Text} (h : ∀ n, n ∈ names ↔ n ∈ names') :
    sorted names = sorted names' := by
  have hirrefl : Std.Irrefl fun m n : Text => m.bytes < n.bytes := ⟨fun n => List.lt_irrefl n.bytes⟩
  apply (pairwise_sorted names).eq_of_mem_iff (pairwise_sorted names')
  intro n
  rw [mem_sorted, mem_sorted, h]

end Exercise
end MemberOrder
