import Mathlib.Data.List.Find
import Mathlib.Data.List.Permutation
import MemberOrder.Proofs.Construct
import MemberOrder.Proofs.Opening

/-! # Where the order of the table matters

A line is tried against the table of constructs from the top. A line that opens
one of the first eleven begins with a word of this construct, and no word of one
construct begins a word of another. So a line opens at most one of the eleven
(`Construct.eq_of_opens`), and their order decides nothing. The last three have no
such words: one line can open all of them, and every other order of these three
changes the answer for some line (`Construct.exists_firstIn?_ne`). -/

namespace MemberOrder
namespace Construct

/-! ## The first eleven -/

/-- The words with which a line opens one of the first eleven constructs. -/
def headWords : List (Construct × Text) :=
  (leadingWords ++ namedKeywords ++ specialKeywords).filter fun e => e.1 ∈ priority.take 11

/-- A word of one construct begins no word of another. -/
theorem headWords_apart :
    ∀ e ∈ headWords, ∀ e' ∈ headWords, e.2 <+: e'.2 → e.1 = e'.1 := by
  decide +kernel

/-- A line that opens one of the first eleven begins with a word of it. -/
theorem exists_headWord {c : Construct} (hc : c ∈ priority.take 11) {t : Text}
    (h : c.opens t = true) : ∃ word, (c, word) ∈ headWords ∧ word <+: t := by
  have hhead : ∀ {word}, (c, word) ∈ leadingWords ++ namedKeywords ++ specialKeywords →
      (c, word) ∈ headWords := by
    intro word hword
    rw [headWords, List.mem_filter, decide_eq_true_eq]
    exact ⟨hword, hc⟩
  rcases (opens_iff_reads c t).mp h with ⟨word, hword, rest, rfl⟩ | ⟨keyword, hkey, hreads⟩ |
    ⟨keyword, hkey, hreads⟩ | ⟨rfl, -⟩ | ⟨word, hword, -⟩
  · exact ⟨word, hhead (by simp [hword]), List.prefix_append word rest⟩
  · rcases opensNamed_iff.mp hreads with ⟨blanks, x, rest, -, -, -, rfl⟩
    rw [List.append_assoc]
    exact ⟨keyword, hhead (by simp [hkey]), List.prefix_append keyword _⟩
  · rcases hreads with ⟨blanks, rest, -, rfl⟩
    rw [List.append_assoc]
    exact ⟨keyword, hhead (by simp [hkey]), List.prefix_append keyword _⟩
  · -- A state variable is not among the first eleven, and neither is what is only mentioned.
    exact absurd hc (by decide)
  · have hlate : ∀ e ∈ mentionedWords, e.1 ∉ priority.take 11 := by decide +kernel
    exact absurd hc (hlate _ hword)

/-- A line opens at most one of the first eleven. -/
theorem eq_of_opens {c d : Construct} (hc : c ∈ priority.take 11) (hd : d ∈ priority.take 11)
    {t : Text} (h : c.opens t = true) (h' : d.opens t = true) : c = d := by
  rcases exists_headWord hc h with ⟨word, hword, hbegins⟩
  rcases exists_headWord hd h' with ⟨word', hword', hbegins'⟩
  -- Two beginnings of one text begin each other.
  rcases List.prefix_or_prefix_of_prefix hbegins hbegins' with hle | hle
  · exact headWords_apart _ hword _ hword' hle
  · exact (headWords_apart _ hword' _ hword hle).symm

theorem firstIn?_append (table table' : List Construct) (inside : Bool) (t : Text) :
    firstIn? (table ++ table') inside t =
      (firstIn? table inside t).or (firstIn? table' inside t) :=
  List.find?_append

/-- The first eleven may be listed in any order. -/
theorem firstIn?_of_perm {leading : List Construct} (h : leading.Perm (priority.take 11))
    (inside : Bool) (t : Text) :
    firstIn? leading inside t = firstIn? (priority.take 11) inside t := by
  symm
  apply List.find?_eq_find?_of_perm h.symm
  rintro c ⟨hc, hopens⟩ d ⟨hd, hopens'⟩
  rw [Bool.and_eq_true] at hopens hopens'
  exact eq_of_opens hc hd hopens.2 hopens'.2

/-! ## The last three -/

/-- Every other order of the last three shows on one of two lines: one that opens
all three, and one that opens the last two. -/
theorem exists_firstIn?_ne {trailing : List Construct} (h : trailing.Perm (priority.drop 11))
    (hne : trailing ≠ priority.drop 11) :
    ∃ t, firstIn? (priority.take 11 ++ trailing) true t ≠ first? true t := by
  have hshows : ∀ order ∈ (priority.drop 11).permutations', order ≠ priority.drop 11 →
      firstIn? (priority.take 11 ++ order) true "uint constant immutable".toList ≠
          first? true "uint constant immutable".toList ∨
        firstIn? (priority.take 11 ++ order) true "uint immutable".toList ≠
          first? true "uint immutable".toList := by
    decide +kernel
  rcases hshows trailing (List.mem_permutations'.mpr h) hne with hline | hline
  · exact ⟨_, hline⟩
  · exact ⟨_, hline⟩

/-- **Priority matters only for the last three constructs.** A line opens at most one
of the first eleven, so a table that lists these in another order gives the same
answer for every line, inside a body and outside. No other order of the last three
does. And entering the body changes nothing for a line that was recognised before:
what a line opens outside is what it opens inside, if this is a header, an import or
a declaration. -/
theorem priority_matters_last :
    (∀ t, ∀ c ∈ priority.take 11, ∀ d ∈ priority.take 11,
        c.opens t = true → d.opens t = true → c = d) ∧
      (∀ leading, leading.Perm (priority.take 11) → ∀ inside t,
        firstIn? (leading ++ priority.drop 11) inside t = first? inside t) ∧
      (∀ trailing, trailing.Perm (priority.drop 11) → trailing ≠ priority.drop 11 →
        ∃ t, firstIn? (priority.take 11 ++ trailing) true t ≠ first? true t) ∧
      ∀ t c, first? false t = some c ↔
        first? true t = some c ∧ (c = header ∨ c = importing ∨ c = declaration) := by
  refine ⟨?_, ?_, ?_, ?_⟩
  · intro t c hc d hd h h'
    exact eq_of_opens hc hd h h'
  · intro leading hperm inside t
    rw [firstIn?_append, firstIn?_of_perm hperm, ← firstIn?_append, List.take_append_drop]
    rfl
  · intro trailing hperm hne
    exact exists_firstIn?_ne hperm hne
  · have hleading : ∀ c : Construct, c.standsOutside = true ↔
        c = header ∨ c = importing ∨ c = declaration := by
      intro c
      cases c <;> decide
    intro t c
    rw [← hleading]
    constructor
    · intro h
      have hc := standsOutside_of_first?_false h
      exact ⟨first?_of_standsOutside h hc true, hc⟩
    · rintro ⟨h, hc⟩
      exact first?_of_standsOutside h hc false

/-- The table upside down, as far as its order does not matter: a constructor is not
taken for a contract, nor an interface for a number. -/
theorem priority_matters_last_reversed :
    let leading := (priority.take 11).reverse
    let table := leading ++ priority.drop 11
    leading.Perm (priority.take 11) ∧
      firstIn? table true "constructor(uint a) payable".toList = some constructor ∧
      firstIn? table true "interface IVault".toList = some declaration ∧
      firstIn? table false "interface IVault".toList = some declaration ∧
      firstIn? table true "uint constant A = 1;".toList = some constant := by
  intro leading table
  have hperm : leading.Perm (priority.take 11) := List.reverse_perm _
  have htable := priority_matters_last.2.1 leading hperm
  refine ⟨hperm, ?_, ?_, ?_, ?_⟩
  all_goals
    rw [htable]
    decide +kernel

end Construct
end MemberOrder
