import MemberOrder.Construct.Opening
import MemberOrder.Proofs.Reading

/-! # The grammar of opening lines

Whether a line opens a construct is read off in one go: blanks and identifiers
are taken as far as they reach, and nothing is ever given back. The grammar
`Construct.Opening` says what an opening line looks like without a word about
how it is read: some way to divide the line has to fit. Both come to the same
(`Construct.opens_iff_opening`), because where a stretch of blanks or an
identifier ends leaves no choice. -/

namespace MemberOrder
namespace Construct

open Text (AllBlank StartsSolid)

/-! ## The grammar -/

/-- Words with which a line opens a construct, whatever follows them. -/
def leadingWords : List (Construct × Text) := [
  (header, "// SPDX"), (header, "pragma solidity"), (importing, "import "),
  (declaration, "contract"), (declaration, "interface"), (declaration, "library"),
  (declaration, "abstract contract"),
  (stateVariable, "mapping"), (stateVariable, "uint"), (stateVariable, "int"),
  (stateVariable, "bool"), (stateVariable, "address"), (stateVariable, "string"),
  (stateVariable, "bytes"), (stateVariable, "array")]

/-- Keywords that a name has to follow. -/
def namedKeywords : List (Construct × Text) := [
  (enumeration, "enum"), (struct, "struct"), (customError, "error"), (event, "event"),
  (modifier, "modifier"), (function, "function")]

/-- Keywords that a parenthesis has to follow. -/
def specialKeywords : List (Construct × Text) := [
  (constructor, "constructor"), (receiveOrFallback, "receive"), (receiveOrFallback, "fallback")]

/-- Words that may stand anywhere on the line. -/
def mentionedWords : List (Construct × Text) := [(constant, "constant"), (immutable, "immutable")]

/-- Visibilities that make a line a state variable when they follow a type. -/
def typedVisibilities : List Text := ["public", "private", "internal"]

/-- The lines that open a construct. Each rule is one shape of a line; what
follows the shape is arbitrary. -/
inductive Opening : Construct → Text → Prop
  | leading {c : Construct} {word : Text} (rest : Text) :
      (c, word) ∈ leadingWords → Opening c (word ++ rest)
  | named {c : Construct} {keyword blanks : Text} {x : Char} (rest : Text) :
      (c, keyword) ∈ namedKeywords → blanks ≠ [] → AllBlank blanks → isIdentifierChar x = true →
        Opening c (keyword ++ blanks ++ x :: rest)
  | special {c : Construct} {keyword blanks : Text} (rest : Text) :
      (c, keyword) ∈ specialKeywords → AllBlank blanks →
        Opening c (keyword ++ blanks ++ '(' :: rest)
  | typed {name blanks visibility : Text} (rest : Text) :
      name ≠ [] → (∀ x ∈ name, isIdentifierChar x = true) → blanks ≠ [] → AllBlank blanks →
        visibility ∈ typedVisibilities →
          Opening stateVariable (name ++ blanks ++ visibility ++ rest)
  | mentioned {c : Construct} {word t : Text} :
      (c, word) ∈ mentionedWords → ¬ "//".toList <+: t → word <:+: t → Opening c t

/-! ## The readers -/

theorem startsWithAny_iff {words : List Text} {t : Text} :
    startsWithAny words t = true ↔ ∃ word ∈ words, ∃ rest, t = word ++ rest := by
  rw [startsWithAny, List.any_eq_true]
  constructor
  · rintro ⟨word, hword, hbegins⟩
    obtain ⟨rest, rfl⟩ := List.isPrefixOf_iff_prefix.mp hbegins
    exact ⟨word, hword, rest, rfl⟩
  · rintro ⟨word, hword, rest, rfl⟩
    exact ⟨word, hword, List.isPrefixOf_iff_prefix.mpr (List.prefix_append word rest)⟩

theorem startsIdentifier_iff {t : Text} :
    startsIdentifier t = true ↔ ∃ x rest, isIdentifierChar x = true ∧ t = x :: rest := by
  cases t with
  | nil => simp [startsIdentifier]
  | cons x rest => simp [startsIdentifier]

/-- An identifier is read to its end. No other way to divide the text leaves a
blank behind the identifier. -/
theorem afterIdentifier?_eq_some_iff {t rest : Text} (hrest : ∃ c ∈ rest.head?, isBlank c = true) :
    afterIdentifier? t = some rest ↔
      ∃ name, name ≠ [] ∧ (∀ x ∈ name, isIdentifierChar x = true) ∧ t = name ++ rest := by
  constructor
  · intro h
    cases t with
    | nil => cases h
    | cons c t =>
      rw [afterIdentifier?] at h
      split at h
      · rename_i hc
        cases h
        refine ⟨c :: t.takeWhile isIdentifierChar, by simp, ?_, ?_⟩
        · exact List.forall_mem_cons.mpr ⟨hc, fun x hx => List.mem_takeWhile_imp hx⟩
        · rw [List.cons_append, List.takeWhile_append_dropWhile]
      · cases h
  · rintro ⟨name, hne, hname, rfl⟩
    obtain ⟨b, hb, hblank⟩ := hrest
    obtain ⟨rest, rfl⟩ := List.head?_eq_some_iff.mp hb
    cases name with
    | nil => exact absurd rfl hne
    | cons c name =>
      obtain ⟨hc, hname⟩ := List.forall_mem_cons.mp hname
      rw [List.cons_append, afterIdentifier?, if_pos hc, List.dropWhile_append_of_pos hname,
        List.dropWhile_cons_of_neg (by simp [isIdentifierChar_of_isBlank hblank])]

/-- A named construct: a keyword, blanks and the first character of a name. -/
theorem opensNamed_iff {keyword t : Text} :
    opensNamed keyword t = true ↔
      ∃ blanks x rest, blanks ≠ [] ∧ AllBlank blanks ∧ isIdentifierChar x = true ∧
        t = keyword ++ blanks ++ x :: rest := by
  simp only [opensNamed, Option.any_eq_true, Option.bind_eq_some_iff, Text.after?_eq_some_iff,
    Text.afterBlanks?_eq_some_iff, startsIdentifier_iff]
  constructor
  · rintro ⟨u, ⟨v, rfl, blanks, hne, hblanks, -, rfl⟩, x, rest, hx, rfl⟩
    exact ⟨blanks, x, rest, hne, hblanks, hx, (List.append_assoc ..).symm⟩
  · rintro ⟨blanks, x, rest, hne, hblanks, hx, rfl⟩
    refine ⟨x :: rest, ⟨blanks ++ x :: rest, List.append_assoc .., blanks, hne, hblanks, ?_, rfl⟩,
      x, rest, hx, rfl⟩
    -- The name does not begin with a blank, so all blanks have been read.
    rintro c ⟨rfl⟩
    by_contra hblank
    rw [isIdentifierChar_of_isBlank (Bool.not_eq_false _ ▸ hblank)] at hx
    cases hx

/-- If no word begins another, it does not matter which word is tried first. -/
theorem afterAny?_eq_some_iff {words : List Text}
    (hapart : ∀ v ∈ words, ∀ w ∈ words, v <+: w → v = w) {t rest : Text} :
    afterAny? words t = some rest ↔ ∃ w ∈ words, t = w ++ rest := by
  have hfound : ∀ {r}, afterAny? words t = some r → ∃ w ∈ words, t = w ++ r := by
    intro r h
    obtain ⟨w, hw, hafter⟩ := List.exists_of_findSome?_eq_some h
    exact ⟨w, hw, Text.after?_eq_some_iff.mp hafter⟩
  refine ⟨hfound, ?_⟩
  rintro ⟨w, hw, ht⟩
  cases hafter : afterAny? words t with
  | none =>
    have hw' := List.findSome?_eq_none_iff.mp hafter w hw
    rw [Text.after?_eq_some_iff.mpr ht] at hw'
    cases hw'
  | some r =>
    obtain ⟨v, hv, ht'⟩ := hfound hafter
    have hv' : v <+: t := ⟨r, ht'.symm⟩
    have hw' : w <+: t := ⟨rest, ht.symm⟩
    have hsame : v = w := by
      -- Both words begin the text, so one of them begins the other.
      rcases List.prefix_or_prefix_of_prefix hv' hw' with hle | hle
      · exact hapart v hv w hw hle
      · exact (hapart w hw v hv hle).symm
    rw [ht', hsame] at ht
    rw [List.append_cancel_left ht]

/-- A special function: a keyword and a parenthesis, perhaps with blanks between. -/
theorem opensSpecial_iff {keywords : List Text}
    (hapart : ∀ v ∈ keywords, ∀ w ∈ keywords, v <+: w → v = w) {t : Text} :
    opensSpecial keywords t = true ↔
      ∃ keyword ∈ keywords, ∃ blanks rest, AllBlank blanks ∧
        t = keyword ++ blanks ++ '(' :: rest := by
  simp only [opensSpecial, Option.any_eq_true, afterAny?_eq_some_iff hapart, beq_iff_eq]
  constructor
  · rintro ⟨u, ⟨keyword, hkey, rfl⟩, hparen⟩
    obtain ⟨blanks, hblanks, hsplit⟩ := Text.exists_allBlank_append_trimStart u
    obtain ⟨rest, hrest⟩ := List.head?_eq_some_iff.mp hparen
    refine ⟨keyword, hkey, blanks, rest, hblanks, ?_⟩
    rw [List.append_assoc, ← hrest, ← hsplit]
  · rintro ⟨keyword, hkey, blanks, rest, hblanks, rfl⟩
    refine ⟨blanks ++ '(' :: rest, ⟨keyword, hkey, List.append_assoc ..⟩, ?_⟩
    have hsolid : StartsSolid ('(' :: rest) := by
      rintro c ⟨rfl⟩
      decide
    rw [hblanks.trimStart_append hsolid]
    rfl

/-- A typed variable: a name, blanks and a visibility. -/
theorem opensTyped_iff {t : Text} :
    opensTyped t = true ↔
      ∃ name blanks visibility rest, name ≠ [] ∧ (∀ x ∈ name, isIdentifierChar x = true) ∧
        blanks ≠ [] ∧ AllBlank blanks ∧
        visibility ∈ typedVisibilities ∧
        t = name ++ blanks ++ visibility ++ rest := by
  simp only [opensTyped, Option.any_eq_true, Option.bind_eq_some_iff,
    Text.afterBlanks?_eq_some_iff, startsWithAny_iff]
  constructor
  · rintro ⟨u, ⟨v, hreads, blanks, hne, hblanks, -, rfl⟩, visibility, hvis, rest, rfl⟩
    obtain ⟨name, hname, hchars, rfl⟩ :=
      (afterIdentifier?_eq_some_iff (hblanks.exists_head? hne _)).mp hreads
    exact ⟨name, blanks, visibility, rest, hname, hchars, hne, hblanks, hvis, by simp⟩
  · rintro ⟨name, blanks, visibility, rest, hname, hchars, hne, hblanks, hvis, rfl⟩
    refine ⟨visibility ++ rest, ⟨blanks ++ (visibility ++ rest), ?_, blanks, hne, hblanks, ?_, rfl⟩,
      visibility, hvis, rest, rfl⟩
    · rw [afterIdentifier?_eq_some_iff (hblanks.exists_head? hne _)]
      exact ⟨name, hname, hchars, by simp⟩
    · -- A visibility does not begin with a blank.
      have hsolid : ∀ v ∈ typedVisibilities, v ≠ [] ∧ StartsSolid v := by decide +kernel
      exact (hsolid visibility hvis).2.append (hsolid visibility hvis).1 rest

/-- A word counts on any line that does not start with a comment. -/
theorem mentionsOutsideComment_iff {word t : Text} :
    mentionsOutsideComment word t = true ↔ ¬ "//".toList <+: t ∧ word <:+: t := by
  rw [mentionsOutsideComment, Bool.and_eq_true, Text.mentions_iff, Bool.not_eq_true',
    ← Bool.not_eq_true, List.isPrefixOf_iff_prefix]

/-! ## Readers and grammar agree -/

/-- Which readers are asked for a construct, in the terms of the grammar. -/
theorem opens_iff_reads (c : Construct) (t : Text) :
    c.opens t = true ↔
      (∃ word, (c, word) ∈ leadingWords ∧ ∃ rest, t = word ++ rest) ∨
        (∃ keyword, (c, keyword) ∈ namedKeywords ∧ opensNamed keyword t = true) ∨
        (∃ keyword, (c, keyword) ∈ specialKeywords ∧
          ∃ blanks rest, AllBlank blanks ∧ t = keyword ++ blanks ++ '(' :: rest) ∨
        (c = stateVariable ∧ opensTyped t = true) ∨
        ∃ word, (c, word) ∈ mentionedWords ∧ mentionsOutsideComment word t = true := by
  cases c with
  | constructor =>
    rw [opens, opensSpecial_iff (by decide)]
    simp [leadingWords, namedKeywords, specialKeywords, mentionedWords]
  | receiveOrFallback =>
    -- Neither keyword begins the other.
    rw [opens, opensSpecial_iff (by decide)]
    simp [leadingWords, namedKeywords, specialKeywords, mentionedWords]
  | _ =>
    simp [opens, startsWithAny_iff, leadingWords, namedKeywords, specialKeywords, mentionedWords]

/-- **The readers accept exactly their grammars.** Blanks and identifiers have no
character in common, and for every text and every construct the reader accepts
the text if it can be divided in the way that the grammar wants at all. -/
theorem opens_iff_opening :
    (∀ x, ¬ (isBlank x = true ∧ isIdentifierChar x = true)) ∧
      ∀ (c : Construct) (t : Text), c.opens t = true ↔ Opening c t := by
  constructor
  · rintro x ⟨hblank, hx⟩
    rw [isIdentifierChar_of_isBlank hblank] at hx
    cases hx
  · intro c t
    rw [opens_iff_reads]
    constructor
    · rintro (⟨word, hword, rest, rfl⟩ | ⟨keyword, hkey, hreads⟩ | ⟨keyword, hkey, hreads⟩ |
        ⟨rfl, hreads⟩ | ⟨word, hword, hreads⟩)
      · exact .leading rest hword
      · obtain ⟨blanks, x, rest, hne, hblanks, hx, rfl⟩ := opensNamed_iff.mp hreads
        exact .named rest hkey hne hblanks hx
      · obtain ⟨blanks, rest, hblanks, rfl⟩ := hreads
        exact .special rest hkey hblanks
      · obtain ⟨name, blanks, visibility, rest, hname, hchars, hne, hblanks, hvis, rfl⟩ :=
          opensTyped_iff.mp hreads
        exact .typed rest hname hchars hne hblanks hvis
      · obtain ⟨hcomment, hmentions⟩ := mentionsOutsideComment_iff.mp hreads
        exact .mentioned hword hcomment hmentions
    · intro h
      cases h with
      | leading rest hword => exact .inl ⟨_, hword, rest, rfl⟩
      | named rest hkey hne hblanks hx =>
        exact .inr (.inl ⟨_, hkey, opensNamed_iff.mpr ⟨_, _, rest, hne, hblanks, hx, rfl⟩⟩)
      | special rest hkey hblanks =>
        exact .inr (.inr (.inl ⟨_, hkey, _, rest, hblanks, rfl⟩))
      | typed rest hname hchars hne hblanks hvis =>
        exact .inr (.inr (.inr (.inl ⟨rfl, opensTyped_iff.mpr
          ⟨_, _, _, rest, hname, hchars, hne, hblanks, hvis, rfl⟩⟩)))
      | mentioned hword hcomment hmentions =>
        exact .inr (.inr (.inr (.inr ⟨_, hword,
          mentionsOutsideComment_iff.mpr ⟨hcomment, hmentions⟩⟩)))

end Construct
end MemberOrder
