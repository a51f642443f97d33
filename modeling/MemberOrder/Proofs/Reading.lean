import Mathlib.Data.List.Infix
import Mathlib.Data.List.TakeWhile
import MemberOrder.Text.Blank
import MemberOrder.Text.Word

/-! # What readers take and leave

Readers go through a text from the left and leave a rest. Each of them is
described by the ways to divide a text that it stands for: a word and what
follows it, blanks and what follows them, a first mark and what stands on both
sides of it. Blanks have no character in common with names, so a longest stretch
of either is the only one that something else can follow. -/

namespace MemberOrder

/-! ## Classes of characters -/

/-- Whether two classes of characters have nothing in common, range by range. -/
def apart (rs ss : List CharRange) : Bool :=
  rs.all fun r => ss.all fun s => r.2 < s.1 || s.2 < r.1

/-- A character is in one of two families of ranges only, if they have nothing in
common. -/
theorem inRanges_eq_false_of_apart {rs : List CharRange} {c : Char} (hc : inRanges rs c = true)
    (ss : List CharRange) (h : apart rs ss = true) : inRanges ss c = false := by
  obtain ⟨r, hr, hlow, hhigh⟩ := inRanges_iff.mp hc
  rw [← Bool.not_eq_true, inRanges_iff]
  rintro ⟨s, hs, hlow', hhigh'⟩
  have hrs := List.all_eq_true.mp (List.all_eq_true.mp h r hr) s hs
  simp only [Bool.or_eq_true, decide_eq_true_eq] at hrs
  omega

/-- No blank is part of an identifier. -/
theorem isIdentifierChar_of_isBlank {c : Char} (h : isBlank c = true) :
    isIdentifierChar c = false := by
  have hunderscore : (c == '_') = false := by
    rw [beq_eq_false_iff_ne]
    rintro rfl
    revert h
    decide
  have hdecimal := inRanges_eq_false_of_apart h decimalNumber (by decide +kernel)
  have halphabetic := inRanges_eq_false_of_apart h alphabetic (by decide +kernel)
  have hother := inRanges_eq_false_of_apart h otherNumber (by decide +kernel)
  rw [isIdentifierChar, hunderscore, hdecimal, halphabetic, hother]
  rfl

/-- No blank is part of a word. -/
theorem isWordChar_of_isBlank {c : Char} (h : isBlank c = true) : isWordChar c = false := by
  have hconnector := inRanges_eq_false_of_apart h connector (by decide +kernel)
  have hdecimal := inRanges_eq_false_of_apart h decimalNumber (by decide +kernel)
  have halphabetic := inRanges_eq_false_of_apart h alphabetic (by decide +kernel)
  have hmark := inRanges_eq_false_of_apart h mark (by decide +kernel)
  have hjoin := inRanges_eq_false_of_apart h joinControl (by decide +kernel)
  rw [isWordChar, hconnector, hdecimal, halphabetic, hmark, hjoin]
  rfl

/-- No part of a word is blank. -/
theorem isBlank_of_isWordChar {c : Char} (h : isWordChar c = true) : isBlank c = false := by
  rw [← Bool.not_eq_true]
  intro hblank
  rw [isWordChar_of_isBlank hblank] at h
  cases h

namespace Text

/-! ## Stretches -/

section Stretch

variable {p : Char → Bool} {s s' t t' : Text}

/-- Where dropping stops, the property fails. -/
theorem dropWhile_stops (p : Char → Bool) (t : Text) :
    ∀ c ∈ (t.dropWhile p).head?, p c = false := by
  intro c hc
  have hstops := List.head?_dropWhile_not p t
  rwa [Option.mem_def.mp hc] at hstops

theorem takeWhile_stretch (hs : ∀ c ∈ s, p c = true) (ht : ∀ c ∈ t.head?, p c = false) :
    (s ++ t).takeWhile p = s := by
  rw [List.takeWhile_append_of_pos hs]
  cases t with
  | nil => simp
  | cons c t => rw [List.takeWhile_cons_of_neg (by simp [ht c rfl]), List.append_nil]

theorem dropWhile_stretch (hs : ∀ c ∈ s, p c = true) (ht : ∀ c ∈ t.head?, p c = false) :
    (s ++ t).dropWhile p = t := by
  have hsplit : (s ++ t).takeWhile p ++ (s ++ t).dropWhile p = s ++ t :=
    List.takeWhile_append_dropWhile
  rw [takeWhile_stretch hs ht] at hsplit
  exact List.append_cancel_left hsplit

/-- Where a longest stretch of characters of a class ends is clear from the text. -/
theorem stretch_inj (hs : ∀ c ∈ s, p c = true) (hs' : ∀ c ∈ s', p c = true)
    (ht : ∀ c ∈ t.head?, p c = false) (ht' : ∀ c ∈ t'.head?, p c = false)
    (heq : s ++ t = s' ++ t') : s = s' ∧ t = t' := by
  constructor
  · rw [← takeWhile_stretch hs ht, heq, takeWhile_stretch hs' ht']
  · rw [← dropWhile_stretch hs ht, heq, dropWhile_stretch hs' ht']

end Stretch

/-! ## Blanks -/

/-- All characters of the text are blank. -/
def AllBlank (t : Text) : Prop := ∀ c ∈ t, isBlank c = true

/-- The text does not begin with a blank. -/
def StartsSolid (t : Text) : Prop := ∀ c ∈ t.head?, isBlank c = false

theorem startsSolid_trimStart (t : Text) : StartsSolid t.trimStart := dropWhile_stops isBlank t

instance : DecidablePred StartsSolid
  | [] => isTrue (by simp [StartsSolid])
  | c :: t => decidable_of_iff (isBlank c = false) (by simp [StartsSolid])

theorem StartsSolid.append {t : Text} (h : StartsSolid t) (hne : t ≠ []) (u : Text) :
    StartsSolid (t ++ u) := by
  rwa [StartsSolid, List.head?_append_of_ne_nil t hne]

theorem AllBlank.exists_head? {blanks : Text} (h : AllBlank blanks) (hne : blanks ≠ [])
    (t : Text) : ∃ c ∈ (blanks ++ t).head?, isBlank c = true := by
  cases blanks with
  | nil => exact absurd rfl hne
  | cons c blanks => exact ⟨c, rfl, h c List.mem_cons_self⟩

/-- Trimming takes away the blanks and nothing else. -/
theorem AllBlank.trimStart_append {blanks : Text} (h : AllBlank blanks) {t : Text}
    (ht : StartsSolid t) : trimStart (blanks ++ t) = t :=
  dropWhile_stretch h ht

/-- What trimming takes away are blanks. -/
theorem exists_allBlank_append_trimStart (t : Text) :
    ∃ blanks, AllBlank blanks ∧ t = blanks ++ t.trimStart :=
  ⟨t.takeWhile isBlank, fun _ hc => List.mem_takeWhile_imp hc,
    List.takeWhile_append_dropWhile.symm⟩

/-- Where blanks end is clear from the text. -/
theorem AllBlank.append_inj {blanks blanks' t t' : Text} (h : AllBlank blanks)
    (h' : AllBlank blanks') (ht : StartsSolid t) (ht' : StartsSolid t')
    (heq : blanks ++ t = blanks' ++ t') : blanks = blanks' ∧ t = t' :=
  stretch_inj h h' ht ht' heq

/-- Reading blanks takes all of them, and at least one. -/
theorem afterBlanks?_eq_some_iff {t rest : Text} :
    afterBlanks? t = some rest ↔
      ∃ blanks, blanks ≠ [] ∧ AllBlank blanks ∧ StartsSolid rest ∧ t = blanks ++ rest := by
  constructor
  · intro h
    cases t with
    | nil => cases h
    | cons c t =>
      rw [afterBlanks?] at h
      -- At least one blank is asked for, and the others are trimmed away.
      split at h
      · rename_i hc
        cases h
        obtain ⟨blanks, hblanks, hsplit⟩ := exists_allBlank_append_trimStart t
        refine ⟨c :: blanks, by simp, ?_, startsSolid_trimStart t, ?_⟩
        · exact List.forall_mem_cons.mpr ⟨hc, hblanks⟩
        · rw [List.cons_append, ← hsplit]
      · cases h
  · rintro ⟨blanks, hne, hblanks, hsolid, rfl⟩
    cases blanks with
    | nil => exact absurd rfl hne
    | cons c blanks =>
      obtain ⟨hc, hblanks⟩ := List.forall_mem_cons.mp hblanks
      rw [List.cons_append, afterBlanks?, if_pos hc, AllBlank.trimStart_append hblanks hsolid]

/-! ## Words and marks -/

/-- Reading a word leaves what stands behind it. -/
theorem after?_eq_some_iff {word t rest : Text} : after? word t = some rest ↔ t = word ++ rest := by
  unfold after?
  constructor
  · intro h
    split at h
    · rename_i hword
      obtain ⟨u, rfl⟩ := List.isPrefixOf_iff_prefix.mp hword
      cases h
      rw [List.drop_left]
    · cases h
  · rintro rfl
    rw [if_pos (List.isPrefixOf_iff_prefix.mpr (List.prefix_append word rest)), List.drop_left]

/-- A text mentions a word that stands somewhere in it. -/
theorem mentions_iff {word t : Text} : mentions word t = true ↔ word <:+: t := by
  induction t with
  | nil => simp [mentions]
  | cons c t ih =>
    rw [mentions, Bool.or_eq_true, ih, List.isPrefixOf_iff_prefix, List.infix_cons_iff]

/-- A mark is found where it occurs first: it occurs nowhere earlier, not even
in part before and in part inside the place that was found. -/
theorem cutFrom_eq_some_iff {mark before t l r : Text} (hmark : mark ≠ []) :
    cutFrom mark before t = some (l, r) ↔
      ∃ passed, l = before.reverse ++ passed ∧ t = passed ++ (mark ++ r) ∧
        ¬ mark <:+: passed ++ mark.dropLast := by
  have hshort : ¬ mark <:+: mark.dropLast := by
    intro h
    have hlen := h.length_le
    have hpos := List.length_pos_iff.mpr hmark
    rw [List.length_dropLast] at hlen
    omega
  induction t generalizing before with
  | nil => simp [cutFrom, hmark]
  | cons c t ih =>
    rw [cutFrom]
    -- The mark begins here, or this character is passed.
    by_cases hbegins : mark.isPrefixOf (c :: t) = true
    · rw [if_pos hbegins]
      obtain ⟨u, hu⟩ := List.isPrefixOf_iff_prefix.mp hbegins
      rw [← hu, List.drop_left]
      constructor
      · intro h
        cases h
        exact ⟨[], by simp, rfl, hshort⟩
      · rintro ⟨passed, rfl, heq, hfirst⟩
        cases passed with
        | nil => simp [List.append_cancel_left heq]
        | cons d passed =>
          -- The mark at the very beginning would be an earlier occurrence.
          refine absurd ?_ hfirst
          have hearly : mark <+:
              (d :: passed ++ mark.dropLast) ++ (mark.drop (mark.length - 1) ++ r) := by
            refine ⟨u, ?_⟩
            rw [heq, List.dropLast_eq_take, List.append_assoc, ← List.append_assoc (List.take _ _),
              List.take_append_drop]
          refine (List.prefix_of_prefix_length_le hearly (List.prefix_append _ _) ?_).isInfix
          rw [List.length_append, List.length_cons, List.length_dropLast]
          omega
    · rw [if_neg hbegins]
      refine ih.trans ?_
      constructor
      · rintro ⟨passed, rfl, rfl, hfirst⟩
        refine ⟨c :: passed, by simp, rfl, ?_⟩
        rw [List.cons_append, List.infix_cons_iff]
        rintro (hstart | hlater)
        · refine hbegins (List.isPrefixOf_iff_prefix.mpr (hstart.trans ?_))
          rw [List.cons_prefix_cons, List.prefix_append_right_inj]
          exact ⟨rfl, (List.dropLast_prefix mark).trans (List.prefix_append mark r)⟩
        · exact hfirst hlater
      · rintro ⟨passed, rfl, heq, hfirst⟩
        cases passed with
        | nil =>
          rw [List.nil_append] at heq
          rw [heq] at hbegins
          exact absurd (List.isPrefixOf_iff_prefix.mpr (List.prefix_append mark r)) hbegins
        | cons d passed =>
          cases heq
          refine ⟨passed, by simp, rfl, fun hlater => hfirst ?_⟩
          exact hlater.trans (List.suffix_cons _ _).isInfix

/-- A text is cut at the first occurrence of the mark. -/
theorem cut?_eq_some_iff {mark t l r : Text} (hmark : mark ≠ []) :
    cut? mark t = some (l, r) ↔
      t = l ++ (mark ++ r) ∧ ¬ mark <:+: l ++ mark.dropLast := by
  rw [cut?, cutFrom_eq_some_iff hmark]
  simp

theorem cutFrom_eq_none_iff {mark before t : Text} (hmark : mark ≠ []) :
    cutFrom mark before t = none ↔ ¬ mark <:+: t := by
  induction t generalizing before with
  | nil => simp [cutFrom, hmark]
  | cons c t ih =>
    rw [cutFrom, List.infix_cons_iff, ← List.isPrefixOf_iff_prefix]
    by_cases hbegins : mark.isPrefixOf (c :: t) = true
    · simp [hbegins]
    · rw [if_neg hbegins, ih]
      simp [hbegins]

/-- A text is not cut if the mark is not in it. -/
theorem cut?_eq_none_iff {mark t : Text} (hmark : mark ≠ []) :
    cut? mark t = none ↔ ¬ mark <:+: t :=
  cutFrom_eq_none_iff hmark

/-- A mark begins nowhere before its first occurrence. -/
theorem not_prefix_of_first {mark before v r : Text} (h : ¬ mark <:+: before ++ mark.dropLast)
    (hv : v ≠ []) (hsuffix : v <:+ before) : ¬ mark <+: v ++ (mark ++ r) := by
  intro hstart
  have hlen : mark.length ≤ (v ++ mark.dropLast).length := by
    have hpos := List.length_pos_iff.mpr hv
    rw [List.length_append, List.length_dropLast]
    omega
  have hlast : v ++ mark.dropLast <+: v ++ (mark ++ r) := by
    rw [List.prefix_append_right_inj]
    exact (List.dropLast_prefix mark).trans (List.prefix_append mark r)
  have hinside : v ++ mark.dropLast <:+ before ++ mark.dropLast := by
    obtain ⟨p, rfl⟩ := hsuffix
    exact ⟨p, (List.append_assoc ..).symm⟩
  exact h ((List.prefix_of_prefix_length_le hstart hlast hlen).isInfix.trans hinside.isInfix)

/-- What follows some occurrence of a mark stands behind the first one too. -/
theorem suffix_of_first {mark before r before' r' : Text}
    (h : ¬ mark <:+: before ++ mark.dropLast)
    (heq : before ++ (mark ++ r) = before' ++ (mark ++ r')) : r' <:+ r := by
  -- The other occurrence stands further behind, or it is the first one itself.
  rcases List.append_eq_append_iff.mp heq with ⟨v, rfl, hrest⟩ | ⟨v, rfl, hrest⟩
  · have hr : r <:+ mark ++ r := List.suffix_append mark r
    have hr' : r' <:+ mark ++ r := by
      rw [hrest, ← List.append_assoc]
      exact List.suffix_append _ r'
    refine List.suffix_of_suffix_length_le hr' hr ?_
    have hlen := congrArg List.length hrest
    simp only [List.length_append] at hlen
    omega
  · cases v with
    | nil => exact List.append_cancel_left hrest ▸ List.suffix_refl r'
    | cons c v =>
      have hearly : mark <+: c :: v ++ (mark ++ r) := ⟨r', hrest⟩
      exact absurd hearly (not_prefix_of_first h (by simp) (List.suffix_append before' _))

/-! ## Words and separators -/

/-- A word without the separator ends in front of it. -/
theorem prefix_append_cons_iff {word : Text} {sep : Char} (h : sep ∉ word) (t u : Text) :
    word <+: t ++ sep :: u ↔ word <+: t := by
  induction t generalizing word with
  | nil =>
    cases word with
    | nil => simp
    | cons c word =>
      have hc : c ≠ sep := fun e => h (by simp [e])
      simp [hc]
  | cons d t ih =>
    cases word with
    | nil => simp
    | cons c word =>
      rw [List.cons_append, List.cons_prefix_cons, List.cons_prefix_cons,
        ih fun hmem => h (List.mem_cons_of_mem c hmem)]

/-- Where a separator divides a text, a word without it stands in front of the
separator or behind it. -/
theorem append_cons_eq_append_iff {word : Text} {sep : Char} (h : sep ∉ word) (hne : word ≠ [])
    {t u l r : Text} :
    t ++ sep :: u = l ++ (word ++ r) ↔
      (∃ q, t = l ++ (word ++ q) ∧ r = q ++ sep :: u) ∨
        ∃ p, l = t ++ sep :: p ∧ u = p ++ (word ++ r) := by
  constructor
  · intro heq
    -- The separator stands before the place of the word, or not.
    rcases List.append_eq_append_iff.mp heq with ⟨v, rfl, hrest⟩ | ⟨v, rfl, hrest⟩
    · cases v with
      | nil =>
        -- The word would begin with the separator.
        rcases List.exists_cons_of_ne_nil hne with ⟨c, word, rfl⟩
        cases hrest
        exact absurd List.mem_cons_self h
      | cons c p =>
        cases hrest
        exact .inr ⟨p, rfl, rfl⟩
    · have hstart : word <+: v := (prefix_append_cons_iff h v u).mp ⟨r, hrest⟩
      rcases hstart with ⟨q, rfl⟩
      rw [List.append_assoc] at hrest
      exact .inl ⟨q, rfl, List.append_cancel_left hrest⟩
  · rintro (⟨q, rfl, rfl⟩ | ⟨p, rfl, rfl⟩)
    · rw [List.append_assoc, List.append_assoc]
    · rw [List.append_assoc, List.cons_append]

/-! ## Words in joined lines -/

theorem unlines_singleton (t : Text) : unlines [t] = t := join_singleton ['\n'] t

theorem unlines_cons {t : Text} {ts : List Text} (h : ts ≠ []) :
    unlines (t :: ts) = t ++ '\n' :: unlines ts := by
  rw [unlines, join_cons h, List.append_assoc]
  rfl

/-- Joined lines begin with what their first line begins with. -/
theorem unlines_append_cons (p q : Text) (after : List Text) :
    unlines ((p ++ q) :: after) = p ++ unlines (q :: after) := by
  cases after with
  | nil => rw [unlines_singleton, unlines_singleton]
  | cons t ts =>
    have hne : t :: ts ≠ [] := List.cons_ne_nil t ts
    rw [unlines_cons hne, unlines_cons hne, List.append_assoc]

/-- A cut through one of the lines cuts the joined lines in two. -/
theorem unlines_cut (before : List Text) (p q : Text) (after : List Text) :
    unlines (before ++ (p ++ q) :: after) =
      unlines (before ++ [p]) ++ unlines (q :: after) := by
  induction before with
  | nil => rw [List.nil_append, List.nil_append, unlines_append_cons, unlines_singleton]
  | cons t before ih =>
    rw [List.cons_append, List.cons_append, unlines_cons (by simp), unlines_cons (by simp), ih,
      List.append_assoc, List.cons_append]

/-- The places of a word in joined lines are its places on the lines: none reaches
over a line break. -/
theorem unlines_eq_append_iff {word : Text} (h : '\n' ∉ word) (hne : word ≠ [])
    {ts : List Text} {l r : Text} :
    unlines ts = l ++ (word ++ r) ↔
      ∃ before p q after, ts = before ++ (p ++ (word ++ q)) :: after ∧
        l = unlines (before ++ [p]) ∧ r = unlines (q :: after) := by
  constructor
  · intro heq
    -- Line by line: the word stands on the first line or in what the others form.
    induction ts generalizing l with
    | nil => simp_all [unlines]
    | cons t ts ih =>
      cases ts with
      | nil =>
        rw [unlines_singleton] at heq
        exact ⟨[], l, r, [], by rw [heq, List.nil_append], (unlines_singleton l).symm,
          (unlines_singleton r).symm⟩
      | cons u us =>
        rw [unlines_cons (by simp), append_cons_eq_append_iff h hne] at heq
        rcases heq with ⟨q, rfl, rfl⟩ | ⟨l, rfl, hrest⟩
        · exact ⟨[], l, q, u :: us, rfl, (unlines_singleton l).symm,
            (unlines_cons (by simp)).symm⟩
        · rcases ih hrest with ⟨before, p, q, after, hlines, rfl, rfl⟩
          exact ⟨t :: before, p, q, after, by rw [hlines, List.cons_append],
            (unlines_cons (by simp)).symm, rfl⟩
  · rintro ⟨before, p, q, after, rfl, rfl, rfl⟩
    rw [unlines_cut, unlines_append_cons]

/-- A word without line feeds stands on one line. -/
theorem infix_unlines_iff {word : Text} (h : '\n' ∉ word) (hne : word ≠ []) {ts : List Text} :
    word <:+: unlines ts ↔ ∃ t ∈ ts, word <:+: t := by
  constructor
  · rintro ⟨l, r, heq⟩
    rw [List.append_assoc] at heq
    rcases (unlines_eq_append_iff h hne).mp heq.symm with ⟨before, p, q, after, rfl, -, -⟩
    exact ⟨p ++ (word ++ q), by simp, p, q, List.append_assoc p word q⟩
  · rintro ⟨t, ht, p, q, rfl⟩
    rcases List.append_of_mem ht with ⟨before, after, rfl⟩
    refine ⟨unlines (before ++ [p]), unlines (q :: after), ?_⟩
    rw [List.append_assoc, List.append_assoc, unlines_cut, unlines_append_cons]

end Text
end MemberOrder
