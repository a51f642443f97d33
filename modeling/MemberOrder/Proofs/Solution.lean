import MemberOrder.Proofs.Pairing

/-! # No solution is shared

A solution is looked for under three names. Two of them are made by replacing
words in the name of the user file, so it has to be said why two user files never
come to the same solution. A mark that is put in front of every occurrence of a
word can be taken away again (`Text.replaceAll_replaceAll`), so the third name
determines the user file as the first one does. The first name of one file is not
the third name of another, because the third name, where it differs from the
first, holds the mark in a place where no user file has it
(`Exercise.IsUserStem.eq_of_mem_candidates`). -/

namespace MemberOrder

/-! ## Replacing a word -/

namespace Text

section Replacement

variable {old new : Text}

/-- The way in which a replacement goes through a text: the text is at its end, or
the word comes next, or a character at which the word does not begin. -/
theorem word_induction (hold : old ≠ []) {motive : Text → Prop} (nil : motive [])
    (word : ∀ t, motive t → motive (old ++ t))
    (cons : ∀ c t, ¬ old <+: c :: t → motive t → motive (c :: t)) (t : Text) : motive t := by
  induction hlen : t.length using Nat.strong_induction_on generalizing t with
  | _ n ih =>
    subst hlen
    cases t with
    | nil => exact nil
    | cons c t =>
      -- A word is longer than nothing, so the text behind it is shorter in both cases.
      by_cases hbegins : old <+: c :: t
      · rcases hbegins with ⟨u, hu⟩
        rw [← hu] at ih ⊢
        have hpos := List.length_pos_iff.mpr hold
        exact word u (ih u.length (by rw [List.length_append]; omega) u rfl)
      · exact cons c t hbegins (ih t.length (Nat.lt_succ_self _) t rfl)

@[simp] theorem replaceAll_nil : replaceAll old new [] = [] := by
  rw [replaceAll]

/-- The word is replaced where it comes next. -/
theorem replaceAll_word (hold : old ≠ []) (t : Text) :
    replaceAll old new (old ++ t) = new ++ replaceAll old new t := by
  cases old with
  | nil => exact absurd rfl hold
  | cons c word => simp [replaceAll]

/-- A character at which the word does not begin is kept. -/
theorem replaceAll_cons {c : Char} {t : Text} (h : ¬ old <+: c :: t) :
    replaceAll old new (c :: t) = c :: replaceAll old new t := by
  have hbegins : old.isPrefixOf (c :: t) = false := by
    rw [← Bool.not_eq_true, List.isPrefixOf_iff_prefix]
    exact h
  rw [replaceAll, hbegins, Bool.and_false]
  rfl

/-- Where the word does not occur nothing is replaced. -/
theorem replaceAll_of_not_infix {t : Text} (h : ¬ old <:+: t) : replaceAll old new t = t := by
  induction t with
  | nil => exact replaceAll_nil
  | cons c t ih =>
    rw [List.infix_cons_iff, not_or] at h
    rw [replaceAll_cons h.1, ih h.2]

/-- Where the word was, the new text is. -/
theorem infix_replaceAll (hold : old ≠ []) {t : Text} (h : old <:+: t) :
    new <:+: replaceAll old new t := by
  induction t using word_induction hold with
  | nil => exact absurd (List.infix_nil.mp h) hold
  | word t ih =>
    rw [replaceAll_word hold]
    exact (List.prefix_append new _).isInfix
  | cons c t hbegins ih =>
    rw [replaceAll_cons hbegins]
    have hlater := (List.infix_cons_iff.mp h).resolve_left hbegins
    exact (ih hlater).trans (List.suffix_cons c _).isInfix

/-- A replacement starts anew at a character with which the word begins, if the
character comes only once in the word. -/
theorem replaceAll_append_cons {sep : Char} {word : Text} (h : sep ∉ word) (t u : Text) :
    replaceAll (sep :: word) new (t ++ sep :: u) =
      replaceAll (sep :: word) new t ++ replaceAll (sep :: word) new (sep :: u) := by
  have hold : sep :: word ≠ [] := List.cons_ne_nil sep word
  induction t using word_induction hold with
  | nil => rw [replaceAll_nil, List.nil_append, List.nil_append]
  | word t ih =>
    rw [List.append_assoc, replaceAll_word hold, replaceAll_word hold, ih, List.append_assoc]
  | cons c t hbegins ih =>
    have hstill : ¬ sep :: word <+: c :: (t ++ sep :: u) := by
      rwa [List.cons_prefix_cons, prefix_append_cons_iff h, ← List.cons_prefix_cons]
    rw [List.cons_append, replaceAll_cons hstill, ih, replaceAll_cons hbegins, List.cons_append]

end Replacement

/-! ## Marking a word

What is put in for the word is the word itself with a mark in front of it. The
first character of the mark comes nowhere else in the mark and not in the word. -/

section Marking

variable {c : Char} {old : Text}

/-- What stands before the first mark in the marked text stands in the text. -/
theorem exists_of_replaceAll_eq_append {new before after t : Text} (hold : old ≠ [])
    (hbefore : c ∉ before) (h : replaceAll old (c :: new) t = before ++ after) :
    ∃ u, t = before ++ u ∧ replaceAll old (c :: new) u = after := by
  induction before generalizing t with
  | nil => exact ⟨t, rfl, h⟩
  | cons d before ih =>
    rw [List.mem_cons, not_or] at hbefore
    induction t using word_induction hold with
    | nil => simp at h
    | word t _ =>
      rw [replaceAll_word hold] at h
      exact absurd (List.cons.inj h).1 hbefore.1
    | cons e t hbegins _ =>
      rw [replaceAll_cons hbegins] at h
      rcases List.cons.inj h with ⟨rfl, hrest⟩
      rcases ih hbefore.2 hrest with ⟨u, rfl, hu⟩
      exact ⟨u, rfl, hu⟩

/-- The marked text does not begin with the word: the mark would stand before it. -/
theorem not_prefix_replaceAll {new : Text} (hold : old ≠ []) (hc : c ∉ old) (t : Text) :
    ¬ old <+: replaceAll old (c :: new) t := by
  rintro ⟨after, hafter⟩
  rcases exists_of_replaceAll_eq_append hold hc hafter.symm with ⟨u, rfl, -⟩
  rw [replaceAll_word hold] at hafter
  cases old with
  | nil => exact hold rfl
  | cons d word =>
    rcases List.cons.inj hafter with ⟨rfl, -⟩
    exact hc List.mem_cons_self

/-- The marks can be taken away again. -/
theorem replaceAll_replaceAll (c : Char) (mark old : Text) (hold : old ≠ []) (hmark : c ∉ mark)
    (hc : c ∉ old) (t : Text) :
    replaceAll (c :: (mark ++ old)) old (replaceAll old (c :: (mark ++ old)) t) = t := by
  induction t using word_induction hold with
  | nil => rw [replaceAll_nil, replaceAll_nil]
  | word t ih => rw [replaceAll_word hold, replaceAll_word (List.cons_ne_nil c _), ih]
  | cons d t hbegins ih =>
    -- A mark that begins at `d` would be one that stood in the text already, and the
    -- word behind it would have got a mark of its own.
    have hunmarked : ¬ c :: (mark ++ old) <+: d :: replaceAll old (c :: (mark ++ old)) t := by
      rw [List.cons_prefix_cons]
      rintro ⟨-, after, hafter⟩
      rw [List.append_assoc] at hafter
      rcases exists_of_replaceAll_eq_append hold hmark hafter.symm with ⟨u, -, hu⟩
      exact not_prefix_replaceAll hold hc u ⟨after, hu.symm⟩
    rw [replaceAll_cons hbegins, replaceAll_cons hunmarked, ih]

end Marking

end Text

/-! ## Where joined names lead -/

theorem Path.fileName?_join_name (p : Path) {n : Text} (hn : IsFileName n) :
    (p.join n).fileName? = some n := by
  by_cases hp : p.text = []
  · have hjoin : p.join n = ⟨n⟩ := by simp [join, hp]
    rw [hjoin, fileName?_of_isFileName hn]
  · exact fileName?_join hp hn

theorem FileTree.exists_locate_of_has {t : FileTree} {p : Path} (h : t.has p = true) :
    ∃ l, t.locate p = .ok l := by
  unfold has at h
  cases hget : t.get p with
  | error e =>
    rw [hget] at h
    cases h
  | ok e =>
    rcases exists_leadsTo hget with ⟨l, hl⟩
    exact ⟨l, hl.locate_eq⟩

/-- A name leads to the location below, if it leads anywhere. -/
theorem FileTree.eq_concat_of_follow {t : FileTree} {l m : Location} {n : Text}
    (hn : Path.IsFileName n) (h : t.follow l [n] = .ok m) : m = l ++ [n] := by
  cases hentry : t.entry? l with
  | none =>
    rw [follow_of_none hentry] at h
    cases h
  | some e =>
    by_cases he : e = .directory
    · rw [follow_name hn (he ▸ hentry)] at h
      split at h
      · exact (Except.ok.inj h).symm
      · cases h
    · rw [follow_of_file hentry he] at h
      cases h

/-- The name that was joined last is the last name of the location. -/
theorem FileTree.getLast?_of_locate_join {t : FileTree} {p : Path} {l : Location} {n : Text}
    (hn : Path.IsFileName n) (h : t.locate (p.join n) = .ok l) : l.getLast? = some n := by
  -- To the empty path a name is joined without a slash, so it has no part before it.
  have hstart : ∃ m, t.follow m [n] = .ok l := by
    by_cases hp : p.text = []
    · have hjoin : p.join n = ⟨n⟩ := by simp [Path.join, hp]
      have hparts : (⟨n⟩ : Path).parts = [n] := Text.pieces_of_not_mem hn.no_slash
      rw [hjoin, locate, hparts, if_neg (by simp [hn.ne_nil])] at h
      exact ⟨_, h⟩
    · rw [locate_join t hp hn] at h
      rcases exists_of_bind_eq_ok h with ⟨m, -, hm⟩
      exact ⟨m, hm⟩
  rcases hstart with ⟨m, hm⟩
  rw [eq_concat_of_follow hn hm, List.getLast?_concat]

namespace Exercise

/-! ## Names of user files -/

/-- A user file may be named by this stem: with the extension it is a name that a
file can have, and `solution` does not occur in it, in whatever case. -/
structure IsUserStem (stem : Text) : Prop where
  ne_nil : stem ≠ []
  isFileName : Path.IsFileName (stem ++ ".sol".toList)
  not_solution : ¬ "solution".toList <:+: (stem ++ ".sol".toList).map Char.toLower

/-- The user files that are found have a stem in front of their extension. -/
theorem exists_stem_of_mem_userFiles {t : FileTree} (ht : t.IsWellFormed) {src u : Path}
    {users : List Path} (h : userFiles t src = .ok users) (hu : u ∈ users) :
    ∃ stem, IsUserStem stem ∧ u = src.join (stem ++ ".sol".toList) := by
  have hdirectory : ∃ l, t.LeadsTo src l .directory := by
    unfold userFiles at h
    rcases exists_of_bind_eq_ok h with ⟨names, hnames, -⟩
    exact FileTree.exists_leadsTo_of_list hnames
  rcases hdirectory with ⟨l, hl⟩
  rw [userFiles_eq ht hl] at h
  cases h
  rcases List.mem_map.mp hu with ⟨f, hf, rfl⟩
  rcases isUserFileAt_iff.mp (mem_userNamesAt_iff.mp hf) with ⟨⟨e, he, -⟩, ⟨stem, hne, rfl⟩, hnot⟩
  exact ⟨stem, ⟨hne, ht.isFileName (by rw [he]; rfl), hnot⟩, rfl⟩

namespace IsUserStem

variable {stem stem' s : Text}

/-- The mark of a solution is not in the stem. -/
theorem not_marked (h : IsUserStem stem) : ¬ "Solution".toList <:+: stem := by
  intro hmarked
  have hlower := (hmarked.trans (List.prefix_append stem ".sol".toList).isInfix).map Char.toLower
  exact h.not_solution hlower

theorem splitExtension_eq (h : IsUserStem stem) :
    Path.splitExtension (stem ++ ".sol".toList) = (stem, some "sol".toList) :=
  Path.splitExtension_append h.ne_nil (by decide)

theorem stem?_join (h : IsUserStem stem) (src : Path) :
    (src.join (stem ++ ".sol".toList)).stem? = some stem := by
  unfold Path.stem?
  rw [Path.fileName?_join_name src h.isFileName, Option.map_some, h.splitExtension_eq]

/-- Where a user file is does not matter for the names of its solution. -/
theorem candidates_join (h : IsUserStem stem) (src : Path) :
    candidates (src.join (stem ++ ".sol".toList)) = candidates ⟨stem ++ ".sol".toList⟩ :=
  candidates_of_fileName (Path.fileName?_join_name src h.isFileName) h.isFileName

theorem isFileName_of_mem (h : IsUserStem stem)
    (hs : s ∈ candidates ⟨stem ++ ".sol".toList⟩) : Path.IsFileName s := by
  apply isFileName_of_mem_candidates h.isFileName _ hs
  rw [List.length_append]
  exact Nat.lt_add_left _ (by decide)

/-- The second name is the first one, and the third has a mark before every
extension inside the stem. -/
theorem candidates_eq (h : IsUserStem stem) :
    candidates ⟨stem ++ ".sol".toList⟩ = [
      stem ++ "Solution.sol".toList,
      stem ++ "Solution.sol".toList,
      Text.replaceAll ".sol" "Solution.sol" stem ++ "Solution.sol".toList] := by
  have hthird : Text.replaceAll ".sol" "Solution.sol" (stem ++ ".sol".toList) =
      Text.replaceAll ".sol" "Solution.sol" stem ++ "Solution.sol".toList := by
    have hlast : Text.replaceAll ".sol" "Solution.sol" ".sol".toList = "Solution.sol".toList := by
      decide +kernel
    exact (Text.replaceAll_append_cons (by decide) stem _).trans (congrArg _ hlast)
  unfold candidates Path.stem?
  rw [Path.fileName?_of_isFileName h.isFileName]
  simp only [Option.map_some]
  rw [h.splitExtension_eq, Text.replaceAll_of_not_infix h.not_marked, hthird]

/-- Two names are left of three, since the first two are the same for a user file. -/
theorem mem_candidates_iff (h : IsUserStem stem) :
    s ∈ candidates ⟨stem ++ ".sol".toList⟩ ↔
      s = stem ++ "Solution.sol".toList ∨
        s = Text.replaceAll ".sol" "Solution.sol" stem ++ "Solution.sol".toList := by
  rw [h.candidates_eq]
  simp

/-- No stem has a mark before an extension, so marking one does not lead to another. -/
theorem replaceAll_eq_iff (h : IsUserStem stem) :
    Text.replaceAll ".sol" "Solution.sol" stem' = stem ↔
      stem' = stem ∧ ¬ ".sol".toList <:+: stem' := by
  constructor
  · rintro rfl
    have hnone : ¬ ".sol".toList <:+: stem' := by
      intro hinside
      have hmark : "Solution".toList <:+: "Solution.sol".toList := by decide
      exact h.not_marked (hmark.trans (Text.infix_replaceAll (by decide) hinside))
    exact ⟨(Text.replaceAll_of_not_infix hnone).symm, hnone⟩
  · rintro ⟨rfl, hnone⟩
    exact Text.replaceAll_of_not_infix hnone

/-- Two user files have no name for a solution in common. -/
theorem eq_of_mem_candidates (h : IsUserStem stem) (h' : IsUserStem stem')
    (hs : s ∈ candidates ⟨stem ++ ".sol".toList⟩) (hs' : s ∈ candidates ⟨stem' ++ ".sol".toList⟩) :
    stem = stem' := by
  rcases h.mem_candidates_iff.mp hs with rfl | rfl <;>
    rcases h'.mem_candidates_iff.mp hs' with heq | heq <;>
    replace heq := List.append_cancel_right heq
  -- Both first names, a first and a third name in either order, both third names.
  · exact heq
  · exact (h.replaceAll_eq_iff.mp heq.symm).1.symm
  · exact (h'.replaceAll_eq_iff.mp heq).1
  · have hunmark : ∀ t, Text.replaceAll "Solution.sol" ".sol"
        (Text.replaceAll ".sol" "Solution.sol" t) = t :=
      Text.replaceAll_replaceAll 'S' "olution" ".sol" (by decide) (by decide) (by decide)
    rw [← hunmark stem, heq, hunmark]

end IsUserStem

/-! ## Solutions -/

/-- A solution that is found is there under one of the names. -/
theorem exists_of_solution? {t : FileTree} {user directory p : Path}
    (h : solution? t user directory = some p) :
    t.has p = true ∧ ∃ s ∈ candidates user, p = directory.join s := by
  refine ⟨List.find?_some h, ?_⟩
  rcases List.mem_map.mp (List.mem_of_find?_eq_some h) with ⟨s, hs, rfl⟩
  exact ⟨s, hs, rfl⟩

/-- Different names in one directory are different paths, and lead to different
locations if they lead anywhere. -/
theorem join_ne_join {t : FileTree} {directory : Path} {m n : Text} (hm : Path.IsFileName m)
    (hn : Path.IsFileName n) (hne : m ≠ n) (hhas : t.has (directory.join m) = true) :
    (directory.join m).components ≠ (directory.join n).components ∧
      t.locate (directory.join m) ≠ t.locate (directory.join n) := by
  constructor
  · intro heq
    have hname : (directory.join m).fileName? = (directory.join n).fileName? := by
      unfold Path.fileName?
      rw [heq]
    rw [Path.fileName?_join_name directory hm, Path.fileName?_join_name directory hn] at hname
    exact hne (Option.some.inj hname)
  · intro heq
    rcases FileTree.exists_locate_of_has hhas with ⟨l, hl⟩
    have hlast := FileTree.getLast?_of_locate_join hm hl
    rw [FileTree.getLast?_of_locate_join hn (heq.symm.trans hl)] at hlast
    exact hne (Option.some.inj hlast).symm

/-- **No two user files share a solution.** For every user file of a directory the
second name of a solution is the first one, and the third differs from it exactly if
the extension occurs inside the stem. Two different user files have none of these names
in common. So whichever of them were found in whatever directory, they are different
paths and lead to different locations. -/
theorem solutions_are_distinct {t : FileTree} (ht : t.IsWellFormed) {src : Path}
    {users : List Path} (h : userFiles t src = .ok users) (directory : Path) :
    (∀ u ∈ users, ∃ stem third : Text, u.stem? = some stem ∧
        candidates u =
          [stem ++ "Solution.sol".toList, stem ++ "Solution.sol".toList, third] ∧
        (third ≠ stem ++ "Solution.sol".toList ↔ ".sol".toList <:+: stem)) ∧
      ∀ u ∈ users, ∀ v ∈ users, u ≠ v →
        (∀ s ∈ candidates u, s ∉ candidates v) ∧
          ∀ p q, solution? t u directory = some p → solution? t v directory = some q →
            p.components ≠ q.components ∧ t.locate p ≠ t.locate q := by
  constructor
  · intro u hu
    rcases exists_stem_of_mem_userFiles ht h hu with ⟨stem, hstem, rfl⟩
    refine ⟨stem, Text.replaceAll ".sol" "Solution.sol" stem ++ "Solution.sol".toList, ?_, ?_, ?_⟩
    · exact hstem.stem?_join src
    · rw [hstem.candidates_join, hstem.candidates_eq]
    · rw [ne_eq, List.append_left_inj, hstem.replaceAll_eq_iff]
      simp
  · intro u hu v hv hne
    rcases exists_stem_of_mem_userFiles ht h hu with ⟨stem, hstem, rfl⟩
    rcases exists_stem_of_mem_userFiles ht h hv with ⟨stem', hstem', rfl⟩
    rw [hstem.candidates_join, hstem'.candidates_join]
    have hdisjoint : ∀ s ∈ candidates ⟨stem ++ ".sol".toList⟩,
        s ∉ candidates ⟨stem' ++ ".sol".toList⟩ := by
      intro s hs hs'
      rw [hstem.eq_of_mem_candidates hstem' hs hs'] at hne
      exact hne rfl
    refine ⟨hdisjoint, ?_⟩
    intro p q hp hq
    rcases exists_of_solution? hp with ⟨hhas, s, hs, rfl⟩
    rcases exists_of_solution? hq with ⟨-, s', hs', rfl⟩
    rw [hstem.candidates_join] at hs
    rw [hstem'.candidates_join] at hs'
    apply join_ne_join (hstem.isFileName_of_mem hs) (hstem'.isFileName_of_mem hs') _ hhas
    rintro rfl
    exact hdisjoint s hs hs'

/-- Two user files, one of them with the extension twice. Its first name is not in
use, and the third one is found. -/
theorem solutions_are_distinct_double_extension :
    let t : FileTree := (⟨[], []⟩ : FileTree)
      |>.add ["src", "Vault.sol"] (.document "")
      |>.add ["src", "Vault.sol.sol"] (.document "")
      |>.add ["src", "OldSOLUTION.sol"] (.document "")
      |>.add ["src", "solution", "VaultSolution.sol"] (.document "")
      |>.add ["src", "solution", "VaultSolution.solSolution.sol"] (.document "")
    let user : Path := "src/Vault.sol"
    let user' : Path := "src/Vault.sol.sol"
    let found : Path := "src/solution/VaultSolution.sol"
    let found' : Path := "src/solution/VaultSolution.solSolution.sol"
    t.IsWellFormed ∧ userFiles t "src" = .ok [user, user'] ∧
      solution? t user "src/solution" = some found ∧
      solution? t user' "src/solution" = some found' ∧
      (∀ s ∈ candidates user, s ∉ candidates user') ∧ t.locate found ≠ t.locate found' := by
  intro t user user' found found'
  have hformed : t.IsWellFormed := by decide +kernel
  have husers : userFiles t "src" = .ok [user, user'] := by decide +kernel
  have hfound : solution? t user "src/solution" = some found := by decide +kernel
  have hfound' : solution? t user' "src/solution" = some found' := by decide +kernel
  have hdistinct := (solutions_are_distinct hformed husers "src/solution").2 user (by simp) user'
    (by simp) (by decide)
  exact ⟨hformed, husers, hfound, hfound', hdistinct.1, (hdistinct.2 _ _ hfound hfound').2⟩

end Exercise
end MemberOrder
