import MemberOrder.Declared.Roster
import MemberOrder.Proofs.Reading

/-! # Nothing is left to strip

Comments are taken out in two passes over a text. A pass takes out what matches,
from the left and without overlap (`Text.Erases`), and what stood around a match
then stands together. It could form a new comment mark, but never does: behind
the first pass no two slashes follow each other, so neither a slash in front of
a block comment nor one behind it can meet a new neighbour. Hence a text without
comments has no comment left, and stripping it again changes nothing
(`Text.withoutComments_fixed`). -/

namespace MemberOrder
namespace Text

/-! ## Taking out matches -/

/-- Take all matches out of a text, from the left and without overlap. That a
match stands at the beginning of a text, and what follows it, is said by
`Match`. -/
inductive Erases (Match : Text → Text → Prop) : Text → Text → Prop
  | nil : Erases Match [] []
  | keep {c : Char} {t u : Text} :
      (∀ rest, ¬ Match (c :: t) rest) → Erases Match t u → Erases Match (c :: t) (c :: u)
  | erase {t rest u : Text} : Match t rest → Erases Match rest u → Erases Match t u

/-- Two slashes and what follows them on the line. -/
def LineComment (t rest : Text) : Prop :=
  ∃ body, t = "//" ++ (body ++ rest) ∧ '\n' ∉ body ∧ (rest = [] ∨ rest.head? = some '\n')

/-- An opening mark and what follows it up to the first closing mark. -/
def BlockComment (t rest : Text) : Prop :=
  ∃ body, t = "/*" ++ (body ++ ("*/" ++ rest)) ∧ ¬ "*/".toList <:+: body ++ ['*']

/-- A closed block comment stands somewhere in the text. -/
def HasBlockComment (t : Text) : Prop :=
  ∃ before body after, t = before ++ "/*" ++ body ++ "*/" ++ after

/-- What stands before a text is kept if no match begins in it. -/
theorem Erases.append {Match : Text → Text → Prop} {before t u : Text}
    (hno : ∀ v, v ≠ [] → v <:+ before → ∀ rest, ¬ Match (v ++ t) rest) (h : Erases Match t u) :
    Erases Match (before ++ t) (before ++ u) := by
  induction before with
  | nil => exact h
  | cons c before ih =>
    refine .keep (hno (c :: before) (by simp) (List.suffix_refl _)) (ih fun v hv hsuffix => ?_)
    exact hno v hv (hsuffix.trans (List.suffix_cons c before))

/-! ## Line comments -/

theorem LineComment.starts {t rest : Text} (h : LineComment t rest) : "//".toList <+: t := by
  obtain ⟨body, rfl, -⟩ := h
  exact List.prefix_append _ _

/-- A line without its comment has no two slashes in a row. -/
theorem not_infix_withoutLineComment (t : Text) : ¬ "//".toList <:+: withoutLineComment t := by
  unfold withoutLineComment
  split
  · rename_i before rest hcut
    have hfirst := ((cut?_eq_some_iff (by decide)).mp hcut).2
    exact fun h => hfirst (h.trans (List.prefix_append _ _).isInfix)
  · rename_i hcut
    exact (cut?_eq_none_iff (by decide)).mp hcut

/-- One line, with whatever follows it. -/
theorem erases_withoutLineComment {t rest u : Text} (ht : '\n' ∉ t)
    (hrest : rest = [] ∨ rest.head? = some '\n') (h : Erases LineComment rest u) :
    Erases LineComment (t ++ rest) (withoutLineComment t ++ u) := by
  unfold withoutLineComment
  split
  · rename_i before body hcut
    obtain ⟨rfl, hfirst⟩ := (cut?_eq_some_iff (by decide)).mp hcut
    have hbody : '\n' ∉ body := fun hmem => ht (by simp [hmem])
    rw [List.append_assoc, List.append_assoc]
    -- Nothing in front of the first two slashes begins a comment.
    refine .append ?_ (.erase ⟨body, rfl, hbody, hrest⟩ h)
    intro v hv hsuffix after hmatch
    exact not_prefix_of_first hfirst hv hsuffix hmatch.starts
  · rename_i hcut
    have hnone := (cut?_eq_none_iff (by decide)).mp hcut
    refine .append ?_ h
    intro v hv hsuffix after hmatch
    have hstart : "//".toList <+: v := by
      rcases hrest with rfl | hhead
      · simpa using hmatch.starts
      · obtain ⟨next, rfl⟩ := List.head?_eq_some_iff.mp hhead
        exact (prefix_append_cons_iff (by decide) v next).mp hmatch.starts
    exact hnone (hstart.isInfix.trans hsuffix.isInfix)

/-- Line comments are taken out line by line. -/
theorem erases_unlines {ts : List Text} (hts : ∀ t ∈ ts, '\n' ∉ t) :
    Erases LineComment (unlines ts) (unlines (ts.map withoutLineComment)) := by
  induction ts with
  | nil => exact .nil
  | cons t ts ih =>
    obtain ⟨ht, hts⟩ := List.forall_mem_cons.mp hts
    cases ts with
    | nil => simpa [unlines] using erases_withoutLineComment ht (.inl rfl) .nil
    | cons t' ts =>
      -- A line feed begins no comment.
      have hfeed : Erases LineComment ('\n' :: unlines (t' :: ts))
          ('\n' :: unlines ((t' :: ts).map withoutLineComment)) := by
        refine .keep ?_ (ih hts)
        rintro rest ⟨body, heq, -⟩
        cases heq
      have hstripped : unlines (t.withoutLineComment :: (t' :: ts).map withoutLineComment) =
          t.withoutLineComment ++ '\n' :: unlines ((t' :: ts).map withoutLineComment) :=
        unlines_cons (by simp)
      rw [unlines_cons (List.cons_ne_nil t' ts), List.map_cons, hstripped]
      exact erases_withoutLineComment ht (.inr rfl) hfeed

theorem erases_withoutLineComments (t : Text) :
    Erases LineComment t (withoutLineComments t) := by
  have hlines := @erases_unlines t.lines fun _ h => not_mem_of_mem_pieces h
  rwa [unlines_lines] at hlines

/-- Behind the first pass no two slashes follow each other. -/
theorem not_infix_withoutLineComments (t : Text) : ¬ "//".toList <:+: withoutLineComments t := by
  rw [withoutLineComments, infix_unlines_iff (by decide) (by decide)]
  rintro ⟨line, hline, hslashes⟩
  obtain ⟨source, -, rfl⟩ := List.mem_map.mp hline
  exact not_infix_withoutLineComment source hslashes

/-- Without two slashes in a row there is no line comment to take out. -/
theorem withoutLineComments_eq {t : Text} (h : ¬ "//".toList <:+: t) :
    withoutLineComments t = t := by
  have hlines : ∀ line ∈ t.lines, withoutLineComment line = id line := by
    intro line hline
    have hnone : cut? "//" line = none := by
      rw [cut?_eq_none_iff (by decide)]
      intro hslashes
      have hmentions := (infix_unlines_iff (by decide) (by decide)).mpr
        ⟨line, hline, hslashes⟩
      exact h (unlines_lines t ▸ hmentions)
    rw [withoutLineComment, hnone]
    rfl
  rw [withoutLineComments, List.map_congr_left hlines, List.map_id, unlines_lines]

/-! ## Block comments -/

theorem BlockComment.starts {t rest : Text} (h : BlockComment t rest) : "/*".toList <+: t := by
  obtain ⟨body, rfl, -⟩ := h
  exact List.prefix_append _ _

/-- A mark that is closed somewhere begins a comment. -/
theorem exists_blockComment {t : Text} (h : "*/".toList <:+: t) :
    ∃ rest, BlockComment ("/*" ++ t) rest := by
  cases hcut : cut? "*/" t with
  | none => exact absurd h ((cut?_eq_none_iff (by decide)).mp hcut)
  | some found =>
    obtain ⟨rfl, hfirst⟩ := (cut?_eq_some_iff (by decide)).mp hcut
    exact ⟨found.2, found.1, rfl, hfirst⟩

/-- If nothing matches, nothing is taken out. -/
theorem erases_self {Match : Text → Text → Prop} {t : Text}
    (hno : ∀ v, v ≠ [] → v <:+ t → ∀ rest, ¬ Match v rest) : Erases Match t t := by
  have hall : Erases Match (t ++ []) (t ++ []) := by
    refine .append ?_ .nil
    simpa using hno
  simpa using hall

/-- A closed comment is an opening mark with a closing mark behind it. -/
theorem hasBlockComment_iff {t : Text} :
    HasBlockComment t ↔ ∃ before r, t = before ++ ("/*" ++ r) ∧ "*/".toList <:+: r := by
  constructor
  · rintro ⟨before, body, after, rfl⟩
    exact ⟨before, body ++ "*/" ++ after, by simp, body, after, rfl⟩
  · rintro ⟨before, r, rfl, body, after, rfl⟩
    exact ⟨before, body, after, by simp⟩

theorem BlockComment.closes {t rest : Text} (h : BlockComment t rest) : HasBlockComment t := by
  obtain ⟨body, rfl, -⟩ := h
  exact ⟨[], body, rest, by simp⟩

/-- If the first opening mark is not closed, none is. -/
theorem not_hasBlockComment_of_unclosed {before body : Text}
    (hfirst : ¬ "/*".toList <:+: before ++ ['/']) (hopen : ¬ "*/".toList <:+: body) :
    ¬ HasBlockComment (before ++ ("/*" ++ body)) := by
  rw [hasBlockComment_iff]
  rintro ⟨before', r, heq, hclosed⟩
  exact hopen (hclosed.trans (suffix_of_first hfirst heq).isInfix)

/-- A text without a closed block comment is kept as it is. -/
theorem erases_of_not_hasBlockComment {t : Text} (h : ¬ HasBlockComment t) :
    Erases BlockComment t t := by
  refine erases_self fun v _ hsuffix rest hmatch => h ?_
  obtain ⟨p, rfl⟩ := hsuffix
  obtain ⟨before, body, after, rfl⟩ := hmatch.closes
  exact ⟨p ++ before, body, after, by simp⟩

theorem not_hasBlockComment_of_no_mark {t : Text} (h : ¬ "/*".toList <:+: t) :
    ¬ HasBlockComment t := by
  rw [hasBlockComment_iff]
  rintro ⟨before, r, rfl, -⟩
  exact h ⟨before, r, by simp⟩

/-- The second pass takes out the block comments. -/
theorem erases_withoutBlockComments (t : Text) :
    Erases BlockComment t (withoutBlockComments t) := by
  fun_induction withoutBlockComments t with
  | case1 t hcut =>
    have hnone := (cut?_eq_none_iff (by decide)).mp hcut
    exact erases_of_not_hasBlockComment (not_hasBlockComment_of_no_mark hnone)
  | case2 t before body hcut hclose =>
    obtain ⟨rfl, hfirst⟩ := (cut?_eq_some_iff (by decide)).mp hcut
    have hopen := (cut?_eq_none_iff (by decide)).mp hclose
    exact erases_of_not_hasBlockComment (not_hasBlockComment_of_unclosed hfirst hopen)
  | case3 t before body hcut inner after hclose ih =>
    obtain ⟨rfl, hfirst⟩ := (cut?_eq_some_iff (by decide)).mp hcut
    obtain ⟨rfl, hend⟩ := (cut?_eq_some_iff (by decide)).mp hclose
    -- In front of the first opening mark nothing matches; behind the comment the pass goes on.
    refine .append ?_ (.erase ⟨inner, rfl, hend⟩ ih)
    intro v hv hsuffix rest hmatch
    exact not_prefix_of_first hfirst hv hsuffix hmatch.starts

/-- Without a closed block comment there is none to take out. -/
theorem withoutBlockComments_eq {t : Text} (h : ¬ HasBlockComment t) :
    withoutBlockComments t = t := by
  unfold withoutBlockComments
  split
  · rfl
  · rename_i before body hcut
    split
    · rfl
    · rename_i inner after hclose
      obtain ⟨rfl, -⟩ := (cut?_eq_some_iff (by decide)).mp hcut
      obtain ⟨rfl, -⟩ := (cut?_eq_some_iff (by decide)).mp hclose
      exact absurd ⟨before, inner, after, by simp⟩ h

/-! ## Where texts come together -/

/-- Only a comment at the very beginning brings another character to the
front. -/
theorem Erases.head?_eq {t u : Text} (h : Erases BlockComment t u) (ht : t.head? ≠ some '/') :
    u.head? = t.head? := by
  cases h with
  | nil => rfl
  | keep hno h => rfl
  | erase hmatch h =>
    obtain ⟨body, rfl, -⟩ := hmatch
    exact absurd rfl ht

/-- Without a closing mark nothing is taken out. -/
theorem Erases.eq_of_unclosed {t u : Text} (h : Erases BlockComment t u)
    (ht : ¬ "*/".toList <:+: t) : u = t := by
  induction h with
  | nil => rfl
  | keep hno h ih => rw [ih fun hclosed => ht (hclosed.trans (List.suffix_cons _ _).isInfix)]
  | @erase t rest u hmatch h ih =>
    obtain ⟨body, rfl, -⟩ := hmatch
    exact absurd ⟨"/*" ++ body, rest, by simp⟩ ht

/-- A closed comment begins at the first character or later. -/
theorem hasBlockComment_cons_iff {c : Char} {t : Text} :
    HasBlockComment (c :: t) ↔
      (∃ r, c = '/' ∧ t = '*' :: r ∧ "*/".toList <:+: r) ∨ HasBlockComment t := by
  rw [hasBlockComment_iff, hasBlockComment_iff]
  constructor
  · rintro ⟨before, r, heq, hclosed⟩
    cases before with
    | nil =>
      cases heq
      exact .inl ⟨r, rfl, rfl, hclosed⟩
    | cons d before =>
      cases heq
      exact .inr ⟨before, r, rfl, hclosed⟩
  · rintro (⟨r, rfl, rfl, hclosed⟩ | ⟨before, r, rfl, hclosed⟩)
    · exact ⟨[], r, rfl, hclosed⟩
    · exact ⟨c :: before, r, rfl, hclosed⟩

/-- If no two slashes follow each other, taking out block comments leaves none,
and it does not bring slashes together either. The induction is on the way
through the text; a slash that is kept has no slash behind it, so its neighbour
stays the same. -/
theorem Erases.leaves_no_comment {t u : Text} (h : Erases BlockComment t u)
    (ht : ¬ "//".toList <:+: t) : ¬ "//".toList <:+: u ∧ ¬ HasBlockComment u := by
  induction h with
  | nil =>
    refine ⟨ht, not_hasBlockComment_of_no_mark ?_⟩
    decide
  | @keep c t u hno h ih =>
    obtain ⟨hslashes, hblock⟩ := ih fun hmem => ht (hmem.trans (List.suffix_cons c t).isInfix)
    have hneighbour : c = '/' → u.head? = t.head? := by
      rintro rfl
      refine h.head?_eq fun hhead => ?_
      obtain ⟨r, rfl⟩ := List.head?_eq_some_iff.mp hhead
      exact ht ⟨[], r, rfl⟩
    constructor
    · rw [List.infix_cons_iff]
      rintro (⟨r, heq⟩ | hlater)
      · -- Two slashes at the beginning stood there before.
        cases heq
        have hhead := hneighbour rfl
        obtain ⟨r', rfl⟩ := List.head?_eq_some_iff.mp hhead.symm
        exact ht ⟨[], r', rfl⟩
      · exact hslashes hlater
    · rw [hasBlockComment_cons_iff]
      rintro (⟨r, rfl, rfl, hclosed⟩ | hlater)
      · -- The mark is kept only if nothing closes it, and then nothing is taken out behind it.
        obtain ⟨r', rfl⟩ := List.head?_eq_some_iff.mp (hneighbour rfl).symm
        have hopen : ¬ "*/".toList <:+: r' := by
          intro hclosed'
          obtain ⟨rest, hmatch⟩ := exists_blockComment hclosed'
          exact hno rest hmatch
        cases h with
        | keep _ h => exact hopen (h.eq_of_unclosed hopen ▸ hclosed)
        | erase hmatch _ =>
          obtain ⟨body, heq, -⟩ := hmatch
          cases heq
      · exact hblock hlater
  | @erase t rest u hmatch h ih =>
    obtain ⟨body, rfl, -⟩ := hmatch
    exact ih fun hmem => ht (hmem.trans ⟨"/*" ++ (body ++ "*/"), [], by simp⟩)

/-- **Stripping comments reaches a fixed point.** The two passes take out line
comments and then block comments, from the left and without overlap. No two
slashes in a row and no closed block comment are left, so stripping again changes
nothing, and the stripped text declares the same names as the source. -/
theorem withoutComments_fixed (source : Text) :
    let code := source.withoutComments
    (∃ t, Erases LineComment source t ∧ Erases BlockComment t code) ∧
      ¬ "//".toList <:+: code ∧ ¬ HasBlockComment code ∧ code.withoutComments = code ∧
      ∀ denied, Roster.ofSource denied code = Roster.ofSource denied source := by
  intro code
  have hlines := erases_withoutLineComments source
  have hblocks : Erases BlockComment source.withoutLineComments code :=
    erases_withoutBlockComments source.withoutLineComments
  obtain ⟨hslashes, hblock⟩ := hblocks.leaves_no_comment (not_infix_withoutLineComments source)
  have hfixed : code.withoutComments = code := by
    rw [withoutComments, withoutLineComments_eq hslashes]
    exact withoutBlockComments_eq hblock
  refine ⟨⟨source.withoutLineComments, hlines, hblocks⟩, hslashes, hblock, hfixed, ?_⟩
  intro denied
  rw [Roster.ofSource, Roster.ofSource, hfixed]

end Text
end MemberOrder
