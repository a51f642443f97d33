import Mathlib.Data.List.Induction
import Mathlib.Data.List.Infix
import Mathlib.Tactic.MkIffOfInductiveProp
import MemberOrder.Proofs.Automaton
import MemberOrder.Reordering

/-! # Plain code

On plain code it makes no difference how braces are counted. A line is plain
if no quote and no comment mark stands on it, or if it is a comment that raw
counting overlooks too, because there is no brace in it and no semicolon at its
end. If every line of a source is plain, raw and lexical counting give the same
shapes, and so the same classification (`classification_of_plain_lines`).

On a line of plain code the automaton is followed character by character:
behind each character it is in code, or behind a slash, and it has counted what
raw counting counts (`Automaton.Tracks`). -/

namespace MemberOrder

/-! ## Plain lines -/

namespace Text

/-- Code in which no literal and no comment begins. -/
@[mk_iff]
structure IsPlainCode (t : Text) : Prop where
  no_double_quote : '"' ∉ t
  no_single_quote : '\x27' ∉ t
  no_line_comment : ¬ "//".toList <:+: t
  no_block_comment : ¬ "/*".toList <:+: t

/-- A comment behind nothing but blanks, without braces and without a semicolon
at its end. -/
@[mk_iff]
structure IsQuietComment (t : Text) : Prop where
  begins : "//".toList <+: t.trimStart
  no_open_brace : '{' ∉ t
  no_close_brace : '}' ∉ t
  not_terminated : ¬ ";".toList <:+ t.trim

/-- A line on which raw and lexical counting have to agree. -/
def IsPlainLine (t : Text) : Prop := t.IsPlainCode ∨ t.IsQuietComment

instance (t : Text) : Decidable t.IsPlainCode := decidable_of_iff' _ (isPlainCode_iff t)

instance (t : Text) : Decidable t.IsQuietComment := decidable_of_iff' _ (isQuietComment_iff t)

instance (t : Text) : Decidable t.IsPlainLine :=
  inferInstanceAs (Decidable (t.IsPlainCode ∨ t.IsQuietComment))

/-- The beginning of plain code is plain code. -/
theorem IsPlainCode.of_concat {t : Text} {c : Char} (h : IsPlainCode (t ++ [c])) :
    IsPlainCode t := by
  have hbegins : t <+: t ++ [c] := List.prefix_append t [c]
  constructor
  · intro hmem
    exact h.no_double_quote (hbegins.subset hmem)
  · intro hmem
    exact h.no_single_quote (hbegins.subset hmem)
  · intro hmark
    exact h.no_line_comment (hmark.trans hbegins.isInfix)
  · intro hmark
    exact h.no_block_comment (hmark.trans hbegins.isInfix)

/-- A slash at the end and the next character are no mark. -/
theorem IsPlainCode.ne_of_slash {t : Text} {c : Char} (h : IsPlainCode (t ++ [c]))
    (hslash : t.getLast? = some '/') : c ≠ '/' ∧ c ≠ '*' := by
  rcases List.getLast?_eq_some_iff.mp hslash with ⟨u, rfl⟩
  rw [List.append_assoc] at h
  constructor
  · rintro rfl
    exact h.no_line_comment (List.suffix_append u _).isInfix
  · rintro rfl
    exact h.no_block_comment (List.suffix_append u _).isInfix

/-! ## The last character that is not blank -/

/-- Trimming at the end brings the last character to the end that is not blank. -/
theorem getLast?_trimEnd (t : Text) :
    t.trimEnd.getLast? = (t.filter fun c => !isBlank c).getLast? := by
  induction t using List.reverseRecOn with
  | nil => rfl
  | append_singleton t c ih =>
    rw [Automaton.trimEnd_concat, List.filter_append]
    -- A blank at the end is trimmed, and anything else is the character in question.
    by_cases hblank : isBlank c = true
    · rw [if_pos hblank, ih]
      simp [hblank]
    · rw [if_neg hblank]
      simp [hblank]

/-- Trimming at the start drops blanks only. -/
theorem filter_trimStart (t : Text) :
    (t.trimStart.filter fun c => !isBlank c) = t.filter fun c => !isBlank c := by
  unfold trimStart
  induction t with
  | nil => rfl
  | cons c t ih =>
    by_cases hblank : isBlank c = true
    · rw [List.dropWhile_cons_of_pos hblank, ih, List.filter_cons_of_neg (by simp [hblank])]
    · rw [List.dropWhile_cons_of_neg hblank]

theorem getLast?_trim (t : Text) :
    t.trim.getLast? = (t.filter fun c => !isBlank c).getLast? := by
  unfold trim
  rw [getLast?_trimEnd, filter_trimStart]

end Text

/-- How one more character changes the raw shape. -/
theorem Shape.ofRaw_concat (t : Text) (c : Char) :
    ofRaw (t ++ [c]) =
      ⟨(ofRaw t).opens + if c = '{' then 1 else 0, (ofRaw t).closes + if c = '}' then 1 else 0,
        if isBlank c then (ofRaw t).terminated else c == ';'⟩ := by
  unfold ofRaw
  rw [Text.getLast?_trim, Text.getLast?_trim, List.filter_append]
  by_cases hblank : isBlank c = true
  · simp [hblank, List.count_singleton]
  · simp [hblank, List.count_singleton]

/-! ## Plain code, character by character -/

namespace Automaton

/-- The automaton has read the plain code `t` and counted what raw counting
counts. A slash at the end is left open. -/
structure Tracks (s : State) (t : Text) : Prop where
  place_eq : s.place = if t.getLast? = some '/' then .slash else .code
  shape_eq : s.shape = .ofRaw t

theorem Tracks.shape_place {s : State} {t : Text} (hs : Tracks s t) :
    s.shape = ⟨s.opens, s.closes, if t.getLast? = some '/' then false else s.terminated⟩ := by
  unfold State.shape
  rw [hs.place_eq]
  by_cases hslash : t.getLast? = some '/'
  · simp [hslash]
  · have hcode : (Place.code != Place.slash) = true := rfl
    simp [hslash, hcode]

/-- In plain code a character is read as code, and a slash before it counts. -/
theorem Tracks.next_eq_code {s : State} {t : Text} {c : Char} (hs : Tracks s t)
    (h : Text.IsPlainCode (t ++ [c])) :
    s.next c = { s with terminated := s.shape.terminated }.code c := by
  rw [hs.shape_place]
  -- Behind a slash the character could begin a comment, which plain code does not have.
  by_cases hslash : t.getLast? = some '/'
  · have hplace : s.place = .slash := by rw [hs.place_eq, if_pos hslash]
    rcases h.ne_of_slash hslash with ⟨hline, hblock⟩
    simp [State.next, hplace, hline, hblock, hslash]
  · have hplace : s.place = .code := by rw [hs.place_eq, if_neg hslash]
    have hcode : s.next c = s.code c := by simp [State.next, hplace]
    simp only [hcode, if_neg hslash]

/-- A character of code that is no quote. -/
theorem tracks_code {s : State} {t : Text} {c : Char} (hdouble : c ≠ '"') (hsingle : c ≠ '\x27')
    (hs : (⟨s.opens, s.closes, s.terminated⟩ : Shape) = .ofRaw t) :
    Tracks (s.code c) (t ++ [c]) := by
  constructor
  · rw [List.getLast?_concat]
    unfold State.code
    by_cases hslash : c = '/'
    · simp [hslash]
    · simp only [hslash, hdouble, hsingle]
      split_ifs <;> simp_all
  · rw [Shape.ofRaw_concat, ← hs]
    unfold State.code
    -- The cases are those of reading a character of code.
    by_cases hslash : c = '/'
    · have hblank : isBlank '/' = false := by decide
      simp [State.shape, hslash, hblank]
    by_cases hopen : c = '{'
    · have hblank : isBlank '{' = false := by decide
      simp [State.shape, hopen, hblank]
    by_cases hclose : c = '}'
    · have hblank : isBlank '}' = false := by decide
      simp [State.shape, hclose, hblank]
    by_cases hblank : isBlank c = true
    · simp [State.shape, hslash, hdouble, hsingle, hopen, hclose, hblank]
    · simp [State.shape, hslash, hdouble, hsingle, hopen, hclose, hblank]

/-- One step. -/
theorem Tracks.next {s : State} {t : Text} {c : Char} (hs : Tracks s t)
    (h : Text.IsPlainCode (t ++ [c])) : Tracks (s.next c) (t ++ [c]) := by
  have hdouble : c ≠ '"' := by
    rintro rfl
    exact h.no_double_quote (by simp)
  have hsingle : c ≠ '\x27' := by
    rintro rfl
    exact h.no_single_quote (by simp)
  rw [hs.next_eq_code h]
  exact tracks_code hdouble hsingle hs.shape_eq

/-- A whole line of plain code. -/
theorem tracks_readLine {t : Text} (h : t.IsPlainCode) : Tracks (readLine false t) t := by
  induction t using List.reverseRecOn with
  | nil => constructor <;> rfl
  | append_singleton t c ih =>
    have hread : readLine false (t ++ [c]) = (readLine false t).next c := by
      unfold readLine
      rw [List.foldl_append, List.foldl_cons, List.foldl_nil]
    rw [hread]
    exact (ih h.of_concat).next h

/-- At the end of plain code raw counting sees what the automaton sees. -/
theorem Tracks.observe_eq {s : State} {t : Text} (hs : Tracks s t) :
    observe s = (.ofRaw t, false) := by
  unfold observe State.inComment
  rw [hs.shape_eq, hs.place_eq]
  split_ifs <;> rfl

/-! ## Quiet comments -/

/-- Blanks leave the automaton where it starts. -/
theorem foldl_blank {t : Text} (h : ∀ c ∈ t, isBlank c = true) :
    t.foldl State.next (.start false) = .start false := by
  induction t with
  | nil => rfl
  | cons c t ih =>
    have hblank : isBlank c = true := h c List.mem_cons_self
    have hstays : (State.start false).next c = .start false := by
      have hne : ∀ d : Char, isBlank d = false → c ≠ d := by
        rintro d hd rfl
        rw [hblank] at hd
        cases hd
      simp [State.next, State.start, State.code, hblank, hne '/' (by decide), hne '"' (by decide),
        hne '\x27' (by decide), hne '{' (by decide), hne '}' (by decide)]
    rw [List.foldl_cons, hstays]
    exact ih fun d hd => h d (List.mem_cons_of_mem _ hd)

/-- A comment behind blanks shows nothing. -/
theorem observe_readLine_comment {t : Text} (h : "//".toList <+: t.trimStart) :
    observe (readLine false t) = (⟨0, 0, false⟩, false) := by
  rcases h with ⟨u, hu⟩
  have hsplit : t = t.takeWhile isBlank ++ ("//".toList ++ u) := by
    rw [hu]
    exact List.takeWhile_append_dropWhile.symm
  have hblank : ∀ c ∈ t.takeWhile isBlank, isBlank c = true := by
    intro c hc
    exact List.mem_takeWhile_imp hc
  have hcomment : ("//".toList ++ u).foldl State.next (.start false) =
      ({} : Shape.Tally).state .lineComment := foldl_lineComment {} u
  unfold readLine
  rw [hsplit, List.foldl_append, foldl_blank hblank, hcomment]
  rfl

end Automaton

/-- Raw counting overlooks a quiet comment. -/
theorem Shape.ofRaw_quietComment {t : Text} (h : t.IsQuietComment) :
    ofRaw t = ⟨0, 0, false⟩ := by
  have hterminated : (t.trim.getLast? == some ';') = false := by
    rw [beq_eq_false_iff_ne]
    intro hlast
    rcases List.getLast?_eq_some_iff.mp hlast with ⟨u, hu⟩
    exact h.not_terminated ⟨u, hu.symm⟩
  unfold ofRaw
  rw [List.count_eq_zero.mpr h.no_open_brace, List.count_eq_zero.mpr h.no_close_brace, hterminated]

/-! ## Plain sources -/

/-- On a plain line both ways of counting see the same. -/
theorem Shape.scan_of_isPlainLine {t : Text} (h : t.IsPlainLine) :
    scan .lexical false t = scan .raw false t := by
  have hlexical : scan .lexical false t = Automaton.observe (Automaton.readLine false t) :=
    Automaton.ofLexical_eq false t
  rw [hlexical]
  show _ = (ofRaw t, false)
  -- Code is followed to its end; a quiet comment has the empty shape in both ways.
  rcases h with hcode | hcomment
  · exact (Automaton.tracks_readLine hcode).observe_eq
  · rw [Automaton.observe_readLine_comment hcomment.begins, ofRaw_quietComment hcomment]

/-- On plain lines both ways of counting give the same shapes. -/
theorem Shape.scanAll_of_isPlainLine {ts : List Text} (h : ∀ t ∈ ts, t.IsPlainLine) :
    scanAll .lexical false ts = scanAll .raw false ts := by
  induction ts with
  | nil => rfl
  | cons t ts ih =>
    have hline := scan_of_isPlainLine (h t List.mem_cons_self)
    have hrest := ih fun u hu => h u (List.mem_cons_of_mem _ hu)
    simp only [scanAll, hline]
    -- Raw counting never leaves a comment open.
    exact congrArg (List.cons _) hrest

theorem Classification.ofSource_of_isPlainLine {source : Text}
    (h : ∀ t ∈ source.lines, t.IsPlainLine) :
    ofSource .lexical source = ofSource .raw source := by
  unfold ofSource Pass.ofSource ShapedLine.ofSource
  rw [Shape.scanAll_of_isPlainLine h]

/-- **On plain code both ways of counting agree.** If every line of a source is
plain, raw and lexical counting give the same grouping, with the same lines in
each section and the sections named in the same order; the same diagnostics, in
the same order; and the same reordered text. -/
theorem classification_of_plain_lines (source : Text) (h : ∀ t ∈ source.lines, t.IsPlainLine) :
    let raw := Classification.ofSource .raw source
    let lexical := Classification.ofSource .lexical source
    raw.grouping = lexical.grouping ∧
      raw.warnings.map Warning.diagnostic = lexical.warnings.map Warning.diagnostic ∧
      reorder .raw source = reorder .lexical source := by
  intro raw lexical
  have hsame : raw = lexical := (Classification.ofSource_of_isPlainLine h).symm
  refine ⟨?_, ?_, ?_⟩
  · rw [hsame]
  · rw [hsame]
  · show raw.grouping.render = lexical.grouping.render
    rw [hsame]

/-- Divisions, a slash at the end of a line, a comment behind a no-break space
with an apostrophe and marks of its own, and a brace too many. -/
theorem classification_of_plain_lines_divisions :
    let source : Text :=
      "contract A \x7b\nuint a = b / c /\n  d;\n\u00a0// don\x27t /* a; b\nevent E(\n) ;\n\x7d \x7d"
    (∀ t ∈ source.lines, t.IsPlainLine) ∧
      (Classification.ofSource .lexical source).warnings.length = 1 ∧
      reorder .raw source = reorder .lexical source := by
  intro source
  have hplain : ∀ t ∈ source.lines, t.IsPlainLine := by decide +kernel
  exact ⟨hplain, by decide +kernel, (classification_of_plain_lines source hplain).2.2⟩

end MemberOrder
