import Mathlib.Data.List.Induction
import Mathlib.Data.List.TakeWhile
import MemberOrder.Shape.Scan

/-! # Lexical shapes, character by character

In lexical counting a line is cut into lexemes, and the lexemes are counted.
The same shapes come from an automaton that reads one character at a time and
knows nothing of lexemes: its state says whether the last character stands in
code, in a comment or in a literal, and what was counted so far.

The two are compared lexeme by lexeme. What was counted before a lexeme, put
into code or into a block comment, is a state of the automaton
(`Shape.Tally.resume`), and reading the characters of the lexeme leads to the
state behind it (`observe_foldl_of_next?`). Only at the end of a line is there
a difference, which the shape does not show: the automaton may be left behind a
slash, in a literal or behind a star. -/

namespace MemberOrder
namespace Automaton

/-! ## The automaton -/

/-- Where the next character stands. -/
inductive Place where
  | code
  /-- Behind a slash in code, which may turn out to begin a comment. -/
  | slash
  | lineComment
  | blockComment
  /-- Behind a star in a block comment, which may turn out to end it. -/
  | star
  | literal (quote : Char)
  /-- Behind a backslash in a literal. -/
  | escape (quote : Char)
deriving DecidableEq, Repr

/-- What the characters of a line have shown so far: the place of the next one,
the braces in code, and whether a semicolon is the last thing outside comments
that is not blank. -/
structure State where
  place : Place
  opens : Nat
  closes : Nat
  terminated : Bool
deriving DecidableEq, Repr

namespace State

/-- Read a character of code. A literal counts as one thing that is no
semicolon. A slash counts when it is clear that it begins no comment. -/
def code (s : State) (c : Char) : State :=
  if c = '/' then { s with place := .slash }
  else if c = '"' || c = '\x27' then { s with place := .literal c, terminated := false }
  else if c = '{' then { s with place := .code, opens := s.opens + 1, terminated := false }
  else if c = '}' then { s with place := .code, closes := s.closes + 1, terminated := false }
  else if isBlank c then { s with place := .code }
  else { s with place := .code, terminated := c == ';' }

/-- Read one character. -/
def next (s : State) (c : Char) : State :=
  match s.place with
  | .code => s.code c
  | .slash =>
    if c = '/' then { s with place := .lineComment }
    else if c = '*' then { s with place := .blockComment }
    else { s with terminated := false }.code c
  | .lineComment => s
  | .blockComment => if c = '*' then { s with place := .star } else s
  | .star =>
    if c = '/' then { s with place := .code }
    else if c = '*' then s
    else { s with place := .blockComment }
  | .literal quote =>
    if c = '\\' then { s with place := .escape quote }
    else if c = quote then { s with place := .code }
    else s
  | .escape quote => { s with place := .literal quote }

/-- The state in front of a line. -/
def start (inComment : Bool) : State :=
  ⟨if inComment then .blockComment else .code, 0, 0, false⟩

/-- Whether the line ends inside a block comment. -/
def inComment (s : State) : Bool := s.place = .blockComment || s.place = .star

/-- The shape of a line that has been read. A slash at its end is code. -/
def shape (s : State) : Shape := ⟨s.opens, s.closes, s.terminated && s.place != .slash⟩

end State

/-- The state behind a line. -/
def readLine (inComment : Bool) (t : Text) : State := t.foldl State.next (.start inComment)

/-- The shapes of consecutive lines. A line starts inside a block comment if
the line before it ends in one, and otherwise in code. -/
def shapes (inComment : Bool) : List Text → List Shape
  | [] => []
  | t :: ts => (readLine inComment t).shape :: shapes (readLine inComment t).inComment ts

end Automaton

/-! ## States of the automaton from what was counted -/

namespace Shape.Tally

open Automaton

/-- The state with the same counts in the given place. -/
def state (n : Tally) (p : Place) : State := ⟨p, n.opens, n.closes, n.last? == some ';'⟩

/-- The state between two lexemes. -/
def resume (n : Tally) : State := n.state (if n.inComment then .blockComment else .code)

end Shape.Tally

namespace Automaton

open Shape (Tally)

/-- What can be seen of a state at the end of a line. -/
def observe (s : State) : Shape × Bool := (s.shape, s.inComment)

/-- Between two lexemes the state shows what was counted. -/
theorem observe_resume (n : Tally) : observe n.resume = (n.shape, n.inComment) := by
  obtain ⟨o, c, l, b⟩ := n
  cases b <;> simp [observe, Tally.resume, Tally.state, State.shape, Tally.shape, State.inComment]

/-! ## Block comments -/

/-- A star that no slash follows has no effect. -/
theorem observe_foldl_star (n : Tally) {t : Text} (h : t.head? ≠ some '/') :
    observe (t.foldl State.next (n.state .star)) =
      observe (t.foldl State.next (n.state .blockComment)) := by
  cases t with
  | nil => rfl
  | cons c t =>
    have hc : c ≠ '/' := by simpa using h
    by_cases hstar : c = '*'
    · simp [State.next, Tally.state, hstar]
    · simp [State.next, Tally.state, hc, hstar]

/-- Inside a block comment the automaton goes on to the first end mark. -/
theorem observe_foldl_blockComment (n : Tally) (t before : Text) :
    observe (t.foldl State.next (n.state .blockComment)) =
      match Text.cutFrom "*/" before t with
      | some (_, rest) => observe (rest.foldl State.next (n.state .code))
      | none => (n.shape, true) := by
  induction t generalizing before with
  | nil => simp [Text.cutFrom, observe, State.shape, State.inComment, Tally.state, Tally.shape]
  | cons c t ih =>
    rw [Text.cutFrom, List.foldl_cons]
    -- The end mark stands here, or the comment goes on behind this character.
    by_cases hmark : List.isPrefixOf "*/".toList (c :: t) = true
    · obtain ⟨rest, hrest⟩ := List.isPrefixOf_iff_prefix.mp hmark
      obtain ⟨rfl, rfl⟩ := List.cons.inj hrest
      rfl
    · rw [if_neg hmark]
      by_cases hstar : c = '*'
      · -- The star is not followed by a slash.
        subst hstar
        have hhead : t.head? ≠ some '/' := by
          intro hhead
          obtain ⟨u, rfl⟩ := List.head?_eq_some_iff.mp hhead
          exact hmark rfl
        rw [← ih, ← observe_foldl_star n hhead]
        rfl
      · have hstays : (n.state .blockComment).next c = n.state .blockComment := by
          simp [State.next, Tally.state, hstar]
        rw [hstays, ← ih]

/-- A block comment is read to its end, or to the end of the line. -/
theorem observe_foldl_blockRest (n : Tally) (t : Text) :
    observe (t.foldl State.next (n.state .blockComment)) =
      observe ((Lexeme.blockRest t).2.foldl State.next (n.add (Lexeme.blockRest t).1).resume) := by
  rw [observe_foldl_blockComment n t [], Lexeme.blockRest, Text.cut?]
  cases Text.cutFrom "*/" [] t with
  | some found => rfl
  | none =>
    rw [List.foldl_nil, observe_resume]
    rfl

/-- A block comment without an end takes the whole line. -/
theorem blockRest_eq_nil {n : Tally} {t : Text}
    (h : (n.add (Lexeme.blockRest t).1).inComment = true) : (Lexeme.blockRest t).2 = [] := by
  unfold Lexeme.blockRest at h ⊢
  cases hcut : Text.cut? "*/" t with
  | some found =>
    rw [hcut] at h
    cases h
  | none => rfl

/-! ## Literals -/

/-- A character with which no escape begins is no backslash. -/
theorem ne_backslash {c : Char} {t : Text} (hlone : c = '\\' → t = [] → False)
    (hpair : ∀ d u, c = '\\' → t = d :: u → False) : c ≠ '\\' := by
  intro hc
  cases t with
  | nil => exact hlone hc rfl
  | cons d u => exact hpair d u hc rfl

/-- A literal is read to its closing quote, or to the end of the line. A
backslash that is left over there is code, and no semicolon either. -/
theorem observe_foldl_literal {n : Tally} (h : n.last? = some '"') (quote : Char) (t : Text) :
    observe (t.foldl State.next (n.state (.literal quote))) =
      observe ((Lexeme.afterLiteral quote t).foldl State.next (n.state .code)) := by
  fun_induction Lexeme.afterLiteral quote t with
  | case1 => rfl
  | case2 => simp [observe, State.next, State.code, State.shape, State.inComment, Tally.state, h]
  | case3 c t ih => exact ih
  | case4 t hlone hpair =>
    have hcloses : (n.state (.literal quote)).next quote = n.state .code := by
      simp [State.next, Tally.state, ne_backslash hlone hpair]
    rw [List.foldl_cons, hcloses]
  | case5 c t hlone hpair hquote ih =>
    have hstays : (n.state (.literal quote)).next c = n.state (.literal quote) := by
      simp [State.next, Tally.state, ne_backslash hlone hpair, hquote]
    rw [List.foldl_cons, hstays, ih]

/-! ## Plain code -/

/-- A blank at the end is trimmed; any other character stops the trimming. -/
theorem trimEnd_concat (t : Text) (c : Char) :
    Text.trimEnd (t ++ [c]) = if isBlank c then Text.trimEnd t else t ++ [c] := by
  unfold Text.trimEnd
  rw [List.reverse_append, List.reverse_singleton, List.singleton_append, List.dropWhile_cons]
  split
  · rfl
  · rw [List.reverse_cons, List.reverse_reverse]

/-- One character of plain code is a stretch of code by itself. -/
theorem next_plain (n : Tally) {c : Char} (h : Lexeme.isPlain c = true) :
    (n.state .code).next c = (n.add (.code (if isBlank c then none else some c))).state .code := by
  simp only [Lexeme.isPlain, Bool.and_eq_true, bne_iff_ne] at h
  obtain ⟨⟨⟨⟨hopen, hclose⟩, hdouble⟩, hsingle⟩, hslash⟩ := h
  -- A blank leaves the state alone, and another character may be a semicolon.
  by_cases hblank : isBlank c = true
  · simp [State.next, State.code, Tally.state, Tally.add, hopen, hclose, hdouble, hsingle, hslash,
      hblank]
  · simp [State.next, State.code, Tally.state, Tally.add, hopen, hclose, hdouble, hsingle, hslash,
      hblank]

/-- Of a stretch of plain code only the last character that is not blank
counts. -/
theorem foldl_plain (n : Tally) {t : Text} (h : ∀ c ∈ t, Lexeme.isPlain c = true) :
    t.foldl State.next (n.state .code) =
      (n.add (.code (Text.trimEnd t).getLast?)).state .code := by
  induction t using List.reverseRecOn with
  | nil => rfl
  | append_singleton t c ih =>
    have ht := ih fun d hd => h d (List.mem_append_left _ hd)
    have hc : Lexeme.isPlain c = true := h c (by simp)
    rw [List.foldl_append, ht, List.foldl_cons, List.foldl_nil, next_plain _ hc, trimEnd_concat]
    by_cases hblank : isBlank c = true
    · rw [if_pos hblank, if_pos hblank]
      rfl
    · rw [if_neg hblank, if_neg hblank, List.getLast?_concat]
      -- The character before it makes no difference any more.
      cases (Text.trimEnd t).getLast? with
      | none => rfl
      | some d => rfl

/-! ## Lexeme by lexeme -/

/-- A slash that begins no comment is code. -/
theorem observe_foldl_slash (n : Tally) {t : Text} (hslash : t.head? ≠ some '/')
    (hstar : t.head? ≠ some '*') :
    observe (t.foldl State.next (n.state .slash)) =
      observe (t.foldl State.next ((n.add (.code (some '/'))).state .code)) := by
  cases t with
  | nil => simp [observe, State.shape, State.inComment, Tally.state, Tally.add]
  | cons c t =>
    have hc : c ≠ '/' := by simpa using hslash
    have hc' : c ≠ '*' := by simpa using hstar
    have hnext : (n.state .slash).next c = ((n.add (.code (some '/'))).state .code).next c := by
      simp [State.next, Tally.state, Tally.add, hc, hc', State.code]
    rw [List.foldl_cons, hnext, List.foldl_cons]

/-- A line comment is not left again. -/
theorem foldl_lineComment (n : Tally) (t : Text) :
    t.foldl State.next (n.state .lineComment) = n.state .lineComment := by
  induction t with
  | nil => rfl
  | cons c t ih => exact ih

end Automaton

namespace Lexeme

/-- Reading stops at the end of the text only. -/
theorem eq_nil_of_next? {t : Text} (h : next? t = none) : t = [] := by
  by_contra hne
  have hsome := next?_isSome hne
  rw [h] at hsome
  cases hsome

/-- What the first lexeme of a text can be, by the characters with which the
text begins. -/
theorem next?_cases {t rest : Text} {l : Lexeme} (h : next? t = some (l, rest)) :
    (∃ u, t = '/' :: '/' :: u ∧ l = lineComment ∧ rest = []) ∨
      (∃ u, t = '/' :: '*' :: u ∧ blockRest u = (l, rest)) ∨
      (t = '/' :: rest ∧ rest.head? ≠ some '/' ∧ rest.head? ≠ some '*' ∧ l = code (some '/')) ∨
      (∃ q u, (q = '"' ∨ q = '\x27') ∧ t = q :: u ∧ l = literal ∧ rest = afterLiteral q u) ∨
      (t = '{' :: rest ∧ l = openBrace) ∨
      (t = '}' :: rest ∧ l = closeBrace) ∨
      ∃ c u, isPlain c = true ∧ t = c :: u ∧ plainRun c u = (l, rest) := by
  cases t with
  | nil => cases h
  | cons c t =>
    simp only [next?] at h
    -- The branches are in the order in which the characters are asked for.
    split at h
    · rename_i hslash
      subst hslash
      split at h
      · rename_i u
        cases h
        exact .inl ⟨u, rfl, rfl, rfl⟩
      · rename_i u
        exact .inr (.inl ⟨u, rfl, Option.some.inj h⟩)
      · rename_i hline hblock
        cases h
        refine .inr (.inr (.inl ⟨rfl, ?_, ?_, rfl⟩))
        · intro hhead
          obtain ⟨u, rfl⟩ := List.head?_eq_some_iff.mp hhead
          exact hline u rfl
        · intro hhead
          obtain ⟨u, rfl⟩ := List.head?_eq_some_iff.mp hhead
          exact hblock u rfl
    · rename_i hslash
      split at h
      · rename_i hquote
        cases h
        exact .inr (.inr (.inr (.inl ⟨c, t, by simpa using hquote, rfl, rfl, rfl⟩)))
      · rename_i hquote
        split at h
        · rename_i hopen
          cases h
          exact .inr (.inr (.inr (.inr (.inl ⟨by rw [hopen], rfl⟩))))
        · rename_i hopen
          split at h
          · rename_i hclose
            cases h
            exact .inr (.inr (.inr (.inr (.inr (.inl ⟨by rw [hclose], rfl⟩)))))
          · rename_i hclose
            have hplain : isPlain c = true := by
              simp only [Bool.or_eq_true, decide_eq_true_eq, not_or] at hquote
              simp [isPlain, hslash, hquote, hopen, hclose]
            exact .inr (.inr (.inr (.inr (.inr (.inr ⟨c, t, hplain, rfl, Option.some.inj h⟩)))))

end Lexeme

namespace Automaton

open Shape (Tally)

theorem resume_eq {n : Tally} (h : n.inComment = false) : n.resume = n.state .code := by
  rw [Tally.resume, h]
  rfl

/-- Only a block comment can lead out of code. -/
theorem inComment_add (n : Tally) {l : Lexeme} (h : ∀ closed, l ≠ .blockComment closed) :
    (n.add l).inComment = n.inComment := by
  cases l with
  | blockComment closed => exact absurd rfl (h closed)
  | code last? => cases last? <;> rfl
  | _ => rfl

theorem resume_add {n : Tally} (hcode : n.inComment = false) {l : Lexeme}
    (h : ∀ closed, l ≠ .blockComment closed) : (n.add l).resume = (n.add l).state .code :=
  resume_eq ((inComment_add n h).trans hcode)

/-- Reading the characters of a lexeme leads from the state before it to the
state behind it. -/
theorem observe_foldl_of_next? {n : Tally} (hcode : n.inComment = false) {t rest : Text}
    {l : Lexeme} (h : Lexeme.next? t = some (l, rest)) :
    observe (t.foldl State.next n.resume) = observe (rest.foldl State.next (n.add l).resume) := by
  rw [resume_eq hcode]
  rcases Lexeme.next?_cases h with ⟨u, rfl, rfl, rfl⟩ | ⟨u, rfl, hblock⟩ |
    ⟨rfl, hslash, hstar, rfl⟩ | ⟨q, u, hquote, rfl, rfl, rfl⟩ | ⟨rfl, rfl⟩ | ⟨rfl, rfl⟩ |
    ⟨c, u, hplain, rfl, hrun⟩
  · -- A line comment takes the rest of the line.
    have hline : ('/' :: '/' :: u).foldl State.next (n.state .code) = n.state .lineComment :=
      foldl_lineComment n u
    rw [hline, resume_add hcode (by simp)]
    rfl
  · have hrest := observe_foldl_blockRest n u
    rw [hblock] at hrest
    exact hrest
  · rw [resume_add hcode (by simp)]
    exact observe_foldl_slash n hslash hstar
  · have hopens : (n.state .code).next q = (n.add .literal).state (.literal q) := by
      rcases hquote with rfl | rfl <;> rfl
    rw [resume_add hcode (by simp), ← observe_foldl_literal rfl, List.foldl_cons, hopens]
  · rw [resume_add hcode (by simp)]
    rfl
  · rw [resume_add hcode (by simp)]
    rfl
  · -- A stretch of plain code is read up to its last character.
    obtain ⟨rfl, rfl⟩ := Prod.mk.inj hrun
    have hstretch : ∀ d ∈ c :: u.takeWhile Lexeme.isPlain, Lexeme.isPlain d = true := by
      intro d hd
      rcases List.mem_cons.mp hd with rfl | hd
      · exact hplain
      · exact List.mem_takeWhile_imp hd
    have hsplit : c :: u = (c :: u.takeWhile Lexeme.isPlain) ++ u.dropWhile Lexeme.isPlain := by
      rw [List.cons_append, List.takeWhile_append_dropWhile]
    rw [hsplit, List.foldl_append, foldl_plain n hstretch, resume_add hcode (by simp)]

/-- Behind a lexeme that leaves a comment open there is nothing left to read. -/
theorem rest_eq_nil_of_next? {n : Tally} (hcode : n.inComment = false) {t rest : Text}
    {l : Lexeme} (h : Lexeme.next? t = some (l, rest)) (hopen : (n.add l).inComment = true) :
    rest = [] := by
  have hother : ¬ ∀ closed, l ≠ .blockComment closed := by
    intro hl
    rw [inComment_add n hl, hcode] at hopen
    cases hopen
  rcases Lexeme.next?_cases h with ⟨u, -, -, rfl⟩ | ⟨u, -, hblock⟩ | ⟨-, -, -, rfl⟩ |
    ⟨q, u, -, -, rfl, -⟩ | ⟨-, rfl⟩ | ⟨-, rfl⟩ | ⟨c, u, -, -, hrun⟩
  · rfl
  · have hrest := blockRest_eq_nil (n := n) (t := u)
    rw [hblock] at hrest
    exact hrest hopen
  · exact absurd (by simp) hother
  · exact absurd (by simp) hother
  · exact absurd (by simp) hother
  · exact absurd (by simp) hother
  · obtain ⟨rfl, -⟩ := Prod.mk.inj hrun
    exact absurd (by simp) hother

/-- The lexemes of a text lead to what the automaton shows at its end. -/
theorem observe_foldl_eq (t : Text) (n : Tally) (h : n.inComment = true → t = []) :
    observe (t.foldl State.next n.resume) =
      (((Lexeme.all t).foldl Tally.add n).shape, ((Lexeme.all t).foldl Tally.add n).inComment) := by
  fun_induction Lexeme.all t generalizing n with
  | case1 t hnone =>
    rw [Lexeme.eq_nil_of_next? hnone]
    exact observe_resume n
  | case2 t l rest hnext ih =>
    have hcode : n.inComment = false := by
      rw [← Bool.not_eq_true]
      intro hopen
      rw [h hopen] at hnext
      cases hnext
    rw [observe_foldl_of_next? hcode hnext, ih (n.add l) (rest_eq_nil_of_next? hcode hnext)]
    rfl

/-- The shape of a line, and whether the next one starts inside a comment. -/
theorem ofLexical_eq (inComment : Bool) (t : Text) :
    Shape.ofLexical inComment t = observe (readLine inComment t) := by
  cases inComment with
  | false => exact (observe_foldl_eq t {} (by simp)).symm
  | true =>
    have hblock := observe_foldl_blockRest {} t
    have hrest := observe_foldl_eq (Lexeme.blockRest t).2
      (({} : Tally).add (Lexeme.blockRest t).1) blockRest_eq_nil
    exact (hblock.trans hrest).symm

/-- Line after line, lexical counting gives the shapes of the automaton. -/
theorem scanAll_lexical (inComment : Bool) (ts : List Text) :
    Shape.scanAll .lexical inComment ts = shapes inComment ts := by
  induction ts generalizing inComment with
  | nil => rfl
  | cons t ts ih =>
    have hline : Shape.scan .lexical inComment t = observe (readLine inComment t) :=
      ofLexical_eq inComment t
    rw [Shape.scanAll, hline, shapes, ← ih]
    rfl

end Automaton

/-! ## No character is left unread -/

theorem Text.suffix_of_cutFrom {mark before t l r : Text}
    (h : cutFrom mark before t = some (l, r)) : r <:+ t := by
  induction t generalizing before with
  | nil =>
    simp only [cutFrom] at h
    split at h
    · cases h
      exact List.suffix_refl _
    · cases h
  | cons c t ih =>
    simp only [cutFrom] at h
    split at h
    · cases h
      exact List.drop_suffix _ _
    · exact (ih h).trans (List.suffix_cons c t)

namespace Lexeme

theorem afterLiteral_suffix (quote : Char) (t : Text) : afterLiteral quote t <:+ t := by
  fun_induction afterLiteral quote t with
  | case1 => exact List.suffix_refl _
  | case2 => exact List.suffix_refl _
  | case3 c t ih => exact (ih.trans (List.suffix_cons c t)).trans (List.suffix_cons _ _)
  | case4 t => exact List.suffix_cons quote t
  | case5 c t _ _ _ ih => exact ih.trans (List.suffix_cons c t)

theorem blockRest_suffix (t : Text) : (blockRest t).2 <:+ t := by
  unfold blockRest
  split
  · rename_i hcut
    exact Text.suffix_of_cutFrom hcut
  · exact List.nil_suffix

/-- A lexeme takes characters from the front of the text, at least one. -/
theorem exists_append_of_next? {t rest : Text} {l : Lexeme} (h : next? t = some (l, rest)) :
    ∃ read, read ≠ [] ∧ t = read ++ rest := by
  have hsuffix : rest <:+ t := by
    rcases next?_cases h with ⟨u, -, -, rfl⟩ | ⟨u, rfl, hblock⟩ | ⟨rfl, -, -, -⟩ |
      ⟨q, u, -, rfl, -, rfl⟩ | ⟨rfl, -⟩ | ⟨rfl, -⟩ | ⟨c, u, -, rfl, hrun⟩
    · exact List.nil_suffix
    · have hrest := blockRest_suffix u
      rw [hblock] at hrest
      exact (hrest.trans (List.suffix_cons '*' u)).trans (List.suffix_cons '/' _)
    · exact List.suffix_cons '/' rest
    · exact (afterLiteral_suffix q u).trans (List.suffix_cons q u)
    · exact List.suffix_cons '{' rest
    · exact List.suffix_cons '}' rest
    · obtain ⟨-, rfl⟩ := Prod.mk.inj hrun
      exact (List.dropWhile_suffix _).trans (List.suffix_cons c u)
  obtain ⟨read, rfl⟩ := hsuffix
  refine ⟨read, ?_, rfl⟩
  rintro rfl
  exact absurd (length_next?_lt h) (Nat.lt_irrefl _)

/-- The lexemes of a text take all of it. -/
theorem exists_pieces_all (t : Text) :
    ∃ pieces : List Text, pieces.length = (all t).length ∧ [] ∉ pieces ∧ pieces.flatten = t := by
  fun_induction all t with
  | case1 t hnone => exact ⟨[], rfl, List.not_mem_nil, (eq_nil_of_next? hnone).symm⟩
  | case2 t l rest hnext ih =>
    obtain ⟨read, hread, rfl⟩ := exists_append_of_next? hnext
    obtain ⟨pieces, hlen, hne, hflat⟩ := ih
    refine ⟨read :: pieces, ?_, ?_, ?_⟩
    · rw [List.length_cons, hlen, List.length_cons]
    · rw [List.mem_cons, not_or]
      exact ⟨Ne.symm hread, hne⟩
    · rw [List.flatten_cons, hflat]

end Lexeme

/-- **Lexical counting is a character automaton.** For every sequence of lines
the lexemes give the shapes that the automaton gives. Every text that is not
empty begins with a lexeme of at least one character, so the lexemes of a line
take all of it. -/
theorem lexical_shapes_eq_automaton (ts : List Text) :
    Shape.scanAll .lexical false ts = Automaton.shapes false ts ∧
      (∀ t : Text, t ≠ [] → ∃ l read rest,
        Lexeme.next? t = some (l, rest) ∧ read ≠ [] ∧ t = read ++ rest) ∧
      ∀ t : Text, ∃ pieces : List Text,
        pieces.length = (Lexeme.all t).length ∧ [] ∉ pieces ∧ pieces.flatten = t := by
  refine ⟨Automaton.scanAll_lexical false ts, ?_, Lexeme.exists_pieces_all⟩
  intro t ht
  obtain ⟨⟨l, rest⟩, hnext⟩ := Option.isSome_iff_exists.mp (Lexeme.next?_isSome ht)
  obtain ⟨read, hread, hsplit⟩ := Lexeme.exists_append_of_next? hnext
  exact ⟨l, read, rest, hnext, hread, hsplit⟩

/-- The slash behind the opening mark does not close the comment, and the
backslash at the end of the first line escapes nothing. -/
example : Automaton.shapes false ["a; '\x7b \\", "/*/ \x7b ; */ \x7d ; // \x7b"] =
    [⟨0, 0, false⟩, ⟨0, 1, true⟩] := by decide

end MemberOrder
