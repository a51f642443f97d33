import MemberOrder.Declared.Kind
import MemberOrder.Proofs.Reading

/-! # Candidates for declarations

A candidate is a place of a code where a declaration is written: only blanks
stand before it on its line, and its parts follow each other as the kind of
declaration asks for. Whether a search finds it plays no role here.

The parts of a declaration are clear from its text (`Declaration.text_inj`). Where
two candidates stand on different lines, the later one begins behind the name of the
earlier one: in its tail or behind it (`Declaration.exists_tail_split`). A
candidate that is not in the list of parameters of another one therefore begins
behind it (`Candidate.exists_after_split`). -/

namespace MemberOrder

open Text (AllBlank StartsSolid)

/-! ## Tails -/

/-- A list in parentheses. It holds no closing parenthesis. -/
def IsParameterList (t : Text) : Prop := ∃ inside, ')' ∉ inside ∧ t = '(' :: (inside ++ [')'])

namespace DeclaredKind

/-- What has to stand behind a declared name and blanks. -/
def IsTail : DeclaredKind → Text → Prop
  | function, t => IsParameterList t
  | event, t => IsParameterList t
  | struct, t => t = ['{']

variable {k : DeclaredKind}

theorem keyword_ne_nil (k : DeclaredKind) : k.keyword ≠ [] := by cases k <;> decide

theorem isWordChar_of_mem_keyword : ∀ c ∈ k.keyword, isWordChar c = true := by
  have hall : k.keyword.all isWordChar = true := by cases k <;> decide +kernel
  exact List.all_eq_true.mp hall

theorem IsTail.eq_list_or_brace {tail : Text} (h : k.IsTail tail) :
    IsParameterList tail ∨ tail = ['{'] := by
  cases k with
  | function => exact .inl h
  | event => exact .inl h
  | struct => exact .inr h

/-- A tail begins with a character that is neither blank nor part of a word. -/
theorem IsTail.exists_cons {tail : Text} (h : k.IsTail tail) :
    ∃ c t, tail = c :: t ∧ isBlank c = false ∧ isWordChar c = false := by
  rcases h.eq_list_or_brace with ⟨inside, -, rfl⟩ | rfl
  · exact ⟨_, _, rfl, by decide, by decide +kernel⟩
  · exact ⟨_, _, rfl, by decide, by decide +kernel⟩

/-- A tail ends with a character that is not blank. -/
theorem IsTail.exists_concat {tail : Text} (h : k.IsTail tail) :
    ∃ t c, tail = t ++ [c] ∧ isBlank c = false := by
  rcases h.eq_list_or_brace with ⟨inside, -, rfl⟩ | rfl
  · exact ⟨'(' :: inside, ')', rfl, by decide⟩
  · exact ⟨[], '{', rfl, by decide⟩

/-- A tail does not end with blanks. -/
theorem IsTail.not_allBlank_of_suffix {tail t : Text} (h : k.IsTail tail) (ht : t <:+ tail)
    (hne : t ≠ []) : ¬ AllBlank t := by
  intro hblank
  obtain ⟨u, c, rfl, hc⟩ := h.exists_concat
  obtain ⟨v, hv⟩ := ht
  have hlast : c ∈ t := by
    have hends := congrArg List.getLast? hv
    rw [List.getLast?_append_of_ne_nil v hne, List.getLast?_concat] at hends
    exact List.mem_of_getLast? hends
  rw [hblank c hlast] at hc
  cases hc

end DeclaredKind

/-- Where a list of parameters ends is clear from the text. -/
theorem IsParameterList.append_inj {s s' t t' : Text} (h : IsParameterList s)
    (h' : IsParameterList s') (heq : s ++ t = s' ++ t') : s = s' ∧ t = t' := by
  obtain ⟨inside, hinside, rfl⟩ := h
  obtain ⟨inside', hinside', rfl⟩ := h'
  simp only [List.cons_append, List.append_assoc, List.nil_append, List.cons.injEq, true_and] at heq
  rcases List.append_eq_append_iff.mp heq with ⟨u, rfl, hu⟩ | ⟨u, rfl, hu⟩
  · cases u with
    | nil => simpa using hu
    | cons c u => simp_all
  · cases u with
    | nil => simpa [eq_comm] using hu
    | cons c u => simp_all

/-- Where a tail ends can be seen from the text. -/
theorem DeclaredKind.IsTail.append_inj {k : DeclaredKind} {s s' t t' : Text} (h : k.IsTail s)
    (h' : k.IsTail s') (heq : s ++ t = s' ++ t') : s = s' ∧ t = t' := by
  cases k with
  | function => exact IsParameterList.append_inj h h' heq
  | event => exact IsParameterList.append_inj h h' heq
  | struct =>
    cases h
    cases h'
    exact ⟨rfl, List.append_cancel_left heq⟩

/-! ## Declarations -/

/-- A declaration as it is written behind its keyword: blanks, the name, blanks if there are
any, and the tail; then all that follows it. The name reaches as far as it can. -/
@[ext] structure Declaration (k : DeclaredKind) where
  gap : Text
  name : Text
  space : Text
  tail : Text
  after : Text
  gap_ne : gap ≠ []
  gap_blank : AllBlank gap
  name_ne : name ≠ []
  name_word : ∀ c ∈ name, isWordChar c = true
  name_longest : ∀ c ∈ (space ++ (tail ++ after)).head?, isWordChar c = false
  space_blank : AllBlank space
  tail_shape : k.IsTail tail

namespace Declaration

variable {k : DeclaredKind}

def text (d : Declaration k) : Text :=
  k.keyword ++ (d.gap ++ (d.name ++ (d.space ++ (d.tail ++ d.after))))

/-- A word does not begin with a blank. -/
theorem startsSolid_word {word : Text} (hne : word ≠ []) (hword : ∀ c ∈ word, isWordChar c = true)
    (t : Text) : StartsSolid (word ++ t) := by
  obtain ⟨c, word, rfl⟩ := List.exists_cons_of_ne_nil hne
  rintro _ ⟨rfl⟩
  exact isBlank_of_isWordChar (hword c List.mem_cons_self)

theorem startsSolid_text (d : Declaration k) : StartsSolid d.text :=
  startsSolid_word k.keyword_ne_nil DeclaredKind.isWordChar_of_mem_keyword _

theorem startsSolid_name (d : Declaration k) (t : Text) : StartsSolid (d.name ++ t) :=
  startsSolid_word d.name_ne d.name_word t

theorem startsSolid_tail (d : Declaration k) : StartsSolid (d.tail ++ d.after) := by
  obtain ⟨c, t, htail, hblank, -⟩ := d.tail_shape.exists_cons
  rw [htail]
  rintro _ ⟨rfl⟩
  exact hblank

/-- No word begins where the tail begins. -/
theorem tail_ne_word (d : Declaration k) {word : Text} (hne : word ≠ [])
    (hword : ∀ c ∈ word, isWordChar c = true) (t : Text) : d.tail ++ d.after ≠ word ++ t := by
  obtain ⟨c, u, htail, -, hc⟩ := d.tail_shape.exists_cons
  obtain ⟨x, word, rfl⟩ := List.exists_cons_of_ne_nil hne
  rw [htail]
  intro heq
  simp only [List.cons_append, List.cons.injEq] at heq
  rw [heq.1, hword x List.mem_cons_self] at hc
  cases hc

/-- A tail is not the beginning of another declaration. -/
theorem tail_ne_text (d e : Declaration k) : d.tail ++ d.after ≠ e.text :=
  d.tail_ne_word k.keyword_ne_nil DeclaredKind.isWordChar_of_mem_keyword _

/-- The keyword ends where the gap begins. -/
theorem gap_longest (d : Declaration k) (t : Text) :
    ∀ c ∈ (d.gap ++ t).head?, isWordChar c = false := by
  intro c hc
  obtain ⟨b, hb, hblank⟩ := AllBlank.exists_head? d.gap_blank d.gap_ne t
  rw [Option.mem_unique hc hb]
  exact isWordChar_of_isBlank hblank

/-- No declaration begins where the name of another one begins. -/
theorem name_ne_text (d e : Declaration k) :
    d.name ++ (d.space ++ (d.tail ++ d.after)) ≠ e.text := by
  intro heq
  -- The name would be the keyword, and the tail would stand where the other name has to stand.
  obtain ⟨-, hrest⟩ := Text.stretch_inj d.name_word DeclaredKind.isWordChar_of_mem_keyword
    d.name_longest (e.gap_longest _) heq
  obtain ⟨-, htail⟩ := AllBlank.append_inj d.space_blank e.gap_blank d.startsSolid_tail
    (e.startsSolid_name _) hrest
  exact d.tail_ne_word e.name_ne e.name_word _ htail

/-- A text is a declaration in one way at most. -/
theorem text_inj {d e : Declaration k} (h : d.text = e.text) : d = e := by
  have hkeyword := List.append_cancel_left h
  obtain ⟨hgap, hname⟩ := AllBlank.append_inj d.gap_blank e.gap_blank (d.startsSolid_name _)
    (e.startsSolid_name _) hkeyword
  obtain ⟨hname, hspace⟩ := Text.stretch_inj d.name_word e.name_word d.name_longest
    e.name_longest hname
  obtain ⟨hspace, htail⟩ := AllBlank.append_inj d.space_blank e.space_blank d.startsSolid_tail
    e.startsSolid_tail hspace
  obtain ⟨htail, hafter⟩ := d.tail_shape.append_inj e.tail_shape htail
  exact Declaration.ext hgap hname hspace htail hafter

end Declaration

/-! ## Later lines -/

namespace Text

variable {before word blanks indent t u : Text}

theorem suffix_line (t u : Text) : u <:+ t ++ '\n' :: u :=
  (List.suffix_cons '\n' u).trans (List.suffix_append t _)

/-- Blanks may go on over the end of a line. -/
theorem AllBlank.append_line (hblanks : AllBlank blanks) (hindent : AllBlank indent) :
    AllBlank (blanks ++ '\n' :: indent) :=
  List.forall_mem_append.mpr ⟨hblanks, List.forall_mem_cons.mpr ⟨by decide, hindent⟩⟩

/-- A line feed behind a word without line feeds. -/
theorem exists_line_behind_word (hword : '\n' ∉ word) (heq : word ++ t = before ++ '\n' :: u) :
    ∃ v, before = word ++ v ∧ t = v ++ '\n' :: u := by
  rcases List.append_eq_append_iff.mp heq with ⟨v, hbefore, ht⟩ | ⟨v, hsplit, hu⟩
  · exact ⟨v, hbefore, ht⟩
  · cases v with
    | nil => exact ⟨[], by simpa using hsplit.symm, hu.symm⟩
    | cons c v =>
      cases hu
      exact absurd (by simp [hsplit]) hword

/-- A line that begins in or behind blanks: unless it holds the text behind the blanks,
it begins inside that text. -/
theorem exists_line_behind_blanks (hblanks : AllBlank blanks) (hindent : AllBlank indent)
    (ht : StartsSolid t) (hu : StartsSolid u)
    (heq : blanks ++ t = before ++ '\n' :: (indent ++ u)) :
    t = u ∨ ∃ v, before = blanks ++ v ∧ t = v ++ '\n' :: (indent ++ u) := by
  rcases List.append_eq_append_iff.mp heq with ⟨v, hbefore, hsplit⟩ | ⟨v, hsplit, hrest⟩
  · exact .inr ⟨v, hbefore, hsplit⟩
  · cases v with
    | nil => exact .inr ⟨[], by simpa using hsplit.symm, hrest.symm⟩
    | cons c v =>
      simp only [List.cons_append, List.cons.injEq] at hrest
      have hv : AllBlank v := by
        intro x hx
        exact hblanks x (by simp [hsplit, hx])
      exact .inl (AllBlank.append_inj hv hindent ht hu hrest.2.symm).2

end Text

theorem not_lineFeed_of_isWordChar {word : Text} (h : ∀ c ∈ word, isWordChar c = true) :
    '\n' ∉ word := by
  intro hmem
  have hblank := isBlank_of_isWordChar (h _ hmem)
  revert hblank
  decide

/-- A declaration on a later line begins behind the blanks that follow the name. -/
theorem Declaration.exists_tail_split {k : DeclaredKind} {d e : Declaration k}
    {before indent : Text} (hindent : AllBlank indent)
    (h : d.text = before ++ '\n' :: (indent ++ e.text)) :
    ∃ v, before = k.keyword ++ (d.gap ++ (d.name ++ (d.space ++ v))) ∧
      d.tail ++ d.after = v ++ '\n' :: (indent ++ e.text) := by
  obtain ⟨v, rfl, hgap⟩ := Text.exists_line_behind_word
    (not_lineFeed_of_isWordChar DeclaredKind.isWordChar_of_mem_keyword) h
  rcases Text.exists_line_behind_blanks d.gap_blank hindent (d.startsSolid_name _)
    e.startsSolid_text hgap with hname | ⟨v, rfl, hname⟩
  · -- a line that begins in front of the name
    exact absurd hname (d.name_ne_text e)
  obtain ⟨v, rfl, hspace⟩ := Text.exists_line_behind_word
    (not_lineFeed_of_isWordChar d.name_word) hname
  rcases Text.exists_line_behind_blanks d.space_blank hindent d.startsSolid_tail
    e.startsSolid_text hspace with htail | ⟨v, rfl, htail⟩
  · -- a line that begins in front of the tail
    exact absurd htail (d.tail_ne_text e)
  exact ⟨v, rfl, htail⟩

/-! ## Candidates -/

/-- A line begins behind the text. -/
def Text.EndsLine (t : Text) : Prop := t = [] ∨ t.getLast? = some '\n'

/-- A place of a code where a declaration is written with nothing but blanks before it on
its line. -/
structure Candidate (k : DeclaredKind) (code : Text) extends Declaration k where
  before : Text
  indent : Text
  code_eq : code = before ++ (indent ++ toDeclaration.text)
  before_endsLine : before.EndsLine
  indent_blank : AllBlank indent
  indent_line : '\n' ∉ indent

namespace Candidate

variable {k : DeclaredKind} {code : Text}

/-- Where the keyword begins. -/
def position (c : Candidate k code) : Nat := (c.before ++ c.indent).length

/-- Where the tail begins. -/
def opening (c : Candidate k code) : Nat :=
  c.position + (k.keyword ++ (c.gap ++ (c.name ++ c.space))).length

/-- Where the tail ends. -/
def stop (c : Candidate k code) : Nat := c.opening + c.tail.length

/-- The first candidate begins in the list of parameters of the second. -/
def InsideList (c d : Candidate k code) : Prop := d.opening ≤ c.position ∧ c.position < d.stop

/-- Only blanks stand between the tail of the second candidate and the first one. -/
def Trails (c d : Candidate k code) : Prop :=
  ∃ blanks, AllBlank blanks ∧ d.after = blanks ++ c.text

/-- The text of a candidate begins at its position. -/
theorem drop_position (c : Candidate k code) : code.drop c.position = c.text := by
  have hcode : code = (c.before ++ c.indent) ++ c.text :=
    c.code_eq.trans (List.append_assoc ..).symm
  exact (congrArg (List.drop c.position) hcode).trans List.drop_left

/-- The tail of a candidate begins at its opening. -/
theorem drop_opening (c : Candidate k code) : code.drop c.opening = c.tail ++ c.after := by
  have htext : c.text = (k.keyword ++ (c.gap ++ (c.name ++ c.space))) ++ (c.tail ++ c.after) := by
    simp [Declaration.text]
  rw [opening, ← List.drop_drop, drop_position, htext]
  exact List.drop_left

/-- The position counts what stands before a candidate. -/
theorem position_add_length (c : Candidate k code) : c.position + c.text.length = code.length := by
  have hlength := congrArg List.length c.code_eq
  simp only [position, List.length_append] at hlength ⊢
  omega

theorem stop_add_length (c : Candidate k code) : c.stop + c.after.length = code.length := by
  have hposition := c.position_add_length
  simp only [stop, opening, Declaration.text, List.length_append] at hposition ⊢
  omega

theorem position_lt_opening (c : Candidate k code) : c.position < c.opening := by
  have hkeyword := List.length_pos_iff.mpr k.keyword_ne_nil
  simp only [opening, List.length_append]
  omega

/-- A candidate on a later line that is not in the list of another begins behind it. -/
theorem exists_after_split {c d : Candidate k code} {before : Text}
    (h : d.text = before ++ '\n' :: (c.indent ++ c.text)) (houtside : ¬ c.InsideList d) :
    ∃ v, d.after = v ++ '\n' :: (c.indent ++ c.text) := by
  obtain ⟨v, hbefore, hsplit⟩ := Declaration.exists_tail_split c.indent_blank h
  rcases List.append_eq_append_iff.mp hsplit with ⟨w, -, hafter⟩ | ⟨w, htail, hrest⟩
  · exact ⟨w, hafter⟩
  · -- The line begins in the tail or right behind it.
    cases w with
    | nil => exact ⟨[], hrest.symm⟩
    | cons x w =>
      simp only [List.cons_append, List.cons.injEq] at hrest
      obtain ⟨rfl, hrest⟩ := hrest
      refine absurd ?_ houtside
      -- The tail ends with a character that is not blank, so the tail ends behind the indentation.
      have hdeep : c.indent.length < w.length := by
        rw [← Nat.not_le]
        intro hshort
        have hw : w <+: c.indent :=
          List.prefix_of_prefix_length_le ⟨_, hrest.symm⟩ ⟨_, rfl⟩ hshort
        refine d.tail_shape.not_allBlank_of_suffix ⟨v, htail.symm⟩ (List.cons_ne_nil _ _) ?_
        exact List.forall_mem_cons.mpr ⟨by decide, fun y hy => c.indent_blank y (hw.subset hy)⟩
      have hstop := d.stop_add_length
      have hposition := c.position_add_length
      have hposition' := d.position_add_length
      have htext := congrArg List.length h
      have hrest := congrArg List.length hrest
      have hbefore := congrArg List.length hbefore
      simp only [List.length_append, List.length_cons] at htext hrest hbefore
      refine ⟨?_, ?_⟩
      · simp only [opening, List.length_append]
        omega
      · omega

/-- The brace behind the name of a struct leaves no place for another one. -/
theorem not_insideList_struct (c d : Candidate .struct code) : ¬ c.InsideList d := by
  rintro ⟨hopening, hstop⟩
  have htail : d.tail = ['{'] := d.tail_shape
  have hposition : d.opening = c.position := by
    rw [stop, htail] at hstop
    simp only [List.length_cons, List.length_nil] at hstop
    omega
  refine d.tail_ne_text c.toDeclaration ?_
  rw [← d.drop_opening, hposition, c.drop_position]

end Candidate
end MemberOrder
