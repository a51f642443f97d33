import MemberOrder.Declared.Roster
import MemberOrder.Proofs.Candidate
import MemberOrder.Proofs.Comment

/-! # Declared names are names of candidates

A search for declarations goes from line to line, and behind a declaration that it
finds it goes on where the reading stopped. All that it finds are names of candidates
(`DeclaredKind.exists_candidate_of_mem_names`). It misses a candidate only where
the reading stopped behind the beginning of the candidate's line. That happens in two
ways: the line begins inside a list of parameters, or the line begins among the blanks behind
the parameters of a function, which the search takes with it. A candidate at the very
beginning of its line is found in the second case too, because the reading
stops right there (`Candidate.length_le_resume`). -/

namespace MemberOrder

open Text (AllBlank StartsSolid)

/-! ## The readers -/

namespace DeclaredKind

variable {k : DeclaredKind} {t rest : Text}

/-- Reading a parameter list leaves what stands behind it. -/
theorem afterParameters?_eq_some_iff :
    afterParameters? t = some rest ↔ ∃ list, IsParameterList list ∧ t = list ++ rest := by
  have hcut : ∀ u inside : Text, Text.cut? ")" u = some (inside, rest) ↔
      u = inside ++ ')' :: rest ∧ ')' ∉ inside := by
    intro u inside
    rw [Text.cut?_eq_some_iff (by decide), ← List.singleton_infix_iff, ← List.append_nil inside]
    simp
  simp only [afterParameters?, Option.map_eq_some_iff, Option.bind_eq_some_iff,
    Text.after?_eq_some_iff, Prod.exists, exists_eq_right, hcut]
  constructor
  · rintro ⟨inside, u, rfl, rfl, hinside⟩
    exact ⟨'(' :: (inside ++ [')']), ⟨inside, hinside, rfl⟩, by simp⟩
  · rintro ⟨list, ⟨inside, hinside, rfl⟩, rfl⟩
    exact ⟨inside, inside ++ ')' :: rest, by simp, rfl, hinside⟩

/-- Where a search goes on behind the tail of a declaration. -/
def resume : DeclaredKind → Text → Text
  | function, t => afterVisibility t
  | event, t => t
  | struct, t => t

/-- Reading a tail leaves the place where the search goes on. -/
theorem afterTail?_eq_some_iff :
    k.afterTail? t = some rest ↔
      ∃ tail after, k.IsTail tail ∧ t = tail ++ after ∧ rest = k.resume after := by
  cases k with
  | function =>
    simp only [afterTail?, Option.map_eq_some_iff, afterParameters?_eq_some_iff]
    constructor
    · rintro ⟨after, ⟨tail, htail, rfl⟩, rfl⟩
      exact ⟨tail, after, htail, rfl, rfl⟩
    · rintro ⟨tail, after, htail, rfl, rfl⟩
      exact ⟨after, ⟨tail, htail, rfl⟩, rfl⟩
  | event =>
    refine afterParameters?_eq_some_iff.trans ?_
    constructor
    · rintro ⟨tail, htail, rfl⟩
      exact ⟨tail, rest, htail, rfl, rfl⟩
    · rintro ⟨tail, _, htail, rfl, rfl⟩
      exact ⟨tail, htail, rfl⟩
  | struct =>
    refine Text.after?_eq_some_iff.trans ?_
    constructor
    · rintro rfl
      exact ⟨_, rest, rfl, rfl, rfl⟩
    · rintro ⟨_, _, rfl, rfl, rfl⟩
      rfl

/-- The reader finds what is a declaration behind blanks, and nothing else. -/
theorem head?_eq_some_iff {name : Text} :
    k.head? t = some (name, rest) ↔
      ∃ (lead : Text) (d : Declaration k), AllBlank lead ∧ t = lead ++ d.text ∧ name = d.name ∧
        rest = k.resume d.after := by
  constructor
  · intro h
    obtain ⟨lead, hlead, hsplit⟩ := Text.exists_allBlank_append_trimStart t
    unfold head? at h
    split at h
    · cases h
    · rename_i u hu
      simp only [Option.bind_eq_some_iff, Text.after?_eq_some_iff,
        Text.afterBlanks?_eq_some_iff] at hu
      obtain ⟨_, hkeyword, gap, hgap, hblank, -, rfl⟩ := hu
      dsimp only at h
      split at h
      · cases h
      · rename_i hname
        simp only [Option.map_eq_some_iff, Prod.mk.injEq] at h
        obtain ⟨_, hread, rfl, rfl⟩ := h
        obtain ⟨tail, after, htail, hbehind, rfl⟩ := afterTail?_eq_some_iff.mp hread
        obtain ⟨space, hspace, hsolid⟩ :=
          Text.exists_allBlank_append_trimStart (u.dropWhile isWordChar)
        rw [hbehind] at hsolid
        have hlongest : ∀ c ∈ (space ++ (tail ++ after)).head?, isWordChar c = false := by
          rw [← hsolid]
          exact Text.dropWhile_stops isWordChar u
        refine ⟨lead, ⟨gap, u.takeWhile isWordChar, space, tail, after, hgap, hblank, ?_,
          fun c hc => List.mem_takeWhile_imp hc, hlongest, hspace, htail⟩, hlead, ?_, rfl, rfl⟩
        · simpa using hname
        · rw [hsplit, hkeyword, Declaration.text, ← hsolid, List.takeWhile_append_dropWhile]
  · -- Each reader stops where the next part begins, because the parts begin with characters of
    -- different classes.
    rintro ⟨lead, d, hlead, rfl, rfl, rfl⟩
    have hkeyword : Text.after? k.keyword d.text =
        some (d.gap ++ (d.name ++ (d.space ++ (d.tail ++ d.after)))) :=
      Text.after?_eq_some_iff.mpr rfl
    have hgap : Text.afterBlanks? (d.gap ++ (d.name ++ (d.space ++ (d.tail ++ d.after)))) =
        some (d.name ++ (d.space ++ (d.tail ++ d.after))) :=
      Text.afterBlanks?_eq_some_iff.mpr ⟨d.gap, d.gap_ne, d.gap_blank, d.startsSolid_name _, rfl⟩
    have htail : k.afterTail? (d.tail ++ d.after) = some (k.resume d.after) :=
      afterTail?_eq_some_iff.mpr ⟨d.tail, d.after, d.tail_shape, rfl, rfl⟩
    rw [head?, hlead.trimStart_append d.startsSolid_text, hkeyword, Option.bind_some, hgap]
    simp only [Text.takeWhile_stretch d.name_word d.name_longest,
      Text.dropWhile_stretch d.name_word d.name_longest,
      d.space_blank.trimStart_append d.startsSolid_tail, htail, Option.map_some]
    rw [if_neg (by simpa using d.name_ne)]

/-! ## Where a search goes on -/

/-- A visibility is read if one comes next. -/
theorem afterVisibility_cases (t : Text) :
    afterVisibility t = t.trimStart ∨
      ∃ v ∈ visibilities, t.trimStart = v.1 ++ afterVisibility t := by
  cases hfound : visibilities.findSome? fun v => Text.after? v.1 t.trimStart with
  | none => exact .inl (congrArg (Option.getD · t.trimStart) hfound)
  | some rest =>
    have hrest : afterVisibility t = rest := congrArg (Option.getD · t.trimStart) hfound
    obtain ⟨v, hv, hread⟩ := List.exists_of_findSome?_eq_some hfound
    exact .inr ⟨v, hv, hrest ▸ Text.after?_eq_some_iff.mp hread⟩

/-- The keyword of a function is not taken for a visibility. -/
theorem afterVisibility_append_text {blanks : Text} (hblanks : AllBlank blanks)
    (d : Declaration function) : afterVisibility (blanks ++ d.text) = d.text := by
  rw [afterVisibility, hblanks.trimStart_append d.startsSolid_text]
  rfl

/-- The search never goes back. -/
theorem resume_length_le (k : DeclaredKind) (t : Text) : (k.resume t).length ≤ t.length := by
  cases k with
  | function =>
    have htrim : t.trimStart.length ≤ t.length := (List.dropWhile_sublist _).length_le
    rcases afterVisibility_cases t with hnone | ⟨v, -, hsome⟩
    · rw [resume, hnone]
      exact htrim
    · rw [hsome, List.length_append] at htrim
      rw [resume]
      omega
  | event => exact Nat.le_refl _
  | struct => exact Nat.le_refl _

/-- Behind the parameters of a function, the beginning of a later line is passed only if
nothing but blanks comes before it, and only as far as the blanks go. -/
theorem length_le_afterVisibility {v indent : Text} (d : Declaration function)
    (h : AllBlank v → indent = []) :
    (indent ++ d.text).length ≤ (afterVisibility (v ++ '\n' :: (indent ++ d.text))).length := by
  by_cases hv : AllBlank v
  · have hblanks : AllBlank (v ++ ['\n']) := AllBlank.append_line hv (by simp [AllBlank])
    have hsplit : v ++ '\n' :: (indent ++ d.text) = (v ++ ['\n']) ++ d.text := by simp [h hv]
    rw [hsplit, afterVisibility_append_text hblanks, h hv, List.nil_append]
  · have htrim : Text.trimStart (v ++ '\n' :: (indent ++ d.text)) =
        v.trimStart ++ '\n' :: (indent ++ d.text) := by
      refine List.dropWhile_append.trans (if_neg ?_)
      rw [List.isEmpty_iff, List.dropWhile_eq_nil_iff]
      exact hv
    rcases afterVisibility_cases (v ++ '\n' :: (indent ++ d.text)) with hnone | ⟨w, hw, hsome⟩
    · rw [hnone, htrim]
      exact (Text.suffix_line _ _).length_le
    · -- A visibility holds no line feed, so it ends before the line.
      obtain ⟨u, -, hrest⟩ := Text.exists_line_behind_word (not_lineFeed_of_visibility w hw)
        (hsome.symm.trans htrim)
      rw [hrest]
      exact (Text.suffix_line _ _).length_le

end DeclaredKind

namespace Candidate

variable {k : DeclaredKind} {code : Text}

/-- Nothing hides the first candidate from a search that has found the second. -/
def Clear (c d : Candidate k code) : Prop :=
  ¬ c.InsideList d ∧ (k = .function → c.indent ≠ [] → ¬ c.Trails d)

/-- Behind a candidate, a search goes on no later than where the line of the next one
begins. -/
theorem length_le_resume {c d : Candidate k code} {before : Text}
    (h : d.text = before ++ '\n' :: (c.indent ++ c.text)) (hclear : c.Clear d) :
    (c.indent ++ c.text).length ≤ (k.resume d.after).length := by
  obtain ⟨houtside, htrails⟩ := hclear
  obtain ⟨v, hafter⟩ := exists_after_split h houtside
  cases k with
  | function =>
    rw [DeclaredKind.resume, hafter]
    refine DeclaredKind.length_le_afterVisibility c.toDeclaration ?_
    intro hv
    by_contra hindent
    have hblanks := AllBlank.append_line hv c.indent_blank
    exact htrails rfl hindent ⟨v ++ '\n' :: c.indent, hblanks, by simp [hafter]⟩
  | event =>
    rw [DeclaredKind.resume, hafter]
    exact (Text.suffix_line _ _).length_le
  | struct =>
    rw [DeclaredKind.resume, hafter]
    exact (Text.suffix_line _ _).length_le

end Candidate

/-! ## Beginnings of lines -/

theorem Text.EndsLine.append {t u : Text} (ht : t.EndsLine) (hu : u.EndsLine) :
    Text.EndsLine (t ++ u) := by
  rcases hu with rfl | hu
  · rwa [List.append_nil]
  · have hne : u ≠ [] := by
      rintro rfl
      cases hu
    exact .inr ((List.getLast?_append_of_ne_nil t hne).trans hu)

/-- Whole lines come first in a text, then the last line. -/
theorem Text.exists_last_line (t : Text) :
    ∃ whole last, t = whole ++ last ∧ Text.EndsLine whole ∧ '\n' ∉ last := by
  induction t using List.reverseRecOn with
  | nil => exact ⟨[], [], rfl, .inl rfl, by simp⟩
  | append_singleton t c ih =>
    by_cases hc : c = '\n'
    · exact ⟨t ++ [c], [], by simp, .inr (by simp [hc]), by simp⟩
    · obtain ⟨whole, last, rfl, hwhole, hlast⟩ := ih
      refine ⟨whole, last ++ [c], List.append_assoc .., hwhole, ?_⟩
      simp [hlast, Ne.symm hc]

namespace Place

variable {n : Nat} {t : Text} {p : Place}

/-- Places behind line feeds. -/
theorem mem_afterLineFeeds_iff :
    p ∈ afterLineFeeds n t ↔
      ∃ before, t = before ++ '\n' :: p.text ∧ p.position = n + before.length + 1 := by
  induction t generalizing n with
  | nil => simp [afterLineFeeds]
  | cons c t ih =>
    -- Either the first character is the line feed, or it is one of those before it.
    have hstep : (∃ before, c :: t = before ++ '\n' :: p.text ∧
        p.position = n + before.length + 1) ↔
          (c = '\n' ∧ p = ⟨n + 1, t⟩) ∨ p ∈ afterLineFeeds (n + 1) t := by
      rw [ih]
      constructor
      · rintro ⟨before, hsplit, hposition⟩
        cases before with
        | nil =>
          cases hsplit
          exact .inl ⟨rfl, by cases p; simpa using hposition⟩
        | cons b before =>
          cases hsplit
          refine .inr ⟨before, rfl, ?_⟩
          rw [hposition, List.length_cons]
          omega
      · rintro (⟨rfl, rfl⟩ | ⟨before, rfl, hposition⟩)
        · exact ⟨[], rfl, rfl⟩
        · refine ⟨c :: before, rfl, ?_⟩
          rw [hposition, List.length_cons]
          omega
    rw [hstep, afterLineFeeds]
    split
    · simp [*]
    · simp [*]

/-- A place is the start of a line if a line ends before it. -/
theorem mem_lineStarts_iff :
    p ∈ lineStarts t ↔
      ∃ before : Text, before.EndsLine ∧ t = before ++ p.text ∧ p.position = before.length := by
  rw [lineStarts, List.mem_cons, mem_afterLineFeeds_iff]
  constructor
  · rintro (rfl | ⟨before, rfl, hposition⟩)
    · exact ⟨[], .inl rfl, rfl, rfl⟩
    · refine ⟨before ++ ['\n'], .inr (by simp), by simp, ?_⟩
      rw [hposition, List.length_append, Nat.zero_add]
      rfl
  · rintro ⟨before, rfl | hends, rfl, hposition⟩
    · exact .inl (by cases p; simpa using hposition)
    · obtain ⟨before, rfl⟩ := List.getLast?_eq_some_iff.mp hends
      refine .inr ⟨before, by simp, ?_⟩
      rw [hposition, List.length_append, Nat.zero_add]
      rfl

theorem pairwise_afterLineFeeds (n : Nat) (t : Text) :
    (afterLineFeeds n t).Pairwise fun p q => p.position < q.position := by
  induction t generalizing n with
  | nil => exact .nil
  | cons c t ih =>
    rw [afterLineFeeds]
    split
    · refine List.pairwise_cons.mpr ⟨?_, ih (n + 1)⟩
      intro q hq
      obtain ⟨before, -, hposition⟩ := mem_afterLineFeeds_iff.mp hq
      show n + 1 < q.position
      omega
    · exact ih (n + 1)

/-- The starts of lines are listed from left to right. -/
theorem pairwise_lineStarts (t : Text) :
    (lineStarts t).Pairwise fun p q => p.position < q.position := by
  refine List.pairwise_cons.mpr ⟨?_, pairwise_afterLineFeeds 0 t⟩
  intro q hq
  obtain ⟨before, -, hposition⟩ := mem_afterLineFeeds_iff.mp hq
  show 0 < q.position
  omega

end Place

/-! ## The search -/

namespace DeclaredKind

variable {k : DeclaredKind} {code name rest : Text}

/-- What is read at the beginning of a line is a candidate of that line, or of a later line
if only blank lines come before it. -/
theorem exists_candidate_of_head? {p : Place} (hp : p ∈ Place.lineStarts code)
    (h : k.head? p.text = some (name, rest)) :
    ∃ (lead : Text) (d : Candidate k code), AllBlank lead ∧ p.text = lead ++ d.text ∧
      name = d.name ∧ rest = k.resume d.after := by
  obtain ⟨before, hends, hcode, -⟩ := Place.mem_lineStarts_iff.mp hp
  obtain ⟨lead, d, hlead, htext, hname, hrest⟩ := head?_eq_some_iff.mp h
  -- Blank lines in front of the declaration belong to what comes before its line.
  obtain ⟨whole, last, rfl, hwhole, hlast⟩ := Text.exists_last_line lead
  refine ⟨whole ++ last, ⟨d, before ++ whole, last, ?_, hends.append hwhole, ?_, hlast⟩, hlead,
    htext, hname, hrest⟩
  · rw [hcode, htext, List.append_assoc, List.append_assoc]
  · intro c hc
    exact hlead c (List.mem_append_right whole hc)

/-- A name is found at one of the places. -/
theorem exists_place_of_mem_namesFrom {position : Nat} {ps : List Place}
    (h : name ∈ k.namesFrom position ps) :
    ∃ p ∈ ps, ∃ rest, k.head? p.text = some (name, rest) := by
  induction ps generalizing position with
  | nil => cases h
  | cons p ps ih =>
    have hlater : ∀ {position}, name ∈ k.namesFrom position ps →
        ∃ q ∈ p :: ps, ∃ rest, k.head? q.text = some (name, rest) := by
      intro position hmem
      obtain ⟨q, hq, hread⟩ := ih hmem
      exact ⟨q, List.mem_cons_of_mem p hq, hread⟩
    rw [namesFrom] at h
    split at h
    · exact hlater h
    · split at h
      · exact hlater h
      · rename_i found rest hread
        rcases List.mem_cons.mp h with rfl | h
        · exact ⟨p, List.mem_cons_self, rest, hread⟩
        · exact hlater h

/-- A name that is found is that of a candidate. -/
theorem exists_candidate_of_mem_names (h : name ∈ k.names code) :
    ∃ c : Candidate k code, c.name = name := by
  obtain ⟨p, hp, rest, hread⟩ := exists_place_of_mem_namesFrom h
  obtain ⟨-, d, -, -, hname, -⟩ := exists_candidate_of_head? hp hread
  exact ⟨d, hname.symm⟩

end DeclaredKind

namespace Candidate

variable {k : DeclaredKind} {code name rest : Text}

/-- Where the line of the candidate begins. -/
def place (c : Candidate k code) : Place := ⟨c.before.length, c.indent ++ c.text⟩

theorem place_mem_lineStarts (c : Candidate k code) : c.place ∈ Place.lineStarts code :=
  Place.mem_lineStarts_iff.mpr ⟨c.before, c.before_endsLine, c.code_eq, rfl⟩

theorem head?_place (c : Candidate k code) :
    k.head? c.place.text = some (c.name, k.resume c.after) :=
  DeclaredKind.head?_eq_some_iff.mpr ⟨c.indent, c.toDeclaration, c.indent_blank, rfl, rfl, rfl⟩

/-- One step of the search: what is read on an earlier line is the candidate itself, or the
search goes on no later than where the line of the candidate begins. -/
theorem name_eq_or_le_of_head? {c : Candidate k code} (hclear : ∀ d, c.Clear d) {p : Place}
    (hp : p ∈ Place.lineStarts code) (hearlier : p.position < c.place.position)
    (hread : k.head? p.text = some (name, rest)) :
    name = c.name ∨ p.position + (p.text.length - rest.length) ≤ c.place.position := by
  obtain ⟨before, -, hcode, hposition⟩ := Place.mem_lineStarts_iff.mp hp
  obtain ⟨lead, d, hlead, htext, rfl, rfl⟩ := DeclaredKind.exists_candidate_of_head? hp hread
  -- The line of the candidate begins behind a line feed that is read from the earlier line on.
  have hline : ∃ u, p.text = u ++ '\n' :: (c.indent ++ c.text) := by
    have hlonger : before.length < c.before.length := hposition ▸ hearlier
    rcases List.append_eq_append_iff.mp (hcode.symm.trans c.code_eq) with
      ⟨u, hbefore, hsplit⟩ | ⟨u, hbefore, -⟩
    · have hne : u ≠ [] := by
        rintro rfl
        rw [hbefore, List.append_nil] at hlonger
        omega
      have hends : u.getLast? = some '\n' := by
        rcases c.before_endsLine with hnil | hends
        · rw [hnil] at hlonger
          cases hlonger
        · rwa [hbefore, List.getLast?_append_of_ne_nil before hne] at hends
      obtain ⟨u, rfl⟩ := List.getLast?_eq_some_iff.mp hends
      exact ⟨u, by rw [hsplit, List.append_assoc]; rfl⟩
    · rw [hbefore, List.length_append] at hlonger
      omega
  obtain ⟨u, hline⟩ := hline
  rcases Text.exists_line_behind_blanks hlead c.indent_blank d.startsSolid_text c.startsSolid_text
    (htext.symm.trans hline) with hsame | ⟨v, -, hlater⟩
  · exact .inl (congrArg Declaration.name (Declaration.text_inj hsame))
  · right
    have hresume := length_le_resume hlater (hclear d)
    have hlength := congrArg List.length hcode
    have hlength' := congrArg List.length c.code_eq
    rw [List.length_append, ← hposition] at hlength
    rw [List.length_append] at hlength'
    show p.position + (p.text.length - (k.resume d.after).length) ≤ c.before.length
    change p.position < c.before.length at hearlier
    omega

/-- A candidate that nothing hides is found. -/
theorem name_mem_namesFrom {c : Candidate k code} (hclear : ∀ d, c.Clear d) {position : Nat}
    {ps : List Place} (hstarts : ∀ p ∈ ps, p ∈ Place.lineStarts code)
    (hordered : ps.Pairwise fun p q => p.position < q.position) (hc : c.place ∈ ps)
    (hposition : position ≤ c.place.position) : c.name ∈ k.namesFrom position ps := by
  induction ps generalizing position with
  | nil => cases hc
  | cons p ps ih =>
    obtain ⟨hlater, hordered⟩ := List.pairwise_cons.mp hordered
    have hstarts' : ∀ q ∈ ps, q ∈ Place.lineStarts code :=
      fun q hq => hstarts q (List.mem_cons_of_mem p hq)
    -- The invariant: the search has not gone past the line of the candidate.
    rw [DeclaredKind.namesFrom]
    rcases List.mem_cons.mp hc with hfirst | hc
    · -- The line of the candidate is next.
      rw [← hfirst, if_neg (Nat.not_lt.mpr hposition), c.head?_place]
      exact List.mem_cons_self
    · split
      · exact ih hstarts' hordered hc hposition
      · split
        · exact ih hstarts' hordered hc hposition
        · rename_i name rest hread
          have hp := hstarts p List.mem_cons_self
          rcases name_eq_or_le_of_head? hclear hp (hlater _ hc) hread with rfl | hle
          · exact List.mem_cons_self
          · exact List.mem_cons_of_mem _ (ih hstarts' hordered hc hle)

/-- A candidate that no other one hides is found. -/
theorem name_mem_names {c : Candidate k code} (hclear : ∀ d, c.Clear d) : c.name ∈ k.names code :=
  name_mem_namesFrom hclear (fun _ hp => hp) (Place.pairwise_lineStarts code) c.place_mem_lineStarts
    (Nat.zero_le _)

-- Blanks behind a list of parameters hide an indented function, but not one at the beginning of
-- its line.
example : DeclaredKind.function.names "function f()\n function g()" = ["f"] := by decide +kernel

example : DeclaredKind.function.names "function f()\nfunction g()" = ["f", "g"] := by
  decide +kernel

example : DeclaredKind.event.names "event E(\nevent F()" = ["E"] := by decide +kernel

/-- A check of the code that leaves no candidate hidden: no keyword stands behind a
declaration at or before the place where the search goes on. -/
theorem clear_of_keywords (h : ∀ j < code.length, k.keyword <+: code.drop j → ∀ i < j,
    k.keyword <+: code.drop i → ∀ found ∈ k.head? (code.drop i), code.length < j + found.2.length)
    (c d : Candidate k code) : c.Clear d := by
  have hkeyword : ∀ e : Candidate k code, k.keyword <+: code.drop e.position := by
    intro e
    rw [e.drop_position]
    exact List.prefix_append _ _
  have hpast : d.opening ≤ c.position →
      code.length < c.position + (k.resume d.after).length := by
    intro hlater
    have hread : k.head? (code.drop d.position) = some (d.name, k.resume d.after) := by
      rw [d.drop_position]
      exact DeclaredKind.head?_eq_some_iff.mpr
        ⟨[], d.toDeclaration, by simp [AllBlank], rfl, rfl, rfl⟩
    have hlater : d.position < c.position := Nat.lt_of_lt_of_le d.position_lt_opening hlater
    have hinside : c.position < code.length := by
      have hopening := c.position_lt_opening
      have hstop := c.stop_add_length
      rw [stop] at hstop
      omega
    exact h c.position hinside (hkeyword c) d.position hlater (hkeyword d) _ hread
  have hstop := d.stop_add_length
  constructor
  · rintro ⟨hopening, hinside⟩
    have hbehind := hpast hopening
    have hresume := k.resume_length_le d.after
    omega
  · rintro rfl - ⟨blanks, hblanks, hafter⟩
    have hresume : DeclaredKind.function.resume d.after = c.text := by
      rw [hafter]
      exact DeclaredKind.afterVisibility_append_text hblanks c.toDeclaration
    have hposition := c.position_add_length
    have hlength := congrArg List.length hafter
    rw [List.length_append] at hlength
    have hopening : d.opening ≤ d.stop := Nat.le_add_right _ _
    have hbehind := hpast (by omega)
    rw [hresume] at hbehind
    omega

end Candidate

/-! ## Rosters -/

/-- The names of one kind. -/
def Roster.ofKind (r : Roster) : DeclaredKind → List Text
  | .function => r.functions.toList
  | .event => r.events.toList
  | .struct => r.structs.toList

/-- A roster lists the names that are found and not denied. -/
theorem Roster.mem_ofKind_ofSource {denied : Roster} {source name : Text} {k : DeclaredKind} :
    name ∈ (Roster.ofSource denied source).ofKind k ↔
      name ∈ k.names source.withoutComments ∧ name ∉ denied.ofKind k := by
  cases k <;> simp [Roster.ofKind, Roster.ofSource, Roster.ofLists, Roster.diff]

/-- The name is the name of a candidate of the kind. -/
def Declares (k : DeclaredKind) (code name : Text) : Prop := ∃ c : Candidate k code, c.name = name

theorem Roster.mem_ofKind_iff_declares {denied : Roster} {source : Text} {k : DeclaredKind}
    (hclear : ∀ c d : Candidate k source.withoutComments, c.Clear d) (name : Text) :
    name ∈ (Roster.ofSource denied source).ofKind k ↔
      Declares k source.withoutComments name ∧ name ∉ denied.ofKind k := by
  rw [Roster.mem_ofKind_ofSource]
  refine and_congr_left fun _ => ⟨DeclaredKind.exists_candidate_of_mem_names, ?_⟩
  rintro ⟨c, rfl⟩
  exact Candidate.name_mem_names (hclear c)

/-- **A roster lists the candidates of the code.** Every name in it is the name of a candidate of
its kind and is not denied. The names of structs are all such names. So are those of events if no
candidate stands in the list of parameters of another one, and those of functions if in addition no
indented candidate follows the parameters of another one after blanks only. -/
theorem roster_lists_candidates (denied : Roster) (source : Text) :
    let code := source.withoutComments
    let found := Roster.ofSource denied source
    (∀ k, ∀ name ∈ found.ofKind k, Declares k code name ∧ name ∉ denied.ofKind k) ∧
      (∀ name, name ∈ found.ofKind .struct ↔
        Declares .struct code name ∧ name ∉ denied.ofKind .struct) ∧
      ((∀ c d : Candidate .event code, ¬ c.InsideList d) →
        ∀ name, name ∈ found.ofKind .event ↔
          Declares .event code name ∧ name ∉ denied.ofKind .event) ∧
      ((∀ c d : Candidate .function code, ¬ c.InsideList d ∧ (c.indent ≠ [] → ¬ c.Trails d)) →
        ∀ name, name ∈ found.ofKind .function ↔
          Declares .function code name ∧ name ∉ denied.ofKind .function) := by
  intro code found
  refine ⟨?_, ?_, ?_, ?_⟩
  · intro k name hmem
    obtain ⟨hname, hdenied⟩ := Roster.mem_ofKind_ofSource.mp hmem
    exact ⟨DeclaredKind.exists_candidate_of_mem_names hname, hdenied⟩
  · exact Roster.mem_ofKind_iff_declares fun c d => ⟨c.not_insideList_struct d, by simp⟩
  · intro houtside
    exact Roster.mem_ofKind_iff_declares fun c d => ⟨houtside c d, by simp⟩
  · intro hclear
    exact Roster.mem_ofKind_iff_declares fun c d => ⟨(hclear c d).1, fun _ => (hclear c d).2⟩

/-- A function in a comment, lists of parameters over two lines, an indented function behind
another one, and a brace on a line of its own. -/
theorem roster_lists_candidates_in_body :
    let source := Text.unlines ["// function no()", "  function f(", "  uint a) public;",
      "  function g()", "  event E(", "  uint a);", "  struct S", "  \x7b"]
    let code := source.withoutComments
    (∀ c d : Candidate .event code, ¬ c.InsideList d) ∧
      (∀ c d : Candidate .function code, ¬ c.InsideList d ∧ (c.indent ≠ [] → ¬ c.Trails d)) ∧
      (∀ name, Declares .function code name ↔ name = "f" ∨ name = "g") ∧
      (∀ name, Declares .event code name ↔ name = "E") ∧
      ∀ name, Declares .struct code name ↔ name = "S" := by
  intro source code
  have hcode : code = source.drop 16 := by
    have hlines : source.withoutLineComments = source.drop 16 := by decide +kernel
    show Text.withoutBlockComments source.withoutLineComments = _
    rw [hlines]
    exact Text.withoutBlockComments_eq (Text.not_hasBlockComment_of_no_mark (by decide +kernel))
  have hevents : ∀ c d : Candidate .event code, c.Clear d :=
    Candidate.clear_of_keywords (by rw [hcode]; decide +kernel)
  have hfunctions : ∀ c d : Candidate .function code, c.Clear d :=
    Candidate.clear_of_keywords (by rw [hcode]; decide +kernel)
  have hfound : Roster.ofSource .empty source = Roster.ofLists ["f", "g"] ["E"] ["S"] := by
    show (Roster.ofLists (DeclaredKind.function.names code) (DeclaredKind.event.names code)
      (DeclaredKind.struct.names code)).diff .empty = _
    rw [hcode]
    decide +kernel
  have houtside := fun c d => (hevents c d).1
  have hclear := fun c d => And.intro (hfunctions c d).1 ((hfunctions c d).2 rfl)
  obtain ⟨-, hstruct, hevent, hfunction⟩ := roster_lists_candidates .empty source
  rw [hfound] at hstruct hevent hfunction
  simp only [Roster.ofKind, Roster.ofLists, Roster.empty, NameSet.empty, NameSet.mem_ofList,
    List.mem_cons, List.not_mem_nil, or_false, not_false_eq_true, and_true]
    at hstruct hevent hfunction
  exact ⟨houtside, hclear, fun name => (hfunction hclear name).symm,
    fun name => (hevent houtside name).symm, fun name => (hstruct name).symm⟩

end MemberOrder
