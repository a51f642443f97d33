import MemberOrder.Proofs.Reordering

/-! # Exchanging members

In a body, lines that leave no construct open are read in the same way
wherever they stand. So members of different sections may change places
without a trace in the reordered text, and so may any number of members, as
long as those of one section keep their order. -/

namespace MemberOrder

/-- Lines with which a body begins: by themselves they declare something,
leave no construct without an end and, in lexical counting, do not end inside
a comment. -/
structure IsOpening (counting : BraceCounting) (ts : List Text) : Prop where
  ne_nil : ts ≠ []
  isLine : ∀ t ∈ ts, '\n' ∉ t
  declares : ∃ r ∈ Run.ofSource counting (Text.unlines ts), r.isDeclaration = true
  complete : ∀ r ∈ Run.ofSource counting (Text.unlines ts), r.complete = true
  outside : counting = .lexical → Shape.commentAfter .lexical false ts = false

/-- Lines that, behind a line `contract`, all go to one section, leave no
construct without an end and, in lexical counting, do not end inside a
comment. -/
structure IsMember (counting : BraceCounting) (c : Section) (m : List Text) : Prop where
  ne_nil : m ≠ []
  isLine : ∀ t ∈ m, '\n' ∉ t
  complete : ∀ r ∈ Run.ofSource counting (Text.unlines ("contract" :: m)), r.complete = true
  section_eq : ∀ i, 1 ≤ i → i ≤ m.length →
    (Classification.ofSource counting (Text.unlines ("contract" :: m))).grouping.sectionOf? i =
      some c
  outside : counting = .lexical → Shape.commentAfter .lexical false m = false

/-! ## Runs inside a body -/

namespace Run

/-- The bare runs of lines that stand inside a body, outside a comment. -/
def inBody (counting : BraceCounting) (ts : List Text) : List Run :=
  allFrom true (ShapedLine.ofTexts counting false ts)

/-- The runs of a body have the texts of its lines. -/
theorem flatMap_texts_inBody (counting : BraceCounting) (ts : List Text) :
    (inBody counting ts).flatMap texts = ts := by
  rw [inBody, flatMap_texts_allFrom, ShapedLine.map_text_ofTexts]

/-- Behind lines that leave nothing open the body goes on as if from the
start. -/
theorem inBody_append {counting : BraceCounting} {ts : List Text}
    (hcomplete : ∀ r ∈ inBody counting ts, r.complete = true)
    (houtside : Shape.commentAfter counting false ts = false) (us : List Text) :
    inBody counting (ts ++ us) = inBody counting ts ++ inBody counting us := by
  have hread := allFrom_append hcomplete (ShapedLine.ofTexts counting false us)
  rw [inBody, ShapedLine.ofTexts_append, houtside, hread, Bool.true_or]
  rfl

/-- A line `contract` is a declaration by itself. -/
theorem allFrom_contract (counting : BraceCounting) (ts : List Text) :
    ∃ r, r.isDeclaration = true ∧ r.lines.length = 1 ∧
      allFrom false (ShapedLine.ofTexts counting false ("contract" :: ts)) =
        r :: inBody counting ts := by
  have hscan : (Shape.scan counting false "contract").2 = false := by
    cases counting <;> decide +kernel
  have hconstruct : Construct.first? false (Line.stripped ⟨0, 0, "contract"⟩) =
      some .declaration := by decide +kernel
  have hreach : ∀ p ls, (extentOf (some .declaration)).reach p ls = ⟨[], ls, true⟩ :=
    Extent.reach_line
  rw [ShapedLine.ofTexts_cons, hscan, allFrom_cons hconstruct (hreach _ _)]
  exact ⟨_, rfl, rfl, rfl⟩

end Run

namespace IsOpening

variable {counting : BraceCounting} {ts : List Text}

/-- The runs of a source that consists of an opening. -/
theorem map_bare_ofSource (h : IsOpening counting ts) :
    (Run.ofSource counting (Text.unlines ts)).map Run.bare =
      Run.allFrom false (ShapedLine.ofTexts counting false ts) := by
  rw [Run.map_bare_ofSource, Text.lines_unlines h.ne_nil h.isLine]

/-- What follows the opening is read inside the body. -/
theorem allFrom_append (h : IsOpening counting ts) (us : List Text) :
    Run.allFrom false (ShapedLine.ofTexts counting false (ts ++ us)) =
      Run.allFrom false (ShapedLine.ofTexts counting false ts) ++ Run.inBody counting us := by
  have hcomplete : ∀ r ∈ Run.allFrom false (ShapedLine.ofTexts counting false ts),
      r.complete = true := by
    rw [← h.map_bare_ofSource]
    intro r hr
    obtain ⟨q, hq, rfl⟩ := List.mem_map.mp hr
    exact h.complete q hq
  -- The opening declares something, so the flag is set behind it.
  have hdeclares : (Run.allFrom false (ShapedLine.ofTexts counting false ts)).any
      Run.isDeclaration = true := by
    rw [← h.map_bare_ofSource, List.any_eq_true]
    obtain ⟨q, hq, hdecl⟩ := h.declares
    exact ⟨q.bare, List.mem_map_of_mem hq, hdecl⟩
  rw [ShapedLine.ofTexts_append, Shape.commentAfter_of_lexical h.outside,
    Run.allFrom_append hcomplete, hdeclares, Bool.or_true]
  rfl

end IsOpening

namespace IsMember

variable {counting : BraceCounting} {c : Section} {m : List Text}

/-- The runs of a member behind a line `contract`. -/
theorem exists_runs (h : IsMember counting c m) :
    ∃ q rest, Run.ofSource counting (Text.unlines ("contract" :: m)) = q :: rest ∧
      q.lines.length = 1 ∧ rest.map Run.bare = Run.inBody counting m := by
  have hlines : (Text.unlines ("contract" :: m)).lines = ("contract" : Text) :: m := by
    apply Text.lines_unlines (List.cons_ne_nil _ _)
    intro t ht
    rcases List.mem_cons.mp ht with rfl | ht
    · decide
    · exact h.isLine t ht
  have hruns := Run.map_bare_ofSource counting (Text.unlines ("contract" :: m))
  obtain ⟨r, -, hlen, hcontract⟩ := Run.allFrom_contract counting m
  rw [hlines, hcontract] at hruns
  obtain ⟨q, rest, hsplit, hq, hrest⟩ := List.map_eq_cons_iff.mp hruns
  refine ⟨q, rest, hsplit, ?_, hrest⟩
  rw [← hlen, ← hq]
  simp [Run.lines, Run.bare]

/-- No run of a member is left open. -/
theorem complete_inBody (h : IsMember counting c m) :
    ∀ r ∈ Run.inBody counting m, r.complete = true := by
  obtain ⟨q, rest, hruns, -, hrest⟩ := h.exists_runs
  rw [← hrest]
  intro r hr
  obtain ⟨p, hp, rfl⟩ := List.mem_map.mp hr
  apply h.complete p
  rw [hruns]
  exact List.mem_cons_of_mem _ hp

/-- All runs of a member go to its section. -/
theorem destination_inBody (h : IsMember counting c m) :
    ∀ r ∈ Run.inBody counting m, r.destination = c := by
  obtain ⟨q, rest, hruns, hq, hrest⟩ := h.exists_runs
  rw [← hrest]
  intro r hr
  obtain ⟨p, hp, rfl⟩ := List.mem_map.mp hr
  have hmem : p ∈ Run.ofSource counting (Text.unlines ("contract" :: m)) := by
    rw [hruns]
    exact List.mem_cons_of_mem _ hp
  -- The run does not hold the line `contract`, so its opener is a line of the member.
  obtain ⟨before, after, hsplit⟩ := List.append_of_mem hp
  have hall : Run.ofSource counting (Text.unlines ("contract" :: m)) =
      (q :: before) ++ p :: after := by
    rw [hruns, hsplit, List.cons_append]
  have hindex := Run.index_opener hall
  rw [List.flatMap_cons, List.length_append, hq] at hindex
  have hlen := congrArg List.length (Run.flatMap_texts_inBody counting m)
  rw [← hrest, Run.flatMap_texts_map_bare, Run.length_flatMap_texts, hsplit, List.flatMap_append,
    List.flatMap_cons, List.length_append, List.length_append] at hlen
  have hpos : 0 < p.lines.length := Nat.succ_pos _
  have hfound := Classification.sectionOf?_of_mem hmem (l := p.opener) (by simp [Run.lines])
  rw [h.section_eq p.opener.line.index (by omega) (by omega)] at hfound
  rw [Run.destination_bare]
  exact (Option.some.inj hfound).symm

/-- A member brings its lines into its section and nothing elsewhere. -/
theorem textsIn_inBody (h : IsMember counting c m) (s : Section) :
    Run.textsIn s (Run.inBody counting m) = if s = c then m else [] := by
  rw [Run.textsIn_of_forall h.destination_inBody, Run.flatMap_texts_inBody]

end IsMember

/-! ## Sequences of members

The members are given together with their sections. -/

section Members

variable {counting : BraceCounting} {ms : List (Section × List Text)}

/-- Members one after the other are read one after the other. -/
theorem inBody_members (h : ∀ m ∈ ms, IsMember counting m.1 m.2) (rest : List Text) :
    Run.inBody counting (ms.flatMap (·.2) ++ rest) =
      ms.flatMap (fun m => Run.inBody counting m.2) ++ Run.inBody counting rest := by
  induction ms with
  | nil => rfl
  | cons m ms ih =>
    have hm : IsMember counting m.1 m.2 := h m List.mem_cons_self
    have hms := ih fun n hn => h n (List.mem_cons_of_mem _ hn)
    rw [List.flatMap_cons, List.append_assoc,
      Run.inBody_append hm.complete_inBody (Shape.commentAfter_of_lexical hm.outside), hms,
      List.flatMap_cons, List.append_assoc]

/-- A section gets the lines of its members, one after another. -/
theorem textsIn_members (h : ∀ m ∈ ms, IsMember counting m.1 m.2) (s : Section) :
    Run.textsIn s (ms.flatMap fun m => Run.inBody counting m.2) =
      (ms.filter fun m => m.1 = s).flatMap (·.2) := by
  induction ms with
  | nil => rfl
  | cons m ms ih =>
    have hm : IsMember counting m.1 m.2 := h m List.mem_cons_self
    have hms := ih fun n hn => h n (List.mem_cons_of_mem _ hn)
    rw [List.flatMap_cons, Run.textsIn_append, hm.textsIn_inBody, hms, List.filter_cons]
    -- The first member belongs to the section, or it brings nothing into it.
    by_cases hs : m.1 = s
    · simp [hs]
    · have hs' : s ≠ m.1 := fun e => hs e.symm
      simp [hs, hs']

theorem isLine_members (h : ∀ m ∈ ms, IsMember counting m.1 m.2) :
    ∀ t ∈ ms.flatMap (·.2), '\n' ∉ t := by
  intro t ht
  obtain ⟨m, hm, ht⟩ := List.mem_flatMap.mp ht
  exact (h m hm).isLine t ht

/-- Members that agree section by section give the same reordered text. -/
theorem reorder_members {ms' : List (Section × List Text)} {opening rest : List Text}
    (hopening : IsOpening counting opening) (hrest : ∀ t ∈ rest, '\n' ∉ t)
    (h : ∀ m ∈ ms, IsMember counting m.1 m.2) (h' : ∀ m ∈ ms', IsMember counting m.1 m.2)
    (hstable : ∀ s, (ms.filter fun m => m.1 = s) = ms'.filter fun m => m.1 = s) :
    reorder counting (Text.unlines (opening ++ ms.flatMap (·.2) ++ rest)) =
      reorder counting (Text.unlines (opening ++ ms'.flatMap (·.2) ++ rest)) := by
  have hne : ∀ us : List Text, opening ++ us ++ rest ≠ [] := by
    intro us hnil
    rw [List.append_assoc, List.append_eq_nil_iff] at hnil
    exact hopening.ne_nil hnil.1
  have hline : ∀ us : List Text, (∀ t ∈ us, '\n' ∉ t) →
      ∀ t ∈ opening ++ us ++ rest, '\n' ∉ t := by
    intro us hus t ht
    rw [List.append_assoc, List.mem_append, List.mem_append] at ht
    rcases ht with ht | ht | ht
    · exact hopening.isLine t ht
    · exact hus t ht
    · exact hrest t ht
  apply reorder_congr counting (hne _) (hne _) (hline _ (isLine_members h))
    (hline _ (isLine_members h'))
  intro s
  rw [List.append_assoc, List.append_assoc, hopening.allFrom_append, hopening.allFrom_append,
    inBody_members h, inBody_members h']
  simp only [Run.textsIn_append, textsIn_members h, textsIn_members h', hstable]

end Members

/-- **The order of independent members does not matter.** Behind an opening,
two members of different sections may be exchanged; and any permutation of
members that keeps the order of the members of each section gives the same
reordered text. -/
theorem reorder_exchange_members (counting : BraceCounting) (opening rest : List Text)
    (hopening : IsOpening counting opening) (hrest : ∀ t ∈ rest, '\n' ∉ t) :
    (∀ c₁ c₂ m₁ m₂, IsMember counting c₁ m₁ → IsMember counting c₂ m₂ → c₁ ≠ c₂ →
      reorder counting (Text.unlines (opening ++ m₁ ++ m₂ ++ rest)) =
        reorder counting (Text.unlines (opening ++ m₂ ++ m₁ ++ rest))) ∧
      ∀ ms ms' : List (Section × List Text), (∀ m ∈ ms, IsMember counting m.1 m.2) →
        ms.Perm ms' → (∀ c, (ms.filter fun m => m.1 = c) = ms'.filter fun m => m.1 = c) →
        reorder counting (Text.unlines (opening ++ ms.flatMap (·.2) ++ rest)) =
          reorder counting (Text.unlines (opening ++ ms'.flatMap (·.2) ++ rest)) := by
  constructor
  · intro c₁ c₂ m₁ m₂ h₁ h₂ hne
    have hmembers : ∀ m ∈ [(c₁, m₁), (c₂, m₂)], IsMember counting m.1 m.2 := by
      simp [h₁, h₂]
    have hmembers' : ∀ m ∈ [(c₂, m₂), (c₁, m₁)], IsMember counting m.1 m.2 := by
      simp [h₁, h₂]
    -- At most one of the two belongs to a given section.
    have hstable : ∀ s, ([(c₁, m₁), (c₂, m₂)].filter fun m => m.1 = s) =
        [(c₂, m₂), (c₁, m₁)].filter fun m => m.1 = s := by
      intro s
      by_cases hs : c₁ = s
      · have hs' : c₂ ≠ s := fun e => hne (hs.trans e.symm)
        simp [hs, hs']
      · simp [List.filter_cons, hs]
    have hswap := reorder_members hopening hrest hmembers hmembers' hstable
    simpa [List.append_assoc] using hswap
  · intro ms ms' h hperm hstable
    apply reorder_members hopening hrest h _ hstable
    intro m hm
    exact h m (hperm.mem_iff.mpr hm)

/-- An event over two lines, with a comment that names a brace, and a variable
change places. -/
theorem reorder_exchange_event_variable :
    IsOpening .lexical ["contract A \x7b"] ∧
      IsMember .lexical .events ["  event E( // \x7b", "    uint a);"] ∧
      IsMember .lexical .stateVariables ["  uint x;"] ∧
      reorder .lexical (Text.unlines
        ["contract A \x7b", "  event E( // \x7b", "    uint a);", "  uint x;", "\x7d"]) =
        reorder .lexical (Text.unlines
          ["contract A \x7b", "  uint x;", "  event E( // \x7b", "    uint a);", "\x7d"]) := by
  have hopening : IsOpening .lexical ["contract A \x7b"] := by
    refine ⟨by simp, by decide, ?_, ?_, fun _ => ?_⟩ <;> decide +kernel
  have hevent : IsMember .lexical .events ["  event E( // \x7b", "    uint a);"] := by
    refine ⟨by simp, by decide, ?_, ?_, fun _ => ?_⟩
    · decide +kernel
    · intro i hi hlen
      have hi' : i = 1 ∨ i = 2 := by
        simp only [List.length_cons, List.length_nil] at hlen
        omega
      rcases hi' with rfl | rfl <;> decide +kernel
    · decide +kernel
  have hvariable : IsMember .lexical .stateVariables ["  uint x;"] := by
    refine ⟨by simp, by decide, ?_, ?_, fun _ => ?_⟩
    · decide +kernel
    · intro i hi hlen
      have hi' : i = 1 := by
        simp only [List.length_cons, List.length_nil] at hlen
        omega
      subst hi'
      decide +kernel
    · decide +kernel
  have hexchange := reorder_exchange_members .lexical _ ["\x7d"] hopening (by decide)
  have hswap := hexchange.1 _ _ _ _ hevent hvariable (by decide)
  exact ⟨hopening, hevent, hvariable, hswap⟩

end MemberOrder
