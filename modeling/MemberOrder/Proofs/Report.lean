import MemberOrder.Proofs.Check
import MemberOrder.Proofs.Declared

/-! # What the text of a report says

A report is shown file by file: an empty line, the path, and up to three lines with
missing names, of which each is left out if nothing of its kind is missing. The
number of these lines is not shown, and a path may look like one of them. Still the
text determines the report (`report_text_determines_report`). Each part of the text
ends where it can be seen to end: a path at the end of its line, the lines of a file
at the next empty line, a name at a comma. The argument takes the parts off one by
one, from the left. -/

namespace MemberOrder

/-! ## Texts that are taken off from the left -/

namespace Text

/-- What stands before the first separator, and what stands behind it. -/
theorem append_cons_inj {sep : Char} {s s' t t' : Text} (hs : sep ∉ s) (hs' : sep ∉ s')
    (h : s ++ sep :: t = s' ++ sep :: t') : s = s' ∧ t = t' := by
  have hother : ∀ {u : Text}, sep ∉ u → ∀ c ∈ u, (c != sep) = true := by
    intro u hu c hc
    rw [bne_iff_ne]
    rintro rfl
    exact hu hc
  rcases stretch_inj (hother hs) (hother hs') (by simp) (by simp) h with ⟨rfl, hrest⟩
  exact ⟨rfl, (List.cons.inj hrest).2⟩

/-- What stands in a joined text stands in one of the texts or in the separator. -/
theorem mem_join {sep : Text} {ts : List Text} {c : Char} (h : c ∈ join sep ts) :
    c ∈ sep ∨ ∃ t ∈ ts, c ∈ t := by
  induction ts with
  | nil => cases h
  | cons t ts ih =>
    -- Behind the last text stands no separator.
    by_cases hts : ts = []
    · rw [hts, join_singleton] at h
      exact .inr ⟨t, List.mem_cons_self, h⟩
    · rw [join_cons hts, List.mem_append, List.mem_append] at h
      rcases h with (h | h) | h
      · exact .inr ⟨t, List.mem_cons_self, h⟩
      · exact .inl h
      · rcases ih h with h | ⟨u, hu, hc⟩
        · exact .inl h
        · exact .inr ⟨u, List.mem_cons_of_mem t hu, hc⟩

/-- A list that is written with commas and spaces has its items between the commas,
each but the first with a space in front of it. -/
theorem pieces_join_spaced {t : Text} {ts : List Text} (ht : ',' ∉ t) (hts : ∀ u ∈ ts, ',' ∉ u) :
    pieces ',' (join ", " (t :: ts)) = t :: ts.map (' ' :: ·) := by
  induction ts generalizing t with
  | nil =>
    rw [join_singleton, pieces_of_not_mem ht]
    rfl
  | cons u us ih =>
    have hrest := ih (hts u List.mem_cons_self) fun v hv => hts v (List.mem_cons_of_mem u hv)
    have hjoin : join ", " (t :: u :: us) = t ++ ',' :: ' ' :: join ", " (u :: us) := by
      rw [join_cons (List.cons_ne_nil u us), List.append_assoc]
      rfl
    rw [hjoin, pieces_append_cons ht, pieces_cons, if_neg (by decide), hrest]
    rfl

/-- Items without commas can be read off the written list. -/
theorem join_spaced_inj {ts us : List Text} (ht : ts ≠ []) (hu : us ≠ [])
    (hts : ∀ t ∈ ts, ',' ∉ t) (hus : ∀ u ∈ us, ',' ∉ u) (h : join ", " ts = join ", " us) :
    ts = us := by
  rcases List.exists_cons_of_ne_nil ht with ⟨t, ts, rfl⟩
  rcases List.exists_cons_of_ne_nil hu with ⟨u, us, rfl⟩
  rw [List.forall_mem_cons] at hts hus
  have hpieces := congrArg (pieces ',') h
  rw [pieces_join_spaced hts.1 hts.2, pieces_join_spaced hus.1 hus.2] at hpieces
  rcases List.cons.inj hpieces with ⟨rfl, hrest⟩
  rw [List.map_injective_iff.mpr (List.cons_injective) hrest]

end Text

/-! ## Lines with names -/

theorem NameSet.eq_of_toList_eq {names names' : NameSet} (h : names.toList = names'.toList) :
    names = names' := by
  cases names
  cases names'
  cases h
  rfl

instance {p : DeclaredKind → Prop} [DecidablePred p] : Decidable (∀ k, p k) :=
  decidable_of_iff (p .function ∧ p .event ∧ p .struct)
    ⟨fun h k => by cases k <;> simp only [h], fun h => ⟨h _, h _, h _⟩⟩

/-- The path of the file and the names stand on one line each, and no name has a
comma. -/
@[mk_iff]
structure Mismatch.IsPlain (m : Mismatch) : Prop where
  file : '\n' ∉ m.file.text
  names : ∀ k, ∀ n ∈ m.missing.ofKind k, ',' ∉ n ∧ '\n' ∉ n

instance (m : Mismatch) : Decidable m.IsPlain := decidable_of_iff' _ m.isPlain_iff

namespace Report

def IsPlain (r : Report) : Prop := ∀ m ∈ r.mismatches, m.IsPlain

instance (r : Report) : Decidable r.IsPlain :=
  inferInstanceAs (Decidable (∀ m ∈ r.mismatches, m.IsPlain))

/-- The kinds of names, as the lines say them. -/
def kinds : List Text := ["events", "functions", "structs"]

/-- How a line with the missing names of a kind begins. -/
def label (kind : Text) : Text := .concat ["    Missing ", kind, ": "]

/-- A line with names is left out if there are none. -/
theorem nameLine_cases (kind : Text) (names : NameSet) :
    names.toList = [] ∧ nameLine kind names = [] ∨
      names.toList ≠ [] ∧
        nameLine kind names = label kind ++ (Text.join ", " names.toList ++ ['\n']) := by
  unfold nameLine NameSet.isEmpty
  by_cases hnames : names.toList = []
  · simp [hnames]
  · refine .inr ⟨hnames, ?_⟩
    rw [if_neg (by simpa using hnames)]
    simp [label, Text.concat]

/-- A line with names can be taken off, whether it is there or not, if what follows
does not look like such a line. -/
theorem nameLine_append_inj {kind : Text} {names names' : NameSet} {t t' : Text}
    (h : ∀ n ∈ names.toList, ',' ∉ n ∧ '\n' ∉ n) (h' : ∀ n ∈ names'.toList, ',' ∉ n ∧ '\n' ∉ n)
    (ht : ¬ label kind <+: t) (ht' : ¬ label kind <+: t')
    (heq : nameLine kind names ++ t = nameLine kind names' ++ t') : names = names' ∧ t = t' := by
  have hline : ∀ {ns : List Text}, (∀ n ∈ ns, ',' ∉ n ∧ '\n' ∉ n) → '\n' ∉ Text.join ", " ns := by
    intro ns hns hfeed
    rcases Text.mem_join hfeed with hsep | ⟨n, hn, hc⟩
    · revert hsep
      decide
    · exact (hns n hn).2 hc
  rcases nameLine_cases kind names with ⟨hnil, hnone⟩ | ⟨hne, hsome⟩ <;>
    rcases nameLine_cases kind names' with ⟨hnil', hnone'⟩ | ⟨hne', hsome'⟩
  -- If only one of the lines is there, the text behind the other begins with its label.
  · rw [hnone, hnone'] at heq
    exact ⟨NameSet.eq_of_toList_eq (hnil.trans hnil'.symm), heq⟩
  · rw [hnone, hsome', List.nil_append, List.append_assoc] at heq
    exact absurd (heq ▸ List.prefix_append (label kind) _) ht
  · rw [hsome, hnone', List.nil_append, List.append_assoc] at heq
    exact absurd (heq ▸ List.prefix_append (label kind) _) ht'
  · rw [hsome, hsome'] at heq
    simp only [List.append_assoc, List.singleton_append] at heq
    rcases Text.append_cons_inj (hline h) (hline h') (List.append_cancel_left heq) with ⟨hjoin, rfl⟩
    have hsame := Text.join_spaced_inj hne hne' (fun n hn => (h n hn).1) (fun n hn => (h' n hn).1)
      hjoin
    exact ⟨NameSet.eq_of_toList_eq hsame, rfl⟩

/-- The lines of different kinds do not begin alike. -/
theorem label_apart :
    ∀ kind ∈ kinds, ∀ kind' ∈ kinds, kind ≠ kind' → ¬ label kind <+: label kind' := by
  decide +kernel

/-- A line with names does not look like one of another kind. -/
theorem not_prefix_nameLine_append {kind kind' : Text} (hk : kind ∈ kinds) (hk' : kind' ∈ kinds)
    (hne : kind ≠ kind') (names : NameSet) {t : Text} (ht : ¬ label kind <+: t) :
    ¬ label kind <+: nameLine kind' names ++ t := by
  rcases nameLine_cases kind' names with ⟨-, hnone⟩ | ⟨-, hsome⟩
  · rwa [hnone]
  · intro hbegins
    rw [hsome, List.append_assoc] at hbegins
    -- Of two labels at the same place one would begin with the other.
    rcases List.prefix_or_prefix_of_prefix hbegins (List.prefix_append (label kind') _) with
      hle | hle
    · exact label_apart kind hk kind' hk' hne hle
    · exact label_apart kind' hk' kind hk hne.symm hle

/-! ## The lines of a file -/

/-- Nothing follows, or the lines of another file, which begin with an empty line. -/
def StartsFile (t : Text) : Prop := ∀ c ∈ t.head?, c = '\n'

/-- The lines of another file do not begin like a line with names. -/
theorem StartsFile.not_label {t : Text} (h : StartsFile t) (kind : Text) : ¬ label kind <+: t := by
  rintro ⟨rest, rfl⟩
  exact absurd (h ' ' rfl) (by decide)

/-- Behind the lines of a file come those of the next one, or nothing. -/
theorem startsFile_concat (ms : List Mismatch) :
    StartsFile (Text.concat (ms.map mismatchText)) := by
  cases ms with
  | nil =>
    intro c hc
    cases hc
  | cons m ms =>
    rintro c ⟨rfl⟩
    rfl

/-- The text of a file, part by part. -/
theorem mismatchText_append (m : Mismatch) (t : Text) :
    mismatchText m ++ t = "\n  ".toList ++ (m.file.text ++ '\n' ::
      (nameLine "events" m.missing.events ++ (nameLine "functions" m.missing.functions ++
        (nameLine "structs" m.missing.structs ++ t)))) := by
  simp [mismatchText, Text.concat]

/-- The lines of a file can be taken off. -/
theorem mismatchText_append_inj {m m' : Mismatch} {t t' : Text} (h : m.IsPlain) (h' : m'.IsPlain)
    (ht : StartsFile t) (ht' : StartsFile t') (heq : mismatchText m ++ t = mismatchText m' ++ t') :
    m = m' ∧ t = t' := by
  have hevents : "events".toList ∈ kinds := by decide
  have hfunctions : "functions".toList ∈ kinds := by decide
  have hstructs : "structs".toList ∈ kinds := by decide
  -- Behind each of the three lines stands none of its kind.
  have hlate : ∀ {t : Text}, StartsFile t → ∀ names,
      ¬ label "functions" <+: nameLine "structs" names ++ t := by
    intro t ht names
    exact not_prefix_nameLine_append hfunctions hstructs (by decide) names (ht.not_label _)
  have hearly : ∀ {t : Text}, StartsFile t → ∀ names names',
      ¬ label "events" <+: nameLine "functions" names ++ (nameLine "structs" names' ++ t) := by
    intro t ht names names'
    apply not_prefix_nameLine_append hevents hfunctions (by decide)
    exact not_prefix_nameLine_append hevents hstructs (by decide) names' (ht.not_label _)
  rw [mismatchText_append, mismatchText_append] at heq
  rcases Text.append_cons_inj h.file h'.file (List.append_cancel_left heq) with ⟨hfile, hnames⟩
  rcases nameLine_append_inj (h.names .event) (h'.names .event) (hearly ht _ _) (hearly ht' _ _)
    hnames with ⟨hevent, hnames⟩
  rcases nameLine_append_inj (h.names .function) (h'.names .function) (hlate ht _) (hlate ht' _)
    hnames with ⟨hfunction, hnames⟩
  rcases nameLine_append_inj (h.names .struct) (h'.names .struct) (ht.not_label _)
    (ht'.not_label _) hnames with ⟨hstruct, hrest⟩
  refine ⟨?_, hrest⟩
  rcases m with ⟨⟨file⟩, ⟨functions, events, structs⟩⟩
  rcases m' with ⟨⟨file'⟩, ⟨functions', events', structs'⟩⟩
  obtain rfl : file = file' := hfile
  obtain rfl : functions = functions' := hfunction
  obtain rfl : events = events' := hevent
  obtain rfl : structs = structs' := hstruct
  rfl

/-- All files can be taken off, one after the other. -/
theorem eq_of_concat_mismatchText_eq {ms ms' : List Mismatch} (h : ∀ m ∈ ms, m.IsPlain)
    (h' : ∀ m ∈ ms', m.IsPlain)
    (heq : Text.concat (ms.map mismatchText) = Text.concat (ms'.map mismatchText)) : ms = ms' := by
  induction ms generalizing ms' with
  | nil =>
    cases ms' with
    | nil => rfl
    | cons m' ms' => cases heq
  | cons m ms ih =>
    cases ms' with
    | nil => cases heq
    | cons m' ms' =>
      rw [List.forall_mem_cons] at h h'
      rcases mismatchText_append_inj h.1 h'.1 (startsFile_concat ms) (startsFile_concat ms') heq
        with ⟨rfl, hrest⟩
      rw [ih h.2 h'.2 hrest]

/-- The first line, if there are mismatches. -/
def heading (count : Nat) : Text := .concat ["Found ", .ofNat count, " file(s) with mismatches:"]

/-- The heading is one line. -/
theorem not_mem_heading (count : Nat) : '\n' ∉ heading count := by
  have hdigits : '\n' ∉ Text.ofNat count := by
    intro hfeed
    exact absurd (Nat.isDigit_of_mem_toDigits (by decide) (by decide) hfeed) (by decide)
  simp [heading, Text.concat, hdigits]

theorem text_of_ne_nil {r : Report} (h : r.mismatches ≠ []) :
    r.text = heading r.mismatches.length ++
      '\n' :: Text.concat (r.mismatches.map mismatchText) := by
  unfold text isClean
  rw [if_neg (by simpa using h)]
  simp [heading, Text.concat]

theorem text_of_nil {r : Report} (h : r.mismatches = []) :
    r.text = "All solution files match their user files!".toList := by
  unfold text isClean
  rw [h]
  rfl

/-- A report without mismatches does not look like one with some. -/
theorem text_ne_of_ne_nil {r r' : Report} (h : r.mismatches = []) (h' : r'.mismatches ≠ []) :
    r.text ≠ r'.text := by
  rw [text_of_nil h, text_of_ne_nil h']
  intro heq
  exact absurd (List.cons.inj heq).1 (by decide)

/-- The text of a plain report determines it. -/
theorem eq_of_text_eq {r r' : Report} (h : r.IsPlain) (h' : r'.IsPlain)
    (heq : r.text = r'.text) : r = r' := by
  have hsame : r.mismatches = r'.mismatches := by
    by_cases hr : r.mismatches = [] <;> by_cases hr' : r'.mismatches = []
    · rw [hr, hr']
    · exact absurd heq (text_ne_of_ne_nil hr hr')
    · exact absurd heq.symm (text_ne_of_ne_nil hr' hr)
    · rw [text_of_ne_nil hr, text_of_ne_nil hr'] at heq
      -- The counts in the headings are not needed: the files are taken off to the end.
      have hfiles := (Text.append_cons_inj (not_mem_heading _) (not_mem_heading _) heq).2
      exact eq_of_concat_mismatchText_eq h h' hfiles
  rcases r with ⟨ms⟩
  rcases r' with ⟨ms'⟩
  exact congrArg Report.mk hsame

end Report

/-! ## Names in the report of a check -/

/-- The name is a word: it has characters, and all of them are those of words. -/
def Text.IsWord (n : Text) : Prop := n ≠ [] ∧ ∀ c ∈ n, isWordChar c = true

theorem Text.IsWord.not_mem {n : Text} (h : n.IsWord) {c : Char} (hc : isWordChar c = false) :
    c ∉ n := by
  intro hmem
  rw [h.2 c hmem] at hc
  cases hc

/-- Declared names are words. -/
theorem Roster.isWord_of_mem_ofSource {denied : Roster} {source n : Text} {k : DeclaredKind}
    (h : n ∈ (Roster.ofSource denied source).ofKind k) : n.IsWord := by
  rcases DeclaredKind.exists_candidate_of_mem_names (mem_ofKind_ofSource.mp h).1 with ⟨c, rfl⟩
  exact ⟨c.name_ne, c.name_word⟩

theorem Roster.mem_of_mem_diff {r s : Roster} {n : Text} {k : DeclaredKind}
    (h : n ∈ (r.diff s).ofKind k) : n ∈ r.ofKind k := by
  cases k <;> exact (NameSet.mem_diff.mp h).1

namespace Exercise

variable {t : FileTree} {denied : Roster}

theorem isWord_of_mem_roster {p : Path} {declared : Roster} (h : roster t denied p = .ok declared)
    {k : DeclaredKind} {n : Text} (hn : n ∈ declared.ofKind k) : n.IsWord := by
  unfold roster at h
  split at h
  · cases hread : t.read p with
    | error e =>
      rw [hread] at h
      cases h
    | ok source =>
      rw [hread] at h
      cases h
      exact Roster.isWord_of_mem_ofSource hn
  · cases h
    cases k <;> cases hn

/-- What is missing in a solution is declared by the user, so it is a word. -/
theorem isWord_of_mem_compare {user solution : Path} {missing : Roster}
    (h : compare t denied user solution = .ok missing) {k : DeclaredKind} {n : Text}
    (hn : n ∈ missing.ofKind k) : n.IsWord := by
  unfold compare at h
  rcases exists_of_bind_eq_ok h with ⟨declared, hdeclared, hdiff⟩
  rcases exists_of_bind_eq_ok hdiff with ⟨solved, -, hmissing⟩
  cases hmissing
  exact isWord_of_mem_roster hdeclared (Roster.mem_of_mem_diff hn)

/-- What is found in order is found in one of the things that are checked. -/
theorem Findings.exists_of_mem_inOrder {α : Type} {check : α → Findings} {as : List α}
    {m : Mismatch} (h : m ∈ (inOrder check as).mismatches) :
    ∃ a ∈ as, m ∈ (check a).mismatches := by
  induction as with
  | nil => cases h
  | cons a as ih =>
    rw [inOrder, andThen] at h
    -- Behind a failure nothing is added.
    split at h
    · exact ⟨a, List.mem_cons_self, h⟩
    · rcases List.mem_append.mp h with h | h
      · exact ⟨a, List.mem_cons_self, h⟩
      · rcases ih h with ⟨b, hb, hm⟩
        exact ⟨b, List.mem_cons_of_mem a hb, hm⟩

theorem isWord_of_mem_comparePair {root : Path} {pair : Path × Path} {m : Mismatch}
    (h : m ∈ (comparePair t denied root pair).mismatches) {k : DeclaredKind} {n : Text}
    (hn : n ∈ m.missing.ofKind k) : n.IsWord := by
  unfold comparePair at h
  split at h
  · cases h
  · rename_i missing hcompare
    split at h
    · cases h
    · cases List.mem_singleton.mp h
      exact isWord_of_mem_compare hcompare hn

theorem isWord_of_mem_checkProject {root project : Path} {m : Mismatch}
    (h : m ∈ (checkProject t denied root project).mismatches) {k : DeclaredKind} {n : Text}
    (hn : n ∈ m.missing.ofKind k) : n.IsWord := by
  unfold checkProject at h
  dsimp only at h
  -- Only a project with both directories and a listing has findings.
  split at h
  · split at h
    · cases h
    · rcases Findings.exists_of_mem_inOrder h with ⟨user, -, hm⟩
      unfold checkFile at hm
      split at hm
      · exact isWord_of_mem_comparePair hm hn
      · cases hm
  · cases h

/-- All names in the report of a check are words. -/
theorem isWord_of_mem_check {root : Path} {r : Report} (h : check t denied root = .ok r)
    {m : Mismatch} (hm : m ∈ r.mismatches) {k : DeclaredKind} {n : Text}
    (hn : n ∈ m.missing.ofKind k) : n.IsWord := by
  have hfound : (findings t denied root).mismatches = r.mismatches := by
    unfold check Findings.result at h
    split at h
    · cases h
    · cases h
      rfl
  rw [← hfound] at hm
  unfold findings at hm
  split at hm
  · split at hm
    · cases hm
    · rcases Findings.exists_of_mem_inOrder hm with ⟨project, -, hm⟩
      exact isWord_of_mem_checkProject hm hn
  · cases hm

end Exercise

end MemberOrder
