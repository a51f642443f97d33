import Mathlib.Data.List.Chain
import MemberOrder.Diagnostic.Presentation
import MemberOrder.Proofs.NameOrder
import MemberOrder.Proofs.Reading
import MemberOrder.Proofs.Warning

/-! # Offsets point at whole lines

Lines are cut between characters, and their offsets are counted in bytes. Both
counts go together: what stands before a line, line feeds included, has as many
bytes as the offset says (`Line.exists_split`). So the bytes in the range of a
line are the bytes of its text, and the range starts and ends between two
characters (`Span.Cuts`).

A warning keeps copies of lines on its way to the labels of a diagnostic. Each of
them is a line of the source (`Warning.marked_mem_ofSource`), hence every label,
and every part of the source that is shown to the user, is one of its lines. -/

namespace MemberOrder

/-! ## Characters and bytes -/

namespace Text

@[simp] theorem bytes_append (t u : Text) : (t ++ u).bytes = t.bytes ++ u.bytes :=
  List.flatMap_append

@[simp] theorem length_bytes (t : Text) : t.bytes.length = t.byteLength := by
  induction t with
  | nil => rfl
  | cons c t ih =>
    rw [byteLength_cons, ← ih, ← String.length_utf8EncodeChar, ← List.length_append]
    rfl

/-- A character of the text starts at the byte, or the text ends there. -/
def IsBoundary (t : Text) (n : Nat) : Prop :=
  ∃ before after, t = before ++ after ∧ before.byteLength = n

end Text

/-- The span cuts a text out of a source: it is a range of bytes of the source,
it starts and stops between characters, and its bytes are those of the text. -/
structure Span.Cuts (s : Span) (source t : Text) : Prop where
  start_le_stop : s.start ≤ s.stop
  stop_le_length : s.stop ≤ source.bytes.length
  start_boundary : source.IsBoundary s.start
  stop_boundary : source.IsBoundary s.stop
  bytes_eq : source.bytes.extract s.start s.stop = t.bytes

namespace Line

/-! ## Lines of a source -/

/-- What stands before a line has as many bytes as its offset says. -/
theorem exists_split_number {i o : Nat} {ts : List Text} {l : Line} (h : l ∈ number i o ts) :
    ∃ before after, Text.unlines ts = before ++ (l.text ++ after) ∧
      l.offset = o + Text.byteLength before := by
  induction ts generalizing i o with
  | nil => cases h
  | cons t ts ih =>
    rcases List.mem_cons.mp h with rfl | h
    · cases ts with
      | nil => exact ⟨[], [], by simp [Text.unlines], rfl⟩
      | cons u us => exact ⟨[], _, Text.unlines_cons (List.cons_ne_nil u us), rfl⟩
    · obtain ⟨before, after, hsplit, hoffset⟩ := ih h
      have hne : ts ≠ [] := by
        rintro rfl
        cases h
      -- The line feed behind the first line counts as one byte.
      refine ⟨t ++ '\n' :: before, after, ?_, ?_⟩
      · rw [Text.unlines_cons hne, hsplit]
        simp
      · have hfeed : '\n'.utf8Size = 1 := rfl
        rw [hoffset, Text.byteLength_append, Text.byteLength_cons, hfeed]
        omega

/-- A line stands in the source, and its offset counts the bytes before it. -/
theorem exists_split {source : Text} {l : Line} (h : l ∈ ofSource source) :
    ∃ before after, source = before ++ (l.text ++ after) ∧ l.offset = Text.byteLength before := by
  obtain ⟨before, after, hsplit, hoffset⟩ := exists_split_number h
  rw [Text.unlines_lines] at hsplit
  exact ⟨before, after, hsplit, by rw [hoffset, Nat.zero_add]⟩

/-- The range of a line cuts its text out of the source. -/
theorem span_cuts {source : Text} {l : Line} (h : l ∈ ofSource source) :
    l.span.Cuts source l.text := by
  obtain ⟨before, after, rfl, hoffset⟩ := exists_split h
  have hstop : l.span.stop = Text.byteLength (before ++ l.text) := by
    rw [Text.byteLength_append, ← hoffset]
    rfl
  refine ⟨Nat.le_add_right .., ?_, ⟨before, _, rfl, hoffset.symm⟩,
    ⟨before ++ l.text, after, (List.append_assoc ..).symm, hstop.symm⟩, ?_⟩
  · rw [hstop, Text.length_bytes, ← List.append_assoc, Text.byteLength_append _ after]
    exact Nat.le_add_right ..
  · have hstart : l.span.start = before.bytes.length := by
      rw [Text.length_bytes]
      exact hoffset
    have hlength : l.span.stop - l.span.start = l.text.bytes.length := by
      rw [Text.length_bytes]
      exact Nat.add_sub_cancel_left ..
    rw [List.extract_eq_take_drop, hlength, hstart, Text.bytes_append, List.drop_left,
      Text.bytes_append, List.take_left]

/-- One byte, the line feed, stands between a line and the next one. -/
theorem isChain_number (i o : Nat) (ts : List Text) :
    (number i o ts).IsChain fun l m => m.offset = l.span.stop + 1 := by
  induction ts generalizing i o with
  | nil => exact .nil
  | cons t ts ih =>
    cases ts with
    | nil => exact .singleton _
    | cons u us => exact .cons_cons rfl (ih (i + 1) (o + t.byteLength + 1))

/-- The last line ends where the text ends. -/
theorem exists_getLast?_number (i o : Nat) {ts : List Text} (hne : ts ≠ []) :
    ∃ l, (number i o ts).getLast? = some l ∧ l.span.stop = o + (Text.unlines ts).byteLength := by
  induction ts generalizing i o with
  | nil => exact absurd rfl hne
  | cons t ts ih =>
    cases ts with
    | nil => exact ⟨⟨i, o, t⟩, rfl, by simp [span, Text.unlines]⟩
    | cons u us =>
      obtain ⟨l, hlast, hstop⟩ := ih (i + 1) (o + t.byteLength + 1) (List.cons_ne_nil u us)
      refine ⟨l, ?_, ?_⟩
      · rw [number, List.getLast?_cons, hlast]
        rfl
      · have hfeed : '\n'.utf8Size = 1 := rfl
        rw [hstop, Text.unlines_cons (List.cons_ne_nil u us), Text.byteLength_append,
          Text.byteLength_cons, hfeed]
        omega

end Line

/-! ## Lines that warnings keep -/

namespace Warning

/-- The lines that the labels of a warning mark, in the order of the labels. -/
def marked : Warning → List Line
  | neverEnds _ l | bodyNeverCloses l | closesNothing l => [l]
  | declaresAgain l first => [l, first]

/-- The labels of a diagnostic have the spans of the marked lines. -/
theorem map_span_labels (w : Warning) :
    w.diagnostic.labels.map Label.span = w.marked.map Line.span := by
  cases w <;> rfl

theorem marked_mem_drops {depth : Int} {ls : List ShapedLine} {w : Warning} {l : Line}
    (hw : w ∈ drops depth ls) (hl : l ∈ w.marked) : l ∈ ls.map (·.line) := by
  induction ls generalizing depth with
  | nil => cases hw
  | cons s ls ih =>
    rw [drops] at hw
    split at hw
    · rcases List.mem_cons.mp hw with rfl | hw
      · rw [List.mem_singleton.mp hl]
        exact List.mem_cons_self
      · exact List.mem_cons_of_mem _ (ih hw)
    · exact List.mem_cons_of_mem _ (ih hw)

/-- A warning about consecutive runs is about a drop in the first of them, about
the declaration that it is, or about the runs behind it. The first declaration
known to those was known before, or is the first run. -/
theorem mem_inBody_cons {first? : Option Line} {depth : Int} {r : Run} {rs : List Run} {w : Warning}
    (h : w ∈ inBody first? depth (r :: rs)) :
    w ∈ drops depth r.lines ∨ (∃ first ∈ first?, w = declaresAgain r.opener.line first) ∨
      ∃ next? after, w ∈ inBody next? after rs ∧ ∀ l ∈ next?, l ∈ first? ∨ l = r.opener.line := by
  have hsame : ∀ l ∈ first?, l ∈ first? ∨ l = r.opener.line := fun _ hl => .inl hl
  unfold inBody at h
  split at h
  · -- in front of the body
    exact .inr (.inr ⟨_, _, h, hsame⟩)
  · -- the first declaration
    rcases List.mem_append.mp h with hdrops | hlater
    · exact .inl hdrops
    · refine .inr (.inr ⟨_, _, hlater, ?_⟩)
      rintro l ⟨rfl⟩
      exact .inr rfl
  · -- in the body
    rcases List.mem_append.mp h with hdrops | hlater
    · exact .inl hdrops
    · exact .inr (.inr ⟨_, _, hlater, hsame⟩)
  · -- another declaration
    rename_i first _
    rcases List.mem_append.mp h with hdrops | hlater
    · exact .inl hdrops
    · rcases List.mem_cons.mp hlater with hagain | hlater
      · exact .inr (.inl ⟨first, rfl, hagain⟩)
      · exact .inr (.inr ⟨_, _, hlater, hsame⟩)

/-- On the way through the runs only their lines are kept, and the first
declaration that was met before. -/
theorem marked_mem_inBody {first? : Option Line} {depth : Int} {rs : List Run} {w : Warning}
    {l : Line} (hw : w ∈ inBody first? depth rs) (hl : l ∈ w.marked) :
    l ∈ first? ∨ l ∈ (rs.flatMap Run.lines).map (·.line) := by
  induction rs generalizing first? depth with
  | nil => cases hw
  | cons r rs ih =>
    rw [List.flatMap_cons, List.map_append, List.mem_append]
    have hopener : r.opener.line ∈ r.lines.map (·.line) := List.mem_cons_self
    rcases mem_inBody_cons hw with hdrops | ⟨first, hfirst, rfl⟩ | ⟨next?, after, hlater, hnext⟩
    · exact .inr (.inl (marked_mem_drops hdrops hl))
    · rcases List.mem_cons.mp hl with rfl | hl
      · exact .inr (.inl hopener)
      · exact .inl (List.mem_singleton.mp hl ▸ hfirst)
    · rcases ih hlater with hknown | hmem
      · rcases hnext l hknown with hfirst | rfl
        · exact .inl hfirst
        · exact .inr (.inl hopener)
      · exact .inr (.inr hmem)

theorem marked_mem_atEnd {rs : List Run} {w : Warning} {l : Line} (hw : w ∈ atEnd? rs)
    (hl : l ∈ w.marked) : l ∈ (rs.flatMap Run.lines).map (·.line) := by
  have hopener : ∀ r ∈ rs, r.opener.line ∈ (rs.flatMap Run.lines).map (·.line) := by
    intro r hr
    exact List.mem_map_of_mem (List.mem_flatMap.mpr ⟨r, hr, List.mem_cons_self⟩)
  rw [Option.mem_def, atEnd?] at hw
  split at hw
  · -- The last construct never ends.
    rename_i c opener rest hlast
    cases hw
    rw [List.mem_singleton.mp hl]
    exact hopener _ (List.mem_of_getLast? hlast)
  · split at hw
    · -- The body never closes: its first declaration is marked.
      rename_i first hfirst
      split at hw
      · cases hw
        rw [List.mem_singleton.mp hl]
        obtain ⟨r, hr, rfl⟩ := Option.map_eq_some_iff.mp hfirst
        exact hopener r ((List.dropWhile_suffix _).subset (List.mem_of_mem_head? hr))
      · cases hw
    · cases hw

/-- Every line that a label marks is a line of the source. -/
theorem marked_mem_ofSource {counting : BraceCounting} {source : Text} {w : Warning} {l : Line}
    (hw : w ∈ (Classification.ofSource counting source).warnings) (hl : l ∈ w.marked) :
    l ∈ Line.ofSource source := by
  rw [← Run.allLines_ofSource counting source, Run.allLines_map_call]
  rw [Classification.warnings_ofSource] at hw
  rcases List.mem_append.mp hw with hbody | hend
  · rcases marked_mem_inBody hbody hl with hfirst | hmem
    · cases hfirst
    · exact hmem
  · exact marked_mem_atEnd (Option.mem_toList.mp hend) hl

/-- Every label of a warning marks a whole line. -/
theorem exists_line_of_mem_labels {counting : BraceCounting} {source : Text} {w : Warning}
    {b : Label} (hw : w ∈ (Classification.ofSource counting source).warnings)
    (hb : b ∈ w.diagnostic.labels) : ∃ l ∈ Line.ofSource source, b.span = l.span := by
  have hspan : b.span ∈ w.marked.map Line.span := by
    rw [← map_span_labels]
    exact List.mem_map_of_mem hb
  obtain ⟨l, hl, heq⟩ := List.mem_map.mp hspan
  exact ⟨l, marked_mem_ofSource hw hl, heq.symm⟩

end Warning

/-- What is underlined is what the label marks. -/
theorem Label.excerpt_stop {b : Label} (h : b.span.start ≤ b.span.stop) :
    (⟨b.excerpt.offset, b.excerpt.offset + b.excerpt.length⟩ : Span) = b.span := by
  have hstop : b.span.start + (b.span.stop - b.span.start) = b.span.stop := by omega
  show (⟨b.span.start, b.span.start + (b.span.stop - b.span.start)⟩ : Span) = b.span
  rw [hstop]

/-- **Offsets point at whole lines.** The lines of a source are numbered from
zero, joined they restore it, the range of each cuts its text out of the source,
and the ranges follow each other with one byte between them, from the first byte
to the last. Every label of a diagnostic about the source, and every part of it
that is shown, has the range of such a line. -/
theorem spans_cut_whole_lines (source : Text) :
    let lines := Line.ofSource source
    lines.map Line.index = List.range lines.length ∧
      Text.unlines (lines.map Line.text) = source ∧
      (∀ l ∈ lines, l.span.Cuts source l.text) ∧
      lines.head?.map Line.offset = some 0 ∧
      (lines.IsChain fun l m => m.offset = l.span.stop + 1) ∧
      (∃ l, lines.getLast? = some l ∧ l.span.stop = source.bytes.length) ∧
      ∀ counting : BraceCounting,
        let diagnostics := (Classification.ofSource counting source).warnings.map Warning.diagnostic
        (∀ d ∈ diagnostics, ∀ b ∈ d.labels,
          ∃ l ∈ lines, b.span = l.span ∧ b.span.Cuts source l.text) ∧
        ∀ p ∈ Presentation.all source diagnostics, p.source = source ∧
          ∀ es ∈ p.excerpts?, ∀ e ∈ es,
            ∃ l ∈ lines, (⟨e.offset, e.offset + e.length⟩ : Span) = l.span ∧
              (⟨e.offset, e.offset + e.length⟩ : Span).Cuts source l.text := by
  intro lines
  have hlabels : ∀ counting, ∀ w ∈ (Classification.ofSource counting source).warnings,
      ∀ b ∈ w.diagnostic.labels, ∃ l ∈ lines, b.span = l.span ∧ b.span.Cuts source l.text := by
    intro counting w hw b hb
    obtain ⟨l, hl, hspan⟩ := Warning.exists_line_of_mem_labels hw hb
    exact ⟨l, hl, hspan, hspan ▸ Line.span_cuts hl⟩
  refine ⟨Line.map_index_ofSource source, ?_, fun l hl => Line.span_cuts hl, ?_,
    Line.isChain_number .., ?_, ?_⟩
  · show Text.unlines ((Line.ofSource source).map Line.text) = source
    rw [Line.ofSource, Line.map_text_number, Text.unlines_lines]
  · obtain ⟨t, ts, hcons⟩ := List.exists_cons_of_ne_nil (Text.pieces_ne_nil '\n' source)
    show (Line.number 0 0 (Text.pieces '\n' source)).head?.map Line.offset = some 0
    rw [hcons]
    rfl
  · obtain ⟨l, hlast, hstop⟩ := Line.exists_getLast?_number 0 0 (Text.pieces_ne_nil '\n' source)
    refine ⟨l, hlast, ?_⟩
    rw [hstop, Nat.zero_add, Text.length_bytes]
    exact congrArg Text.byteLength (Text.unlines_lines source)
  · intro counting diagnostics
    constructor
    · intro d hd b hb
      obtain ⟨w, hw, rfl⟩ := List.mem_map.mp hd
      exact hlabels counting w hw b hb
    · intro p hp
      obtain ⟨d, hd, rfl⟩ := List.mem_map.mp hp
      obtain ⟨w, hw, rfl⟩ := List.mem_map.mp hd
      refine ⟨rfl, ?_⟩
      intro es hes e he
      have hexcerpts : es = w.diagnostic.labels.map Label.excerpt := by
        unfold Diagnostic.presentation at hes
        split at hes
        · cases hes
        · exact (Option.some.inj hes).symm
      rw [hexcerpts] at he
      obtain ⟨b, hb, rfl⟩ := List.mem_map.mp he
      obtain ⟨l, hl, hspan, hcuts⟩ := hlabels counting w hw b hb
      rw [Label.excerpt_stop hcuts.start_le_stop]
      exact ⟨l, hl, hspan, hcuts⟩

end MemberOrder
