import MemberOrder.Proofs.Sorting

/-! # A grouping against the log of its insertions

A grouping keeps two orders at once: sections stand in the order in which they
were first named, and they are read in canonical order. The plainest account of
the same calls is a log, in which every line is noted with its section as it
comes. `Grouping.Refines` says what each way of reading a grouping has to give in
terms of the log and of the sections that the calls name, and every sequence of
calls leads to a grouping that gives it (`grouping_refines_log`). A call without
lines leaves nothing in the log, but it takes part in the order of the sections. -/

namespace MemberOrder

/-- A call that puts one line, or several or none, into a section. -/
inductive Insertion where
  | push (s : Section) (l : Line)
  | append (s : Section) (ls : List Line)
deriving DecidableEq, Repr

namespace Insertion

/-- The grouping after a call. -/
def apply (g : Grouping) : Insertion → Grouping
  | push s l => g.push s l
  | append s ls => g.append s ls

/-- The grouping after some calls, of which the first finds an empty one. -/
def run (steps : List Insertion) : Grouping := steps.foldl apply .empty

/-- The section that a call names. -/
def named : Insertion → Section
  | push s _ => s
  | append s _ => s

/-- The lines that a call brings. -/
def lines : Insertion → List Line
  | push _ l => [l]
  | append _ ls => ls

/-- All insertions in order, line by line. -/
def log (steps : List Insertion) : List (Section × Line) :=
  steps.flatMap fun i => i.lines.map fun l => (i.named, l)

/-- The sections that were named, call by call. -/
def namings (steps : List Insertion) : List Section := steps.map named

end Insertion

/-- What is read from the grouping is what the log says. The sections of the log
come by rank, or in the order in which they were first named. -/
structure Grouping.Refines (g : Grouping) (log : List (Section × Line))
    (namings : List Section) : Prop where
  lines_eq : ∀ s, g.lines s = (log.filter fun x => x.1 = s).map (·.2)
  size_eq : g.size = log.length
  mem_canonical : ∀ s, s ∈ g.canonical.map (·.1) ↔ ∃ l, (s, l) ∈ log
  canonical_ranks : (g.canonical.map (·.1)).Pairwise fun s t => s.rank < t.rank
  canonical_filled : ∀ e ∈ g.canonical, e.2 ≠ []
  canonical_sorts : (g.canonical.flatMap fun e => e.2.map fun l => (e.1, l)) =
    stableSort (fun x => x.1.rank) log
  mem_sections : ∀ s, s ∈ g.sections ↔ ∃ l, (s, l) ∈ log
  sections_nodup : g.sections.Nodup
  sections_order : g.sections.Pairwise fun s t => namings.idxOf s < namings.idxOf t
  sectionOf?_eq_some : ∀ i s, g.sectionOf? i = some s ↔
    (∃ l, (s, l) ∈ log ∧ l.index = i) ∧
      ∀ x ∈ log, x.2.index = i → namings.idxOf s ≤ namings.idxOf x.1
  sectionOf?_eq_none : ∀ i, g.sectionOf? i = none ↔ ∀ x ∈ log, x.2.index ≠ i

theorem Grouping.map_fst_canonical (g : Grouping) :
    g.canonical.map (·.1) = Section.canonical.filter fun s => g.lines s ≠ [] := by
  rw [canonical_eq_map, List.map_map]
  exact List.map_id _

/-- In a list that is ordered by a number, the first element of some sort is the one
with the smallest number. -/
theorem find?_eq_some_iff_least {α : Type} {number : α → Nat} {p : α → Bool} {as : List α}
    (h : as.Pairwise fun a b => number a < number b) {a : α} :
    as.find? p = some a ↔ (a ∈ as ∧ p a = true) ∧ ∀ b ∈ as, p b = true → number a ≤ number b := by
  have hleast : ∀ {a}, as.find? p = some a → ∀ b ∈ as, p b = true → number a ≤ number b := by
    intro a hfind b hb hpb
    rcases List.find?_eq_some_iff_append.mp hfind with ⟨-, before, after, rfl, hbefore⟩
    rw [List.pairwise_append, List.pairwise_cons] at h
    -- Before the one that is found nothing fits; behind it the numbers are larger.
    rcases List.mem_append.mp hb with hb | hb
    · have hnot := hbefore b hb
      rw [hpb] at hnot
      cases hnot
    · rcases List.mem_cons.mp hb with rfl | hb
      · exact Nat.le_refl _
      · exact Nat.le_of_lt (h.2.1.1 b hb)
  constructor
  · intro hfind
    exact ⟨⟨List.mem_of_find?_eq_some hfind, List.find?_some hfind⟩, hleast hfind⟩
  · rintro ⟨⟨ha, hpa⟩, hmin⟩
    -- Something fits, so something is found, and its number can be neither larger nor smaller.
    cases hfind : as.find? p with
    | none => exact absurd hpa (List.find?_eq_none.mp hfind a ha)
    | some b =>
      have hb := List.mem_of_find?_eq_some hfind
      have hle := hmin b hb (List.find?_some hfind)
      have hge := hleast hfind a ha hpa
      have hnumbers : (as.map number).Nodup := (List.pairwise_map.mpr h).imp Nat.ne_of_lt
      rw [List.inj_on_of_nodup_map hnumbers hb ha (by omega)]

namespace Insertion

variable (steps : List Insertion)

/-- A push is a call with one line. -/
theorem run_eq_ofCalls : run steps = .ofCalls (steps.map fun i => (i.named, i.lines)) := by
  unfold run Grouping.ofCalls
  rw [List.foldl_map]
  congr 1
  funext g i
  cases i with
  | push s l => rfl
  | append s ls => rfl

theorem nodup_named_run : (run steps).named.Nodup := by
  rw [run_eq_ofCalls]
  exact Grouping.nodup_named_ofCalls _

/-- Sections stand in the order of the calls that first named them. -/
theorem pairwise_named_run :
    (run steps).named.Pairwise fun s t => (namings steps).idxOf s < (namings steps).idxOf t := by
  have hcalls := Grouping.pairwise_named_ofCalls (steps.map fun i => (i.named, i.lines))
  rw [List.map_map] at hcalls
  rw [run_eq_ofCalls]
  exact hcalls

/-- The lines of a section are its entries in the log. -/
theorem lines_run (s : Section) :
    (run steps).lines s = ((log steps).filter fun x => x.1 = s).map (·.2) := by
  rw [run_eq_ofCalls, Grouping.lines_ofCalls, Grouping.linesIn, log, List.flatMap_map,
    List.filter_flatMap, List.map_flatMap]
  apply List.flatMap_congr
  intro i _
  rw [List.filter_map, List.map_map]
  -- The entries of a call all have its section, so the filter keeps all of them or none.
  by_cases hs : s = i.named
  · simp [hs, Function.comp_def]
  · have hs' : i.named ≠ s := fun h => hs h.symm
    simp [hs, hs', Function.comp_def]

/-- The size is the length of the log. -/
theorem size_run : (run steps).size = (log steps).length := by
  rw [run_eq_ofCalls, Grouping.size_ofCalls, Grouping.allLines, log, List.flatMap_map,
    List.length_flatMap, List.length_flatMap]
  simp only [List.length_map]

/-- A section holds a line exactly if the log has noted it there. -/
theorem mem_lines_run {s : Section} {l : Line} :
    l ∈ (run steps).lines s ↔ (s, l) ∈ log steps := by
  rw [lines_run, List.mem_map]
  constructor
  · rintro ⟨x, hx, rfl⟩
    rw [List.mem_filter, decide_eq_true_eq] at hx
    exact hx.2 ▸ hx.1
  · intro h
    exact ⟨(s, l), List.mem_filter.mpr ⟨h, decide_eq_true rfl⟩, rfl⟩

theorem mem_named_of_mem_log {s : Section} {l : Line} (h : (s, l) ∈ log steps) :
    s ∈ (run steps).named :=
  Grouping.mem_named_of_mem_lines ((mem_lines_run steps).mpr h)

theorem lines_run_ne_nil_iff {s : Section} :
    (run steps).lines s ≠ [] ↔ ∃ l, (s, l) ∈ log steps := by
  rw [ne_eq, List.eq_nil_iff_forall_not_mem, not_forall]
  simp only [not_not, mem_lines_run]

/-- Reading in canonical order sorts the log. -/
theorem canonical_run_sorts :
    ((run steps).canonical.flatMap fun e => e.2.map fun l => (e.1, l)) =
      stableSort (fun x => x.1.rank) (log steps) := by
  have hgrow := Section.pairwise_rank_canonical.filter fun s => (run steps).lines s ≠ []
  rw [Grouping.canonical_eq_map, List.flatMap_map, ← flatMap_filter_eq_stableSort hgrow]
  · apply List.flatMap_congr
    intro s _
    -- The section is lost with the log entries and comes back with the pairs.
    rw [lines_run, List.map_map]
    conv_rhs => rw [← List.map_id ((log steps).filter fun x => x.1 = s)]
    apply List.map_congr_left
    intro x hx
    rw [List.mem_filter, decide_eq_true_eq] at hx
    rw [← hx.2]
    rfl
  · intro x hx
    rw [List.mem_filter, decide_eq_true_eq, lines_run_ne_nil_iff]
    exact ⟨Section.mem_canonical _, x.2, hx⟩

/-- The listed sections are those of the log. -/
theorem mem_sections_run {s : Section} :
    s ∈ (run steps).sections ↔ ∃ l, (s, l) ∈ log steps := by
  rw [Grouping.sections_eq_filter (nodup_named_run steps), List.mem_filter, Bool.not_eq_true',
    List.isEmpty_eq_false_iff, lines_run_ne_nil_iff]
  constructor
  · exact And.right
  · rintro ⟨l, hl⟩
    exact ⟨mem_named_of_mem_log steps hl, l, hl⟩

/-- The lines with an index, section by section. -/
theorem any_lines_run_iff {s : Section} {i : Nat} :
    ((run steps).lines s).any (fun l => l.index == i) = true ↔
      ∃ l, (s, l) ∈ log steps ∧ l.index = i := by
  simp only [List.any_eq_true, mem_lines_run, beq_iff_eq]

/-- The section of an index is the first named one of those in the log. -/
theorem sectionOf?_run_eq_some_iff {i : Nat} {s : Section} :
    (run steps).sectionOf? i = some s ↔
      (∃ l, (s, l) ∈ log steps ∧ l.index = i) ∧
        ∀ x ∈ log steps, x.2.index = i →
          (namings steps).idxOf s ≤ (namings steps).idxOf x.1 := by
  rw [Grouping.sectionOf?_eq_find? (nodup_named_run steps),
    find?_eq_some_iff_least (pairwise_named_run steps)]
  simp only [any_lines_run_iff]
  constructor
  · rintro ⟨⟨-, hholds⟩, hfirst⟩
    refine ⟨hholds, ?_⟩
    intro x hx hi
    exact hfirst x.1 (mem_named_of_mem_log steps hx) ⟨x.2, hx, hi⟩
  · rintro ⟨⟨l, hl, hi⟩, hfirst⟩
    refine ⟨⟨mem_named_of_mem_log steps hl, l, hl, hi⟩, ?_⟩
    rintro t - ⟨m, hm, hmi⟩
    exact hfirst (t, m) hm hmi

/-- No section is found exactly if the log has no line with the index. -/
theorem sectionOf?_run_eq_none_iff {i : Nat} :
    (run steps).sectionOf? i = none ↔ ∀ x ∈ log steps, x.2.index ≠ i := by
  rw [Grouping.sectionOf?_eq_find? (nodup_named_run steps), List.find?_eq_none]
  simp only [any_lines_run_iff]
  constructor
  · intro hnone x hx hi
    exact hnone x.1 (mem_named_of_mem_log steps hx) ⟨x.2, hx, hi⟩
  · rintro hnone s - ⟨l, hl, hi⟩
    exact hnone (s, l) hl hi

end Insertion

/-- **A grouping refines the log of its insertions.** After every sequence of calls,
among them calls without lines, the lines of a section are those that the log has for
it, and the size is the length of the log. The sections of the log are read in
canonical order, each with its lines, and together they are the log in a stable order
by rank. They are also listed in the order of the first calls that named them, each
once. The section of an index is the first of them in this order that holds a line
with the index, and there is none exactly if the log has no such line. -/
theorem grouping_refines_log (steps : List Insertion) :
    (Insertion.run steps).Refines (Insertion.log steps) (Insertion.namings steps) where
  lines_eq := Insertion.lines_run steps
  size_eq := Insertion.size_run steps
  mem_canonical := by
    intro s
    rw [Grouping.map_fst_canonical, List.mem_filter, decide_eq_true_eq,
      Insertion.lines_run_ne_nil_iff]
    exact and_iff_right (Section.mem_canonical s)
  canonical_ranks := by
    rw [Grouping.map_fst_canonical]
    exact Section.pairwise_rank_canonical.filter _
  canonical_filled := by
    intro e he
    rw [Grouping.canonical_eq_map, List.mem_map] at he
    rcases he with ⟨s, hs, rfl⟩
    rw [List.mem_filter, decide_eq_true_eq] at hs
    exact hs.2
  canonical_sorts := Insertion.canonical_run_sorts steps
  mem_sections := fun _ => Insertion.mem_sections_run steps
  sections_nodup := by
    rw [Grouping.sections_eq_filter (Insertion.nodup_named_run steps)]
    exact (Insertion.nodup_named_run steps).filter _
  sections_order := by
    rw [Grouping.sections_eq_filter (Insertion.nodup_named_run steps)]
    exact (Insertion.pairwise_named_run steps).filter _
  sectionOf?_eq_some := fun _ _ => Insertion.sectionOf?_run_eq_some_iff steps
  sectionOf?_eq_none := fun _ => Insertion.sectionOf?_run_eq_none_iff steps

/-- A call without lines names a section. It holds the line that comes to it later in
front of the section that got the same line before. -/
example :
    let g := Insertion.run
      [.append .events [], .push .header ⟨0, 0, "a"⟩, .push .events ⟨0, 0, "a"⟩]
    g.sections = [.events, .header] ∧ g.sectionOf? 0 = some .events ∧
      g.canonical.map (·.1) = [.header, .events] := by
  decide

end MemberOrder
