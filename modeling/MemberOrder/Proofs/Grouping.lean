import Mathlib.Data.List.Induction
import Mathlib.Data.List.Nodup
import MemberOrder.Grouping

/-! # Groupings and the calls that build them

A grouping is built by a sequence of calls, each of which puts lines into one
section. What can be read from the grouping is then a function of the calls:

* the lines of a section are the lines of its calls, one after another
  (`lines_ofCalls`);
* the sections are named in the order of their first call
  (`pairwise_named_ofCalls`), each once (`nodup_named_ofCalls`);
* if no two lines share an index, the section that is found for an index is
  the one whose call brought the line (`sectionOf?_ofCalls_eq_some_iff`);
* if every call brings lines and the indices grow, the sections come in the
  order of their smallest indices (`pairwise_startsBefore_ofCalls`).
-/

namespace MemberOrder
namespace Grouping

/-! ## The sections that were named -/

/-- All sections that were named, with lines or without, in the order of the
first naming. -/
def named (g : Grouping) : List Section := g.entries.map (·.1)

/-- Adding lines keeps the sections that are there, and a new one comes last. -/
theorem map_fst_addTo (s : Section) (ls : List Line) (es : List (Section × List Line)) :
    (addTo s ls es).map (·.1) =
      if s ∈ es.map (·.1) then es.map (·.1) else es.map (·.1) ++ [s] := by
  induction es with
  | nil => simp [addTo]
  | cons e es ih =>
    obtain ⟨k, old⟩ := e
    -- The section is the first one, or it is looked for behind it.
    by_cases hk : k = s
    · simp [addTo, hk]
    · have hk' : s ≠ k := fun h => hk h.symm
      simp only [addTo, if_neg hk, List.map_cons, ih, List.mem_cons, hk', false_or]
      split
      · rfl
      · rfl

/-- A call names its section at the end, unless it was named before. -/
theorem named_append (g : Grouping) (s : Section) (ls : List Line) :
    (g.append s ls).named = if s ∈ g.named then g.named else g.named ++ [s] :=
  map_fst_addTo s ls g.entries

/-- No section is named twice. -/
theorem nodup_named_append {g : Grouping} (h : g.named.Nodup) (s : Section) (ls : List Line) :
    (g.append s ls).named.Nodup := by
  rw [named_append]
  split
  · exact h
  · rename_i hs
    rw [List.nodup_append]
    refine ⟨h, List.nodup_singleton s, ?_⟩
    intro a ha b hb hab
    rw [List.mem_singleton] at hb
    exact hs (hb ▸ hab ▸ ha)

/-! ## Reading a grouping section by section

Each named section has one entry, so the entries can be read off the named
sections and their lines. -/

/-- With one entry for each section, looking a section up finds its entry. -/
theorem lookup_of_mem {es : List (Section × List Line)} (h : (es.map (·.1)).Nodup)
    {s : Section} {ls : List Line} (hmem : (s, ls) ∈ es) : es.lookup s = some ls := by
  induction es with
  | nil => simp at hmem
  | cons e es ih =>
    obtain ⟨k, old⟩ := e
    rw [List.map_cons, List.nodup_cons] at h
    rcases List.mem_cons.mp hmem with heq | hmem
    · cases heq
      simp
    · have hs : s ∈ es.map (·.1) := List.mem_map_of_mem hmem
      have hne : (s == k) = false := by
        rw [beq_eq_false_iff_ne]
        intro hsk
        exact h.1 (hsk ▸ hs)
      rw [List.lookup_cons, hne]
      exact ih h.2 hmem

/-- The entries are the named sections with their lines. -/
theorem entries_eq {g : Grouping} (h : g.named.Nodup) :
    g.entries = g.named.map fun s => (s, g.lines s) := by
  rw [named, List.map_map]
  conv_lhs => rw [← List.map_id g.entries]
  apply List.map_congr_left
  intro e he
  have hlook : g.entries.lookup e.1 = some e.2 := lookup_of_mem h he
  simp [lines, hlook]

theorem sections_eq_filter {g : Grouping} (h : g.named.Nodup) :
    g.sections = g.named.filter fun s => !(g.lines s).isEmpty := by
  rw [sections, entries_eq h, List.filter_map, List.map_map]
  simp [Function.comp_def]

/-- The section of an index is the first named one with such a line. -/
theorem sectionOf?_eq_find? {g : Grouping} (h : g.named.Nodup) (i : Nat) :
    g.sectionOf? i = g.named.find? fun s => (g.lines s).any fun l => l.index == i := by
  rw [sectionOf?, entries_eq h, List.find?_map, Option.map_map]
  simp [Function.comp_def]

/-- Only a named section has lines. -/
theorem mem_named_of_mem_lines {g : Grouping} {s : Section} {l : Line} (h : l ∈ g.lines s) :
    s ∈ g.named := by
  by_contra hs
  have hnone : g.entries.lookup s = none := by
    rw [List.lookup_eq_none_iff]
    intro e he
    rw [bne_iff_ne]
    intro hse
    exact hs (hse ▸ List.mem_map_of_mem he)
  simp [lines, hnone] at h

/-! ## Sequences of calls -/

/-- The grouping after a sequence of calls. -/
def ofCalls (calls : List (Section × List Line)) : Grouping :=
  calls.foldl (fun g c => g.append c.1 c.2) empty

/-- The lines that the calls put into a section. -/
def linesIn (s : Section) (calls : List (Section × List Line)) : List Line :=
  calls.flatMap fun c => if s = c.1 then c.2 else []

/-- All lines that the calls put somewhere. -/
def allLines (calls : List (Section × List Line)) : List Line := calls.flatMap (·.2)

@[simp] theorem ofCalls_concat (calls : List (Section × List Line)) (c : Section × List Line) :
    ofCalls (calls ++ [c]) = (ofCalls calls).append c.1 c.2 := by
  simp [ofCalls]

@[simp] theorem linesIn_concat (s : Section) (calls : List (Section × List Line))
    (c : Section × List Line) :
    linesIn s (calls ++ [c]) = linesIn s calls ++ if s = c.1 then c.2 else [] := by
  simp [linesIn]

@[simp] theorem allLines_concat (calls : List (Section × List Line)) (c : Section × List Line) :
    allLines (calls ++ [c]) = allLines calls ++ c.2 := by
  simp [allLines]

/-- The lines of a section are the lines of its calls. -/
theorem lines_ofCalls (s : Section) (calls : List (Section × List Line)) :
    (ofCalls calls).lines s = linesIn s calls := by
  induction calls using List.reverseRecOn with
  | nil => rfl
  | append_singleton calls c ih => rw [ofCalls_concat, lines_append, ih, linesIn_concat]

/-- The size counts the lines of all calls. -/
theorem size_ofCalls (calls : List (Section × List Line)) :
    (ofCalls calls).size = (allLines calls).length := by
  induction calls using List.reverseRecOn with
  | nil => rfl
  | append_singleton calls c ih =>
    rw [ofCalls_concat, size_append, ih, allLines_concat, List.length_append]

/-- However often a section is called, it is named once. -/
theorem nodup_named_ofCalls (calls : List (Section × List Line)) :
    (ofCalls calls).named.Nodup := by
  induction calls using List.reverseRecOn with
  | nil => exact List.nodup_nil
  | append_singleton calls c ih =>
    rw [ofCalls_concat]
    exact nodup_named_append ih c.1 c.2

/-- The named sections are those of the calls, also of calls without lines. -/
theorem mem_named_ofCalls {s : Section} {calls : List (Section × List Line)} :
    s ∈ (ofCalls calls).named ↔ s ∈ calls.map (·.1) := by
  induction calls using List.reverseRecOn with
  | nil => exact Iff.rfl
  | append_singleton calls c ih =>
    rw [ofCalls_concat, named_append, List.map_append, List.mem_append, ← ih]
    -- The last call names a section again, or it names a new one.
    split
    · rename_i hc
      constructor
      · exact .inl
      · rintro (hs | hs)
        · exact hs
        · exact List.mem_singleton.mp hs ▸ hc
    · exact List.mem_append

/-- The sections are named in the order of their first calls. -/
theorem pairwise_named_ofCalls (calls : List (Section × List Line)) :
    (ofCalls calls).named.Pairwise fun s t =>
      (calls.map (·.1)).idxOf s < (calls.map (·.1)).idxOf t := by
  induction calls using List.reverseRecOn with
  | nil => exact List.Pairwise.nil
  | append_singleton calls c ih =>
    -- The last call does not move the first call of a section that was named before.
    have hkept : ∀ s ∈ (ofCalls calls).named,
        ((calls ++ [c]).map (·.1)).idxOf s = (calls.map (·.1)).idxOf s := by
      intro s hs
      rw [List.map_append, List.idxOf_append_of_mem (mem_named_ofCalls.mp hs)]
    have hold : (ofCalls calls).named.Pairwise fun s t =>
        ((calls ++ [c]).map (·.1)).idxOf s < ((calls ++ [c]).map (·.1)).idxOf t := by
      apply ih.imp_of_mem
      intro s t hs ht hlt
      rwa [hkept s hs, hkept t ht]
    rw [ofCalls_concat, named_append]
    split
    · exact hold
    · rename_i hc
      rw [List.pairwise_append]
      refine ⟨hold, List.pairwise_singleton _ _, ?_⟩
      intro s hs t ht
      rw [List.mem_singleton] at ht
      rw [mem_named_ofCalls] at hc
      rw [hkept s hs, ht, List.map_append, List.idxOf_append_of_notMem hc]
      exact Nat.lt_add_right _ (List.idxOf_lt_length_of_mem (mem_named_ofCalls.mp hs))

/-- A line is in a section if a call for this section brought it. -/
theorem mem_linesIn {s : Section} {calls : List (Section × List Line)} {l : Line} :
    l ∈ linesIn s calls ↔ ∃ c ∈ calls, s = c.1 ∧ l ∈ c.2 := by
  rw [linesIn, List.mem_flatMap]
  constructor
  · rintro ⟨c, hc, hl⟩
    by_cases hs : s = c.1
    · rw [if_pos hs] at hl
      exact ⟨c, hc, hs, hl⟩
    · simp [hs] at hl
  · rintro ⟨c, hc, hs, hl⟩
    exact ⟨c, hc, by rwa [if_pos hs]⟩

theorem mem_linesIn_concat {s : Section} {calls : List (Section × List Line)}
    {c : Section × List Line} {l : Line} :
    l ∈ linesIn s (calls ++ [c]) ↔ l ∈ linesIn s calls ∨ s = c.1 ∧ l ∈ c.2 := by
  simp only [mem_linesIn, List.mem_append, List.mem_singleton, or_and_right, exists_or,
    exists_eq_left]

/-- The lines of one section are some of all lines, in the same order. -/
theorem linesIn_sublist (s : Section) (calls : List (Section × List Line)) :
    (linesIn s calls).Sublist (allLines calls) := by
  induction calls using List.reverseRecOn with
  | nil => exact List.Sublist.refl _
  | append_singleton calls c ih =>
    rw [linesIn_concat, allLines_concat]
    apply List.Sublist.append ih
    split
    · exact List.Sublist.refl _
    · exact List.nil_sublist _

/-! ## The section of an index -/

/-- Lines with distinct indices lie in one section each. -/
theorem section_unique {calls : List (Section × List Line)}
    (hnd : ((allLines calls).map (·.index)).Nodup) {s t : Section} {l m : Line}
    (hl : l ∈ linesIn s calls) (hm : m ∈ linesIn t calls) (heq : l.index = m.index) : s = t := by
  induction calls using List.reverseRecOn with
  | nil => simp [linesIn] at hl
  | append_singleton calls c ih =>
    rw [allLines_concat, List.map_append, List.nodup_append] at hnd
    obtain ⟨hold, -, hapart⟩ := hnd
    -- An old line and a line of the last call cannot share an index.
    have hcross : ∀ {u : Section} {a b : Line}, a ∈ linesIn u calls → b ∈ c.2 →
        a.index ≠ b.index := by
      intro u a b ha hb
      have ha' : a ∈ allLines calls := (linesIn_sublist u calls).subset ha
      exact hapart _ (List.mem_map_of_mem ha') _ (List.mem_map_of_mem hb)
    rw [mem_linesIn_concat] at hl hm
    -- Two old lines, one old and one new, or two of the last call.
    rcases hl with hl | ⟨hs, hl⟩ <;> rcases hm with hm | ⟨ht, hm⟩
    · exact ih hold hl hm
    · exact absurd heq (hcross hl hm)
    · exact absurd heq.symm (hcross hm hl)
    · exact hs.trans ht.symm

/-- The section that is found for an index is the one that holds a line with
this index. -/
theorem sectionOf?_ofCalls_eq_some_iff {calls : List (Section × List Line)}
    (hnd : ((allLines calls).map (·.index)).Nodup) (i : Nat) (s : Section) :
    (ofCalls calls).sectionOf? i = some s ↔ ∃ l ∈ linesIn s calls, l.index = i := by
  have hfound : ∀ t, ((ofCalls calls).lines t).any (fun l => l.index == i) = true ↔
      ∃ l ∈ linesIn t calls, l.index = i := by
    intro t
    simp [lines_ofCalls]
  rw [sectionOf?_eq_find? (nodup_named_ofCalls calls)]
  constructor
  · intro h
    have hs := List.find?_some h
    exact (hfound s).mp hs
  · rintro ⟨l, hl, hi⟩
    have hs : s ∈ (ofCalls calls).named := by
      apply mem_named_of_mem_lines (l := l)
      rw [lines_ofCalls]
      exact hl
    -- The search cannot fail, and what it finds holds a line with the same index.
    cases hfind : (ofCalls calls).named.find? fun t =>
        ((ofCalls calls).lines t).any fun l => l.index == i with
    | none =>
      have hno := List.find?_eq_none.mp hfind s hs
      exact absurd ((hfound s).mpr ⟨l, hl, hi⟩) hno
    | some t =>
      have ht := List.find?_some hfind
      obtain ⟨m, hm, hmi⟩ := (hfound t).mp ht
      rw [section_unique hnd hl hm (hi.trans hmi.symm)]

/-- A line that was brought is found in the section of its call. -/
theorem sectionOf?_ofCalls_of_mem {calls : List (Section × List Line)}
    (hnd : ((allLines calls).map (·.index)).Nodup) {c : Section × List Line} {l : Line}
    (hc : c ∈ calls) (hl : l ∈ c.2) : (ofCalls calls).sectionOf? l.index = some c.1 := by
  rw [sectionOf?_ofCalls_eq_some_iff hnd]
  exact ⟨l, mem_linesIn.mpr ⟨c, hc, rfl, hl⟩, rfl⟩

/-- A section holds exactly the lines for whose index it is found. -/
theorem linesIn_eq_filter {calls : List (Section × List Line)}
    (hnd : ((allLines calls).map (·.index)).Nodup) (s : Section) :
    linesIn s calls =
      (allLines calls).filter fun l => (ofCalls calls).sectionOf? l.index = some s := by
  rw [linesIn, allLines, List.filter_flatMap]
  apply List.flatMap_congr
  intro c hc
  have hsec : ∀ l ∈ c.2, (ofCalls calls).sectionOf? l.index = some c.1 := by
    intro l hl
    exact sectionOf?_ofCalls_of_mem hnd hc hl
  -- A call keeps all its lines for its own section and none for another.
  by_cases hs : s = c.1
  · rw [if_pos hs, List.filter_eq_self.mpr]
    intro l hl
    simp [hsec l hl, hs]
  · rw [if_neg hs, List.filter_eq_nil_iff.mpr]
    intro l hl
    simpa [hsec l hl] using fun h => hs h.symm

/-! ## The order of the sections -/

/-- Some line of `s` stands before all lines of `t`. -/
def StartsBefore (g : Grouping) (s t : Section) : Prop :=
  ∃ l ∈ g.lines s, ∀ m ∈ g.lines t, l.index < m.index

/-- What a call with new, later lines keeps: no named section is without
lines, and they are named in the order in which they start. -/
theorem startsBefore_append {g : Grouping} {s : Section} {ls : List Line}
    (hne : ∀ t ∈ g.named, g.lines t ≠ []) (hord : g.named.Pairwise g.StartsBefore)
    (hls : ls ≠ []) (hlater : ∀ t, ∀ l ∈ g.lines t, ∀ m ∈ ls, l.index < m.index) :
    (∀ t ∈ (g.append s ls).named, (g.append s ls).lines t ≠ []) ∧
      (g.append s ls).named.Pairwise (g.append s ls).StartsBefore := by
  -- The new lines come later, so no section starts earlier than it did.
  have hkept : ∀ {t u}, g.StartsBefore t u → (g.append s ls).StartsBefore t u := by
    rintro t u ⟨l, hl, hbefore⟩
    refine ⟨l, ?_, ?_⟩
    · rw [lines_append]
      exact List.mem_append_left _ hl
    · intro m hm
      rw [lines_append, List.mem_append] at hm
      rcases hm with hm | hm
      · exact hbefore m hm
      · split at hm
        · exact hlater t l hl m hm
        · simp at hm
  have hold : ∀ t ∈ g.named, (g.append s ls).lines t ≠ [] := by
    intro t ht h
    rw [lines_append, List.append_eq_nil_iff] at h
    exact hne t ht h.1
  rw [named_append]
  split
  · exact ⟨hold, hord.imp hkept⟩
  · rename_i hs
    -- A new section starts behind all that were there.
    have hnone : g.lines s = [] := by
      rw [List.eq_nil_iff_forall_not_mem]
      intro l hl
      exact hs (mem_named_of_mem_lines hl)
    constructor
    · intro t ht
      rcases List.mem_append.mp ht with ht | ht
      · exact hold t ht
      · rw [List.mem_singleton] at ht
        simp [ht, lines_append, hls]
    · rw [List.pairwise_append]
      refine ⟨hord.imp hkept, List.pairwise_singleton _ _, ?_⟩
      intro t ht u hu
      rw [List.mem_singleton] at hu
      subst hu
      obtain ⟨l, hl⟩ := List.exists_mem_of_ne_nil _ (hne t ht)
      refine ⟨l, ?_, ?_⟩
      · rw [lines_append]
        exact List.mem_append_left _ hl
      · intro m hm
        rw [lines_append, hnone] at hm
        exact hlater t l hl m (by simpa using hm)

/-- If every call brings lines and the indices grow, the sections are named in
the order in which they start. -/
theorem pairwise_startsBefore_ofCalls {calls : List (Section × List Line)}
    (hne : ∀ c ∈ calls, c.2 ≠ [])
    (hinc : (allLines calls).Pairwise fun l m => l.index < m.index) :
    (∀ s ∈ (ofCalls calls).named, (ofCalls calls).lines s ≠ []) ∧
      (ofCalls calls).named.Pairwise (ofCalls calls).StartsBefore := by
  induction calls using List.reverseRecOn with
  | nil => exact ⟨fun s hs => absurd hs List.not_mem_nil, List.Pairwise.nil⟩
  | append_singleton calls c ih =>
    rw [allLines_concat, List.pairwise_append] at hinc
    obtain ⟨hinc, -, hlater⟩ := hinc
    obtain ⟨hlines, hord⟩ := ih (fun d hd => hne d (List.mem_append_left _ hd)) hinc
    rw [ofCalls_concat]
    apply startsBefore_append hlines hord
    · exact hne c (by simp)
    · intro t l hl m hm
      rw [lines_ofCalls] at hl
      exact hlater l ((linesIn_sublist t calls).subset hl) m hm

end Grouping
end MemberOrder
