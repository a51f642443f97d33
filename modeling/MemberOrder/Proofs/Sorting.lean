import Mathlib.Algebra.GroupWithZero.Nat
import Mathlib.Data.List.Nodup
import Mathlib.Data.List.ReduceOption
import MemberOrder.Proofs.Reordering

/-! # Reordering sorts the lines

Apart from the empty lines that it writes, reordering is a stable sort: the
lines come out by the rank of their section, and lines of one section keep
their order. The argument has three parts:

* a list that is cut into parts by a key and put together again part by part
  is the stable sort by the rank of the key (`flatMap_filter_eq_stableSort`);
* the reordered file is a sequence of slots, each with a line or with nothing
  (`Grouping.slots`), and leaving the empty slots out gives the parts;
* joining lines costs one byte for each line but one, whatever their order
  (`Text.byteLength_unlines`).
-/

namespace MemberOrder

/-! ## Stable sorting -/

section StableSort

variable {α ι : Type} [DecidableEq ι]

/-- The list in the order of a number that each element has; elements with the
same number keep their order. -/
def stableSort (rank : α → Nat) (l : List α) : List α :=
  l.mergeSort fun a b => rank a ≤ rank b

theorem stableSort_perm (rank : α → Nat) (l : List α) : (stableSort rank l).Perm l :=
  List.mergeSort_perm l _

theorem rank_le_trans (rank : α → Nat) (a b c : α) (hab : decide (rank a ≤ rank b) = true)
    (hbc : decide (rank b ≤ rank c) = true) : decide (rank a ≤ rank c) = true := by
  rw [decide_eq_true_eq] at hab hbc ⊢
  omega

theorem rank_le_total (rank : α → Nat) (a b : α) :
    (decide (rank a ≤ rank b) || decide (rank b ≤ rank a)) = true := by
  rw [Bool.or_eq_true, decide_eq_true_eq, decide_eq_true_eq]
  omega

/-- The sorted list is in the order of the numbers. -/
theorem pairwise_stableSort (rank : α → Nat) (l : List α) :
    (stableSort rank l).Pairwise fun a b => rank a ≤ rank b :=
  (List.pairwise_mergeSort (rank_le_trans rank) (rank_le_total rank) l).imp of_decide_eq_true

/-- Sorting does not touch the elements with one key, if the key decides the
rank. -/
theorem filter_stableSort (rank : ι → Nat) (key : α → ι) (l : List α) (k : ι) :
    (stableSort (fun a => rank (key a)) l).filter (fun a => key a = k) =
      l.filter fun a => key a = k := by
  -- Elements with one key are in order already, so they go through the sort as they are.
  have hordered : (l.filter fun a => key a = k).Pairwise fun a b =>
      decide (rank (key a) ≤ rank (key b)) = true := by
    apply List.pairwise_of_forall_mem_list
    intro a ha b hb
    rw [List.mem_filter, decide_eq_true_eq] at ha hb
    rw [ha.2, hb.2]
    exact decide_eq_true (Nat.le_refl _)
  have hsub : (l.filter fun a => key a = k).Sublist (stableSort (fun a => rank (key a)) l) :=
    List.sublist_mergeSort (rank_le_trans _) (rank_le_total _) hordered List.filter_sublist
  have hkept := hsub.filter fun a => decide (key a = k)
  rw [List.filter_filter] at hkept
  simp only [Bool.and_self] at hkept
  have hlength := ((stableSort_perm (fun a => rank (key a)) l).filter
    fun a => decide (key a = k)).length_eq
  exact (hkept.eq_of_length hlength.symm).symm

/-- Two lists in the order of their ranks are equal if they agree on the
elements of each key, and different keys have different ranks. -/
theorem eq_of_pairwise_of_filter_eq (rank : ι → Nat) (key : α → ι) {l m : List α}
    (hl : l.Pairwise fun a b => rank (key a) ≤ rank (key b))
    (hm : m.Pairwise fun a b => rank (key a) ≤ rank (key b))
    (hinj : ∀ a ∈ l, ∀ b ∈ m, rank (key a) = rank (key b) → key a = key b)
    (h : ∀ k, (l.filter fun a => key a = k) = m.filter fun a => key a = k) : l = m := by
  induction l generalizing m with
  | nil =>
    cases m with
    | nil => rfl
    | cons b m =>
      have hb := h (key b)
      simp at hb
  | cons a l ih =>
    cases m with
    | nil =>
      have ha := h (key a)
      simp at ha
    | cons b m =>
      rw [List.pairwise_cons] at hl hm
      -- Each of the two heads occurs in the other list, so neither rank is larger.
      have hkey : key a = key b := by
        have ha : a ∈ (b :: m).filter fun c => key c = key a := by
          rw [← h]
          simp
        have hb : b ∈ (a :: l).filter fun c => key c = key b := by
          rw [h]
          simp
        rw [List.mem_filter, List.mem_cons] at ha hb
        rcases ha.1 with rfl | ha
        · rfl
        · rcases hb.1 with rfl | hb
          · rfl
          · have hab := hl.1 b hb
            have hba := hm.1 a ha
            exact hinj a List.mem_cons_self b List.mem_cons_self (by omega)
      have hheads := h (key a)
      rw [List.filter_cons_of_pos (by simp), List.filter_cons_of_pos (by simp [hkey])] at hheads
      obtain ⟨rfl, -⟩ := List.cons.inj hheads
      congr 1
      apply ih hl.2 hm.2
      · intro c hc d hd
        exact hinj c (List.mem_cons_of_mem _ hc) d (List.mem_cons_of_mem _ hd)
      · intro k
        have hk := h k
        -- The common head is taken off the part with its key; the other parts do not have it.
        by_cases hak : key a = k
        · rw [List.filter_cons_of_pos (by simp [hak]), List.filter_cons_of_pos (by simp [hak])]
            at hk
          exact (List.cons.inj hk).2
        · rwa [List.filter_cons_of_neg (by simp [hak]), List.filter_cons_of_neg (by simp [hak])]
            at hk

/-- The part with one key of a list that is put together from its parts. -/
theorem filter_flatMap_filter {key : α → ι} {keys : List ι} (hnodup : keys.Nodup) {k : ι}
    (hk : k ∈ keys) (l : List α) :
    (keys.flatMap fun k' => l.filter fun a => key a = k').filter (fun a => key a = k) =
      l.filter fun a => key a = k := by
  have hpart : ∀ k', (l.filter fun a => key a = k').filter (fun a => key a = k) =
      if k' = k then l.filter fun a => key a = k else [] := by
    intro k'
    split
    · rename_i heq
      rw [heq, List.filter_filter]
      simp only [Bool.and_self]
    · rename_i hne
      rw [List.filter_eq_nil_iff]
      intro a ha hak
      rw [List.mem_filter, decide_eq_true_eq] at ha
      rw [decide_eq_true_eq] at hak
      exact hne (ha.2.symm.trans hak)
  have hnone : ∀ ks : List ι, k ∉ ks →
      (ks.flatMap fun k' => if k' = k then l.filter fun a => key a = k else []) = [] := by
    intro ks hks
    rw [List.flatMap_eq_nil_iff]
    intro k' hk'
    rw [if_neg]
    rintro rfl
    exact hks hk'
  -- The key stands at one place in the list, so one part is left.
  obtain ⟨before, after, rfl⟩ := List.append_of_mem hk
  rw [List.nodup_middle, List.nodup_cons, List.mem_append, not_or] at hnodup
  rw [List.filter_flatMap]
  simp only [hpart]
  rw [List.flatMap_append, List.flatMap_cons, hnone before hnodup.1.1, hnone after hnodup.1.2,
    if_pos rfl, List.nil_append, List.append_nil]

/-- Cutting a list into parts by a key and putting the parts together by
growing rank is the stable sort by the rank of the key. -/
theorem flatMap_filter_eq_stableSort {rank : ι → Nat} {key : α → ι} {keys : List ι} {l : List α}
    (hgrow : keys.Pairwise fun k k' => rank k < rank k') (hkeys : ∀ a ∈ l, key a ∈ keys) :
    (keys.flatMap fun k => l.filter fun a => key a = k) =
      stableSort (fun a => rank (key a)) l := by
  have hranks : (keys.map rank).Nodup := (List.pairwise_map.mpr hgrow).imp Nat.ne_of_lt
  have hmem : ∀ a ∈ keys.flatMap (fun k => l.filter fun a => key a = k), a ∈ l := by
    intro a ha
    obtain ⟨k, -, ha⟩ := List.mem_flatMap.mp ha
    exact List.mem_of_mem_filter ha
  apply eq_of_pairwise_of_filter_eq rank key
  · -- Within a part all ranks are equal, and from part to part they grow.
    rw [List.pairwise_flatMap]
    constructor
    · intro k _
      apply List.pairwise_of_forall_mem_list
      intro a ha b hb
      rw [List.mem_filter, decide_eq_true_eq] at ha hb
      have hsame : key a = key b := ha.2.trans hb.2.symm
      exact Nat.le_of_eq (congrArg rank hsame)
    · apply hgrow.imp
      intro k k' hlt a ha b hb
      rw [List.mem_filter, decide_eq_true_eq] at ha hb
      rw [ha.2, hb.2]
      exact Nat.le_of_lt hlt
  · exact pairwise_stableSort _ l
  · intro a ha b hb heq
    have ha' := hkeys a (hmem a ha)
    have hb' := hkeys b ((stableSort_perm _ l).mem_iff.mp hb)
    exact List.inj_on_of_nodup_map hranks ha' hb' heq
  · intro k
    rw [filter_stableSort]
    by_cases hk : k ∈ keys
    · exact filter_flatMap_filter (List.Nodup.of_map _ hranks) hk l
    · -- No element has a key that is not in the list.
      have hnone : ∀ m : List α, (∀ a ∈ m, a ∈ l) → (m.filter fun a => key a = k) = [] := by
        intro m hm
        rw [List.filter_eq_nil_iff]
        intro a ha hak
        rw [decide_eq_true_eq] at hak
        exact hk (hak ▸ hkeys a (hm a ha))
      rw [hnone _ hmem, hnone l fun a ha => ha]

end StableSort

/-! ## Bytes of joined lines -/

/-- Every line costs its own bytes and one more, but there is no line feed
behind the last. -/
theorem Text.byteLength_unlines {ts : List Text} (h : ts ≠ []) :
    (unlines ts).byteLength + 1 = (ts.map fun t => t.byteLength + 1).sum := by
  induction ts with
  | nil => exact absurd rfl h
  | cons t ts ih =>
    -- One line has no line feed, and each further line brings one.
    cases ts with
    | nil => simp [unlines]
    | cons u us =>
      have hrest := ih (List.cons_ne_nil u us)
      have hfeed : byteLength ['\n'] = 1 := rfl
      rw [unlines, join_cons (List.cons_ne_nil u us), byteLength_append, byteLength_append, hfeed,
        List.map_cons, List.sum_cons, ← hrest, unlines]
      omega

/-! ## Slots -/

/-- A list of options is made of its values and of as many `none` as it has. -/
theorem perm_map_some_reduceOption {α : Type} [DecidableEq α] (os : List (Option α)) :
    os.Perm (os.reduceOption.map some ++ List.replicate (os.count none) none) := by
  induction os with
  | nil => exact List.Perm.nil
  | cons o os ih =>
    cases o with
    | some a =>
      rw [List.reduceOption_cons_of_some, List.count_cons_of_ne (by simp)]
      exact ih.cons (some a)
    | none =>
      rw [List.reduceOption_cons_of_none, List.count_cons_self, List.replicate_succ]
      exact (ih.cons none).trans List.perm_middle.symm

namespace Grouping

/-- The section that is found for a line. A line in none of them counts as
uncategorized. -/
def sectionOf (g : Grouping) (l : Line) : Section := (g.sectionOf? l.index).getD .uncategorized

/-- What a section takes up in the reordered file: a slot for each of its
lines and, unless it is the last section, an empty slot behind them. A section
without lines takes up nothing. -/
def slots (g : Grouping) (s : Section) : List (Option Line) :=
  if g.lines s = [] then []
  else (g.lines s).map some ++ if s = .uncategorized then [] else [none]

/-- What is written into a slot. -/
def slotText (o : Option Line) : Text := o.elim [] Line.text

/-- The slots of a section say what is written for it. -/
theorem map_slotText_slots (g : Grouping) (s : Section) :
    (g.slots s).map slotText = if g.lines s = [] then [] else written (s, g.lines s) := by
  unfold slots
  split
  · rfl
  · rw [written, List.map_append, List.map_map]
    congr 1
    split
    · rfl
    · rfl

/-- Without its empty slot a section shows its lines. -/
theorem reduceOption_slots (g : Grouping) (s : Section) :
    (g.slots s).reduceOption = g.lines s := by
  unfold slots
  split
  · rename_i hnone
    rw [hnone]
    rfl
  · rw [List.reduceOption_append]
    have hlines : ((g.lines s).map some).reduceOption = g.lines s := by
      simp [List.reduceOption]
    split
    · rw [hlines, List.reduceOption_nil, List.append_nil]
    · rw [hlines, List.reduceOption_cons_of_none, List.reduceOption_nil, List.append_nil]

/-- A section has an empty slot if it holds lines and is not the last. -/
theorem count_none_slots (g : Grouping) (s : Section) :
    (g.slots s).count none = if s ≠ .uncategorized ∧ g.lines s ≠ [] then 1 else 0 := by
  have hlines : ((g.lines s).map some).count none = 0 := by
    rw [List.count_eq_zero]
    simp
  unfold slots
  -- Without lines there is no slot at all.
  split
  · rename_i hnone
    simp [hnone]
  · rename_i hsome
    rw [List.count_append, hlines]
    split
    · rename_i hs
      simp [hs]
    · rename_i hs
      simp [hs, hsome]

/-- The slots of all sections, in canonical order. -/
def allSlots (g : Grouping) : List (Option Line) := Section.canonical.flatMap g.slots

/-- The sections behind which an empty slot is left. -/
def separated (g : Grouping) : List Section :=
  Section.canonical.filter fun s => s ≠ .uncategorized ∧ g.lines s ≠ []

/-- The slots say what is written. -/
theorem map_slotText_allSlots (g : Grouping) : g.allSlots.map slotText = g.arranged := by
  have hskip : ∀ secs : List Section,
      (secs.flatMap fun s => if g.lines s = [] then [] else written (s, g.lines s)) =
        (secs.filter fun s => g.lines s ≠ []).flatMap fun s => written (s, g.lines s) := by
    intro secs
    induction secs with
    | nil => rfl
    | cons s secs ih =>
      rw [List.flatMap_cons, ih]
      by_cases hs : g.lines s = []
      · simp [hs]
      · simp [hs]
  rw [allSlots, arranged, canonical_eq_map, List.map_flatMap, List.flatMap_map, ← hskip]
  apply List.flatMap_congr
  intro s _
  exact map_slotText_slots g s

/-- Without the empty slots, the lines of all sections are left. -/
theorem reduceOption_allSlots (g : Grouping) :
    g.allSlots.reduceOption = Section.canonical.flatMap g.lines := by
  rw [allSlots, List.reduceOption, List.filterMap_flatMap]
  apply List.flatMap_congr
  intro s _
  exact reduceOption_slots g s

/-- There are as many empty slots as separated sections with lines. -/
theorem count_none_allSlots (g : Grouping) : g.allSlots.count none = g.separated.length := by
  unfold allSlots separated
  generalize Section.canonical = secs
  induction secs with
  | nil => rfl
  | cons s secs ih =>
    rw [List.flatMap_cons, List.count_append, ih, count_none_slots, List.filter_cons]
    by_cases hs : s ≠ .uncategorized ∧ g.lines s ≠ []
    · rw [if_pos hs, if_pos (decide_eq_true hs), List.length_cons]
      omega
    · rw [if_neg hs, if_neg (by simpa using hs)]
      omega

end Grouping

/-! ## The sections of a classified source -/

namespace Classification

variable (counting : BraceCounting) (source : Text)

/-- A section holds the lines whose section it is. -/
theorem lines_grouping_eq_filter_sectionOf (s : Section) :
    (ofSource counting source).grouping.lines s =
      (Line.ofSource source).filter fun l =>
        (ofSource counting source).grouping.sectionOf l = s := by
  rw [lines_grouping_eq_filter]
  apply List.filter_congr
  intro l hl
  have hi := (Line.exists_index_iff source l.index).mp ⟨l, hl, rfl⟩
  have hsome := (isSome_sectionOf?_grouping_iff counting source l.index).mpr hi
  obtain ⟨t, ht⟩ := Option.isSome_iff_exists.mp hsome
  simp [Grouping.sectionOf, ht]

/-- The lines of all sections are the lines of the source, sorted. -/
theorem flatMap_lines_grouping :
    Section.canonical.flatMap (ofSource counting source).grouping.lines =
      stableSort (fun l => ((ofSource counting source).grouping.sectionOf l).rank)
        (Line.ofSource source) := by
  rw [← flatMap_filter_eq_stableSort Section.pairwise_rank_canonical fun l _ =>
    Section.mem_canonical _]
  apply List.flatMap_congr
  intro s _
  exact lines_grouping_eq_filter_sectionOf counting source s

/-- The lines that are written are those of the source and the empty ones. -/
theorem perm_arranged_grouping :
    (ofSource counting source).grouping.arranged.Perm (source.lines ++
      List.replicate (ofSource counting source).grouping.separated.length []) := by
  have hslots := perm_map_some_reduceOption (ofSource counting source).grouping.allSlots
  rw [Grouping.reduceOption_allSlots, Grouping.count_none_allSlots] at hslots
  have hsource : ((Line.ofSource source).map some).map Grouping.slotText = source.lines := by
    rw [List.map_map]
    exact Line.map_text_number 0 0 source.lines
  have hlines := (perm_flatMap_lines_grouping counting source).map some
  have hall := (hslots.trans (hlines.append_right _)).map Grouping.slotText
  rw [List.map_append, hsource, List.map_replicate, Grouping.map_slotText_allSlots] at hall
  exact hall

/-- Splitting the reordered text gives the lines that were written: there is at
least one, and none has a line feed in it. -/
theorem lines_reorder :
    (reorder counting source).lines = (ofSource counting source).grouping.arranged := by
  have hperm := perm_arranged_grouping counting source
  apply Text.lines_unlines
  · intro hnil
    rw [hnil, List.nil_perm, List.append_eq_nil_iff] at hperm
    exact Text.lines_ne_nil source hperm.1
  · intro t ht
    rw [hperm.mem_iff, List.mem_append] at ht
    rcases ht with ht | ht
    · exact Text.not_mem_of_mem_lines ht
    · rw [List.eq_of_mem_replicate ht]
      exact List.not_mem_nil

end Classification

/-- **Reordering is a stable sort.** The reordered text has a line for each
slot: section by section in canonical order, the lines of the section in
source order and one empty slot behind them. Without the empty slots, of which
there is one for each section that holds lines and is not the last, the lines
are sorted by the rank of their sections, and stably. So the lines are those of
the source and the empty ones, and each empty line costs one byte. -/
theorem reorder_sorts_lines (counting : BraceCounting) (source : Text) :
    let g := (Classification.ofSource counting source).grouping
    (∀ s, g.lines s = (Line.ofSource source).filter fun l => g.sectionOf l = s) ∧
      (reorder counting source).lines = g.allSlots.map Grouping.slotText ∧
      g.allSlots.count none = g.separated.length ∧
      g.allSlots.reduceOption =
        stableSort (fun l => (g.sectionOf l).rank) (Line.ofSource source) ∧
      (reorder counting source).lines.Perm
        (source.lines ++ List.replicate g.separated.length []) ∧
      (reorder counting source).byteLength = source.byteLength + g.separated.length := by
  intro g
  have hlines : (reorder counting source).lines = g.arranged :=
    Classification.lines_reorder counting source
  have hperm : (reorder counting source).lines.Perm
      (source.lines ++ List.replicate g.separated.length []) := by
    rw [hlines]
    exact Classification.perm_arranged_grouping counting source
  refine ⟨Classification.lines_grouping_eq_filter_sectionOf counting source, ?_,
    Grouping.count_none_allSlots g, ?_, hperm, ?_⟩
  · rw [hlines, Grouping.map_slotText_allSlots]
  · rw [Grouping.reduceOption_allSlots]
    exact Classification.flatMap_lines_grouping counting source
  · -- The bytes of a text are a sum over its lines, in whatever order.
    have hbytes := (hperm.map fun t => t.byteLength + 1).sum_nat
    have hout := Text.byteLength_unlines (Text.lines_ne_nil (reorder counting source))
    have hin := Text.byteLength_unlines (Text.lines_ne_nil source)
    rw [Text.unlines_lines] at hout hin
    rw [List.map_append, List.sum_append, List.map_replicate, List.sum_replicate_nat,
      Text.byteLength_nil] at hbytes
    omega

end MemberOrder
