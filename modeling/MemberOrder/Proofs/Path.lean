import Mathlib.Data.List.Basic
import Mathlib.Tactic.MkIffOfInductiveProp
import MemberOrder.FileTree.Path

/-! # Paths below a path

A name that is joined to a path adds one component to it, however the path is
spelled: with dots, with slashes that follow each other, or with one at its end
(`Path.components_join`). So the path of something below a directory, seen from
this directory, is the names on the way, divided by slashes
(`Path.relativeTo_descend`). -/

namespace MemberOrder

namespace Path

/-- A name that something in a directory can have: it has a character, none of
its characters is a slash, and it is not one of the two names that lead to a
directory as such. -/
@[mk_iff]
structure IsFileName (n : Text) : Prop where
  ne_nil : n ≠ []
  no_slash : '/' ∉ n
  ne_dot : n ≠ "."
  ne_dots : n ≠ ".."

instance (n : Text) : Decidable (IsFileName n) := decidable_of_iff' _ (isFileName_iff n)

/-- A name that a file can have is a component of its own. -/
theorem IsFileName.component? {n : Text} (h : IsFileName n) :
    Path.component? n = some (.named n) := by
  simp only [Path.component?, Bool.or_eq_true, decide_eq_true_eq]
  rw [if_neg, if_neg h.ne_dots]
  rintro (hempty | hdot)
  · exact h.ne_nil hempty
  · exact h.ne_dot hdot

theorem component?_nil : component? [] = none := rfl

/-! ## Joining a name -/

/-- Between the path and the name stands one slash, unless the path ends with
one. -/
theorem text_join {p : Path} {init : Text} {c : Char} (h : p.text = init ++ [c]) (n : Text) :
    (p.join n).text = if c = '/' then init ++ '/' :: n else p.text ++ '/' :: n := by
  unfold join
  rw [h, List.getLast?_concat]
  -- With a slash at its end the path already divides the two.
  by_cases hc : c = '/'
  · simp [hc]
  · split <;> simp_all

/-- A name stands behind the parts of the path. An empty part at the end, behind
a slash, gives way to it. -/
theorem parts_join {p : Path} (hp : p.text ≠ []) {n : Text} (hn : '/' ∉ n) :
    ∃ init, init ≠ [] ∧ (p.parts = init ∨ p.parts = init ++ [[]]) ∧
      (p.join n).parts = init ++ [n] := by
  rcases List.eq_nil_or_concat p.text with hnil | ⟨init, c, hlast⟩
  · exact absurd hnil hp
  rw [List.concat_eq_append] at hlast
  unfold parts
  rw [text_join hlast]
  -- A slash at the end leaves an empty part behind it, which the name replaces.
  by_cases hc : c = '/'
  · subst hc
    refine ⟨Text.pieces '/' init, Text.pieces_ne_nil '/' init, .inr ?_, ?_⟩
    · rw [hlast, Text.pieces_append, Text.pieces_nil]
    · rw [if_pos rfl, Text.pieces_append, Text.pieces_of_not_mem hn]
  · refine ⟨Text.pieces '/' p.text, Text.pieces_ne_nil '/' p.text, .inl rfl, ?_⟩
    rw [if_neg hc, Text.pieces_append, Text.pieces_of_not_mem hn]

/-- Joining does not make a path empty. -/
theorem text_join_ne_nil {p : Path} (hp : p.text ≠ []) (n : Text) : (p.join n).text ≠ [] := by
  unfold join
  split <;> simp [hp]

/-- Where a path starts does not depend on what is joined to it. -/
theorem isAbsolute_join {p : Path} (hp : p.text ≠ []) (n : Text) :
    (p.join n).isAbsolute = p.isAbsolute := by
  rcases List.exists_cons_of_ne_nil hp with ⟨c, t, ht⟩
  unfold isAbsolute join
  split <;> simp [ht]

/-- A name adds one component to a path, however the path is spelled. -/
theorem components_join {p : Path} (hp : p.text ≠ []) {n : Text} (hn : IsFileName n) :
    (p.join n).components = p.components ++ [.named n] := by
  rcases parts_join hp hn.no_slash with ⟨init, hinit, hparts, hjoin⟩
  have hhead : p.parts.head? = init.head? ∧ (p.join n).parts.head? = init.head? := by
    rw [hjoin]
    rcases hparts with hparts | hparts
    · simp [hparts, List.head?_append_of_ne_nil _ hinit]
    · simp [hparts, List.head?_append_of_ne_nil _ hinit]
  have hnamed : (p.join n).parts.filterMap Path.component? =
      p.parts.filterMap Path.component? ++ [.named n] := by
    rw [hjoin, List.filterMap_append]
    -- The empty part is no component, so it makes no difference.
    rcases hparts with hparts | hparts
    · simp [hparts, hn.component?]
    · simp [hparts, hn.component?, component?_nil]
  unfold components
  simp only [isAbsolute_join hp, hhead.1, hhead.2, hnamed, List.append_assoc]

/-- The name that was joined is the name of the file. -/
theorem fileName?_join {p : Path} (hp : p.text ≠ []) {n : Text} (hn : IsFileName n) :
    (p.join n).fileName? = some n := by
  unfold fileName?
  rw [components_join hp hn, List.getLast?_concat]

/-! ## Several names -/

/-- The path of what is reached by the given names, one after the other. -/
def descend (p : Path) (ns : List Text) : Path := ns.foldl join p

/-- Every name on the way adds a component. -/
theorem components_descend {p : Path} (hp : p.text ≠ []) {ns : List Text}
    (hns : ∀ n ∈ ns, IsFileName n) :
    (p.descend ns).components = p.components ++ ns.map .named := by
  induction ns generalizing p with
  | nil => exact (List.append_nil _).symm
  | cons n ns ih =>
    have hn := hns n List.mem_cons_self
    have hrest := ih (text_join_ne_nil hp n) fun m hm => hns m (List.mem_cons_of_mem _ hm)
    rw [components_join hp hn, List.append_assoc] at hrest
    exact hrest

/-- Seen from the directory itself, what is below it is given by the names. -/
theorem relativeTo_descend {p : Path} (hp : p.text ≠ []) {ns : List Text}
    (hns : ∀ n ∈ ns, IsFileName n) : (p.descend ns).relativeTo p = ⟨Text.join ['/'] ns⟩ := by
  unfold relativeTo
  rw [components_descend hp hns, if_pos, List.drop_left, List.map_map]
  · exact congrArg (fun ts => (⟨Text.join ['/'] ts⟩ : Path)) (List.map_id ns)
  · exact List.isPrefixOf_iff_prefix.mpr (List.prefix_append ..)

end Path
end MemberOrder
