import Mathlib.Data.List.Find
import MemberOrder.Proofs.FileTree
import MemberOrder.Proofs.NameOrder
import MemberOrder.Proofs.Reading

/-! # The pairs under a root

Which user files are compared with which solutions is found by walking through
directories, with paths. It can be said by what is where: `Exercise.Pair.IsIn`
tells when the names of a project, a user file and a solution belong together
under a location. The walk finds exactly these, ordered by project and then by
file (`Exercise.pairs_eq`, `Exercise.isListing_listing`), and there is only one
such list (`Exercise.IsListing.unique`). -/

namespace MemberOrder

/-! ## Names of files -/

namespace Text

/-- The last occurrence divides a text in two. -/
theorem cutLast?_append {sep : Char} {after : Text} (h : sep ∉ after) (before : Text) :
    cutLast? sep (before ++ sep :: after) = some (before, after) := by
  have hreverse : (before ++ sep :: after).reverse = after.reverse ++ sep :: before.reverse := by
    simp
  have hbehind : ∀ c ∈ after.reverse, (c != sep) = true := by
    intro c hc
    rw [bne_iff_ne]
    rintro rfl
    exact h (List.mem_reverse.mp hc)
  unfold cutLast?
  rw [hreverse, List.dropWhile_append_of_pos hbehind, List.takeWhile_append_of_pos hbehind]
  simp

/-- A text that was cut is the two parts with the separator between them. -/
theorem eq_append_of_cutLast? {sep : Char} {t before after : Text}
    (h : cutLast? sep t = some (before, after)) : t = before ++ sep :: after := by
  unfold cutLast? at h
  have hsplit := List.takeWhile_append_dropWhile (p := (· != sep)) (l := t.reverse)
  -- Read backwards, what is left begins with the separator or there is none.
  cases hfound : t.reverse.dropWhile (· != sep) with
  | nil =>
    rw [hfound] at h
    cases h
  | cons c rest =>
    rw [hfound] at h hsplit
    cases h
    have hc : c = sep := by
      have hstops := List.head?_dropWhile_not (· != sep) t.reverse
      rw [hfound] at hstops
      simpa using hstops
    have hreverse := congrArg List.reverse hsplit
    rw [List.reverse_reverse] at hreverse
    refine hreverse.symm.trans ?_
    simp [hc]

/-- Replacing brings in no characters but those of the replacement. -/
theorem mem_replaceAll {old new t : Text} {c : Char} (h : c ∈ replaceAll old new t) :
    c ∈ new ∨ c ∈ t := by
  fun_induction replaceAll old new t with
  | case1 => simp at h
  | case2 d t _ ih =>
    rcases List.mem_append.mp h with h | h
    · exact .inl h
    · rcases ih h with h | h
      · exact .inl h
      · exact .inr (List.mem_cons_of_mem _ (List.mem_of_mem_drop h))
  | case3 d t _ ih =>
    rcases List.mem_cons.mp h with rfl | h
    · exact .inr List.mem_cons_self
    · rcases ih h with h | h
      · exact .inl h
      · exact .inr (List.mem_cons_of_mem _ h)

/-- A text does not get shorter if what is put in is not. -/
theorem length_le_replaceAll {old new : Text} (h : old.length ≤ new.length) (t : Text) :
    t.length ≤ (replaceAll old new t).length := by
  fun_induction replaceAll old new t with
  | case1 => exact Nat.le_refl _
  | case2 d t hold ih =>
    rw [List.length_drop] at ih
    rw [List.length_append, List.length_cons]
    simp only [Bool.and_eq_true, Bool.not_eq_true', List.isEmpty_eq_false_iff] at hold
    have hpos := List.length_pos_iff.mpr hold.1
    omega
  | case3 d t _ ih =>
    rw [List.length_cons, List.length_cons]
    omega

end Text

namespace Path

/-- The two names that lead to a directory as such are short. -/
theorem isFileName_of_length {n : Text} (hlen : 2 < n.length) (hslash : '/' ∉ n) :
    IsFileName n := by
  refine ⟨?_, hslash, ?_, ?_⟩
  · rintro rfl
    simp at hlen
  · rintro rfl
    simp at hlen
  · rintro rfl
    simp at hlen

/-- As a path of its own, a name is its file name. -/
theorem fileName?_of_isFileName {n : Text} (hn : IsFileName n) :
    (⟨n⟩ : Path).fileName? = some n := by
  have hparts : (⟨n⟩ : Path).parts = [n] := Text.pieces_of_not_mem hn.no_slash
  have habsolute : (⟨n⟩ : Path).isAbsolute = false := by
    unfold isAbsolute
    rw [beq_eq_false_iff_ne]
    intro hhead
    exact hn.no_slash (List.mem_of_mem_head? hhead)
  unfold fileName? components
  rw [hparts, habsolute]
  simp [hn.component?]

/-- The last dot of a name starts the extension, if something stands before it. -/
theorem splitExtension_append {stem e : Text} (hstem : stem ≠ []) (he : '.' ∉ e) :
    splitExtension (stem ++ '.' :: e) = (stem, some e) := by
  rcases List.exists_cons_of_ne_nil hstem with ⟨c, rest, rfl⟩
  unfold splitExtension
  rw [Text.cutLast?_append he]

/-- A file has the extension `e` if its name has a dot, with something before it
and `e` behind it. -/
theorem splitExtension_snd_eq_some_iff {n e : Text} (he : '.' ∉ e) :
    (splitExtension n).2 = some e ↔ ∃ stem, stem ≠ [] ∧ n = stem ++ '.' :: e := by
  constructor
  · intro h
    unfold splitExtension at h
    split at h
    · rename_i c stem extension hcut
      cases h
      exact ⟨c :: stem, by simp, Text.eq_append_of_cutLast? hcut⟩
    · cases h
  · rintro ⟨stem, hstem, rfl⟩
    rw [splitExtension_append hstem he]

/-- What stands before the extension is part of the name. -/
theorem mem_of_mem_splitExtension {n : Text} {c : Char} (h : c ∈ (splitExtension n).1) :
    c ∈ n := by
  unfold splitExtension at h
  split at h
  · rename_i hcut
    rw [Text.eq_append_of_cutLast? hcut]
    exact List.mem_append_left _ h
  · exact h

end Path

namespace Exercise

/-! ## Pairs -/

/-- The names by which a user file and its solution are found under a root. -/
structure Pair where
  project : Text
  file : Text
  solution : Text
deriving DecidableEq, Repr

namespace Pair

/-- The way from the root to the user file. -/
def userNames (x : Pair) : List Text := [x.project, "src", x.file]

/-- The way from the root to the solution. -/
def solutionNames (x : Pair) : List Text := [x.project, "src", "solution", x.solution]

/-- The paths of the two files. -/
def paths (root : Path) (x : Pair) : Path × Path :=
  (root.descend x.userNames, root.descend x.solutionNames)

/-- The user file and the solution are under the root at a location: in a
numbered project with a directory of solutions, the user file has the extension
`sol` and is no solution itself, and no name that is looked for earlier is in use
among the solutions. -/
structure IsIn (t : FileTree) (l : Location) (x : Pair) : Prop where
  numbered : ∃ c rest, x.project = c :: rest ∧ '0' ≤ c ∧ c ≤ '9'
  project_dir : t.entry? (l ++ [x.project]) = some .directory
  src_dir : t.entry? (l ++ [x.project, "src"]) = some .directory
  solutions_dir : t.entry? (l ++ [x.project, "src", "solution"]) = some .directory
  user_file : ∃ e, t.entry? (l ++ x.userNames) = some e ∧ e ≠ .directory
  extension : ∃ stem : Text, stem ≠ [] ∧ x.file = stem ++ ".sol".toList
  not_solution : ¬ "solution".toList <:+: x.file.map Char.toLower
  first_candidate : (candidates ⟨x.file⟩).find? (fun s =>
    (t.entry? (l ++ [x.project, "src", "solution", s])).isSome) = some x.solution

/-- Pairs are ordered by the bytes of the project and then by those of the
file. -/
def Before (x y : Pair) : Prop :=
  x.project.bytes < y.project.bytes ∨ x.project = y.project ∧ x.file.bytes < y.file.bytes

instance : Std.Irrefl Before where
  irrefl x h := by
    rcases h with h | ⟨-, h⟩
    · exact List.lt_irrefl _ h
    · exact List.lt_irrefl _ h

instance : Std.Asymm Before where
  asymm x y h h' := by
    rcases h with h | ⟨heq, h⟩ <;> rcases h' with h' | ⟨heq', h'⟩
    · exact List.lt_asymm h h'
    · rw [heq'] at h
      exact List.lt_irrefl _ h
    · rw [heq] at h'
      exact List.lt_irrefl _ h'
    · exact List.lt_asymm h h'

end Pair

/-- All the pairs under the root at a location, in order and none twice. -/
structure IsListing (t : FileTree) (l : Location) (ps : List Pair) : Prop where
  mem_iff : ∀ x, x ∈ ps ↔ x.IsIn t l
  ordered : ps.Pairwise Pair.Before

/-- There is one listing at most. -/
theorem IsListing.unique {t : FileTree} {l : Location} {ps qs : List Pair}
    (hp : IsListing t l ps) (hq : IsListing t l qs) : ps = qs := by
  apply hp.ordered.eq_of_mem_iff hq.ordered
  intro x
  rw [hp.mem_iff, hq.mem_iff]

/-! ## The pairs by location -/

/-- The numbered directories at a location. -/
def projectNames (t : FileTree) (l : Location) : List Text :=
  sorted ((t.namesAt l).filter fun n => isNumbered n && t.entry? (l ++ [n]) = some .directory)

/-- What is at the location is a file of the user. -/
def isUserFileAt (t : FileTree) (l : Location) (n : Text) : Bool :=
  (t.entry? (l ++ [n])).any (· ≠ .directory) &&
    (Path.splitExtension n).2 == some "sol".toList && !namesSolution n

def userNamesAt (t : FileTree) (l : Location) : List Text :=
  sorted ((t.namesAt l).filter (isUserFileAt t l))

/-- The name of the solution of a user file among those at a location. -/
def solutionName? (t : FileTree) (l : Location) (file : Text) : Option Text :=
  (candidates ⟨file⟩).find? fun s => (t.entry? (l ++ [s])).isSome

/-- The pairs of a project. -/
def pairsAt (t : FileTree) (l : Location) (project : Text) : List Pair :=
  let src := l ++ [project, "src"]
  let solutions := l ++ [project, "src", "solution"]
  if t.entry? src = some .directory ∧ t.entry? solutions = some .directory then
    (userNamesAt t src).filterMap fun f =>
      (solutionName? t solutions f).map fun s => ⟨project, f, s⟩
  else []

def listing (t : FileTree) (l : Location) : List Pair := (projectNames t l).flatMap (pairsAt t l)

/-- A numbered name begins with a digit. -/
theorem isNumbered_iff {n : Text} :
    isNumbered n = true ↔ ∃ c rest, n = c :: rest ∧ '0' ≤ c ∧ c ≤ '9' := by
  cases n with
  | nil => simp [isNumbered]
  | cons c rest =>
    simp [isNumbered, Char.isDigit, Char.le_def]

/-- The projects are the numbered directories. -/
theorem mem_projectNames_iff {t : FileTree} {l : Location} {n : Text} :
    n ∈ projectNames t l ↔ isNumbered n = true ∧ t.entry? (l ++ [n]) = some .directory := by
  unfold projectNames
  rw [mem_sorted, List.mem_filter, FileTree.mem_namesAt_iff, Bool.and_eq_true, decide_eq_true_eq]
  constructor
  · rintro ⟨-, h⟩
    exact h
  · intro h
    exact ⟨by rw [h.2]; rfl, h⟩

/-- A user file has the extension `sol`, and its name does not speak of a solution. -/
theorem isUserFileAt_iff {t : FileTree} {l : Location} {n : Text} :
    isUserFileAt t l n = true ↔ (∃ e, t.entry? (l ++ [n]) = some e ∧ e ≠ .directory) ∧
      (∃ stem : Text, stem ≠ [] ∧ n = stem ++ ".sol".toList) ∧
      ¬ "solution".toList <:+: n.map Char.toLower := by
  have hextension := Path.splitExtension_snd_eq_some_iff (n := n) (e := "sol".toList) (by decide)
  unfold isUserFileAt namesSolution
  rw [Bool.and_eq_true, Bool.and_eq_true, Option.any_eq_true, beq_iff_eq, hextension,
    Bool.not_eq_true', ← Bool.not_eq_true, Text.mentions_iff]
  simp only [decide_eq_true_eq, and_assoc]
  rfl

theorem mem_userNamesAt_iff {t : FileTree} {l : Location} {n : Text} :
    n ∈ userNamesAt t l ↔ isUserFileAt t l n = true := by
  unfold userNamesAt
  rw [mem_sorted, List.mem_filter, FileTree.mem_namesAt_iff]
  constructor
  · rintro ⟨-, h⟩
    exact h
  · intro h
    rcases (isUserFileAt_iff.mp h).1 with ⟨e, he, -⟩
    exact ⟨by rw [he]; rfl, h⟩

/-- A pair of a project: a user file and the first solution that is found for it. -/
theorem mem_pairsAt_iff {t : FileTree} {l : Location} {project : Text} {x : Pair} :
    x ∈ pairsAt t l project ↔ x.project = project ∧
      t.entry? (l ++ [project, "src"]) = some .directory ∧
      t.entry? (l ++ [project, "src", "solution"]) = some .directory ∧
      isUserFileAt t (l ++ [project, "src"]) x.file = true ∧
      solutionName? t (l ++ [project, "src", "solution"]) x.file = some x.solution := by
  unfold pairsAt
  dsimp only
  split
  · rename_i hdirs
    rw [List.mem_filterMap]
    constructor
    · rintro ⟨f, hf, hx⟩
      rcases Option.map_eq_some_iff.mp hx with ⟨s, hs, rfl⟩
      exact ⟨rfl, hdirs.1, hdirs.2, mem_userNamesAt_iff.mp hf, hs⟩
    · rintro ⟨rfl, -, -, hfile, hsolution⟩
      refine ⟨x.file, mem_userNamesAt_iff.mpr hfile, ?_⟩
      rw [hsolution]
      rfl
  · rename_i hdirs
    constructor
    · intro hx
      cases hx
    · rintro ⟨-, hsrc, hsolutions, -⟩
      exact absurd ⟨hsrc, hsolutions⟩ hdirs

/-- The pairs by location are those under the root. -/
theorem mem_listing_iff {t : FileTree} {l : Location} {x : Pair} :
    x ∈ listing t l ↔ x.IsIn t l := by
  unfold listing
  rw [List.mem_flatMap]
  constructor
  · rintro ⟨project, hproject, hx⟩
    rcases mem_pairsAt_iff.mp hx with ⟨rfl, hsrc, hsolutions, hfile, hsolution⟩
    rcases mem_projectNames_iff.mp hproject with ⟨hnumbered, hdir⟩
    rcases isUserFileAt_iff.mp hfile with ⟨huser, hextension, hname⟩
    unfold solutionName? at hsolution
    simp only [List.append_assoc, List.cons_append, List.nil_append] at huser hsolution
    exact ⟨isNumbered_iff.mp hnumbered, hdir, hsrc, hsolutions, huser, hextension, hname, hsolution⟩
  · intro h
    refine ⟨x.project, mem_projectNames_iff.mpr ⟨isNumbered_iff.mpr h.numbered, h.project_dir⟩, ?_⟩
    refine mem_pairsAt_iff.mpr ⟨rfl, h.src_dir, h.solutions_dir, ?_, ?_⟩
    · refine isUserFileAt_iff.mpr ⟨?_, h.extension, h.not_solution⟩
      rw [List.append_assoc]
      exact h.user_file
    · unfold solutionName?
      simp only [List.append_assoc, List.cons_append, List.nil_append]
      exact h.first_candidate

/-- The pairs by location are all the pairs, in order. -/
theorem isListing_listing (t : FileTree) (l : Location) : IsListing t l (listing t l) := by
  refine ⟨fun x => mem_listing_iff, ?_⟩
  unfold listing
  rw [List.pairwise_flatMap]
  -- Within a project the files are sorted, and the projects are sorted among themselves.
  constructor
  · intro project _
    unfold pairsAt
    dsimp only
    split
    · rw [List.pairwise_filterMap]
      refine (pairwise_sorted _).imp ?_
      intro f g hlt x hx y hy
      rcases Option.map_eq_some_iff.mp hx with ⟨s, -, rfl⟩
      rcases Option.map_eq_some_iff.mp hy with ⟨s', -, rfl⟩
      exact .inr ⟨rfl, hlt⟩
    · exact .nil
  · refine (pairwise_sorted _).imp ?_
    intro p q hlt x hx y hy
    rw [← (mem_pairsAt_iff.mp hx).1, ← (mem_pairsAt_iff.mp hy).1] at hlt
    exact .inl hlt

/-! ## The walk -/

/-- If no step fails, all results are there. -/
theorem mapM_eq_ok {α β ε : Type} {f : α → Except ε β} {g : α → β} {xs : List α}
    (h : ∀ x ∈ xs, f x = .ok (g x)) : xs.mapM f = .ok (xs.map g) := by
  induction xs with
  | nil => rfl
  | cons x xs ih =>
    rw [List.mapM_cons, h x List.mem_cons_self, ih fun y hy => h y (List.mem_cons_of_mem _ hy)]
    rfl

/-- Solutions are looked for by the name of the file alone. -/
theorem candidates_of_fileName {p : Path} {f : Text} (hp : p.fileName? = some f)
    (hf : Path.IsFileName f) : candidates p = candidates ⟨f⟩ := by
  unfold candidates Path.stem?
  rw [hp, Path.fileName?_of_isFileName hf]

/-- A solution is looked for under names that a file can have. -/
theorem isFileName_of_mem_candidates {f s : Text} (hf : Path.IsFileName f) (hlen : 2 < f.length)
    (hs : s ∈ candidates ⟨f⟩) : Path.IsFileName s := by
  have hstem : '/' ∉ (Path.splitExtension f).1 :=
    fun h => hf.no_slash (Path.mem_of_mem_splitExtension h)
  have hreplaced : ∀ {old new t : Text}, '/' ∉ new → '/' ∉ t → '/' ∉ Text.replaceAll old new t := by
    intro old new t hnew ht hslash
    rcases Text.mem_replaceAll hslash with h | h
    · exact hnew h
    · exact ht h
  unfold candidates Path.stem? at hs
  rw [Path.fileName?_of_isFileName hf] at hs
  simp only [Option.map_some, List.mem_cons, List.not_mem_nil, or_false] at hs
  -- The three spellings; each is as long as the file name or ends in a suffix of its own.
  rcases hs with rfl | rfl | rfl
  · apply Path.isFileName_of_length
    · simp
    · simp [hstem]
  · apply Path.isFileName_of_length
    · simp
    · simp [hreplaced, hstem]
  · apply Path.isFileName_of_length
    · exact Nat.lt_of_lt_of_le hlen (Text.length_le_replaceAll (by decide) f)
    · exact hreplaced (by decide) hf.no_slash

/-- The files of the user in a project, with their solutions. A project
without solutions has none. -/
def pairsIn (t : FileTree) (project : Path) : Except AccessError (List (Path × Path)) := do
  let src := project.join "src"
  let solutions := src.join "solution"
  if t.isDirectory src && t.isDirectory solutions then
    let users ← userFiles t src
    return users.filterMap fun u => (solution? t u solutions).map fun s => (u, s)
  else return []

/-- The files of the user in all projects under a root, with their
solutions, in ascending order. -/
def pairs (t : FileTree) (root : Path) : Except AccessError (List (Path × Path)) := do
  return (← (← projects t root).mapM (pairsIn t)).flatten

/-- Without a directory there is no walk. -/
theorem exists_leadsTo_of_pairs {t : FileTree} {root : Path} {ps : List (Path × Path)}
    (h : pairs t root = .ok ps) : ∃ l, t.LeadsTo root l .directory := by
  unfold pairs projects at h
  rcases exists_of_bind_eq_ok h with ⟨projects, hprojects, -⟩
  rcases exists_of_bind_eq_ok hprojects with ⟨names, hnames, -⟩
  exact FileTree.exists_leadsTo_of_list hnames

section Walk

variable {t : FileTree} (ht : t.IsWellFormed) {l : Location}
include ht

/-- The names in a directory, filtered and sorted. What is asked of a path may be
asked of the name, if this comes to the same for names that a file can have. -/
theorem sorted_list_eq {d : Path} (h : t.LeadsTo d l .directory) {p q : Text → Bool}
    (hpq : ∀ n, Path.IsFileName n → p n = q n) :
    (do return (sorted ((← t.list d).filter p)).map d.join : Except AccessError (List Path)) =
      .ok ((sorted ((t.namesAt l).filter q)).map d.join) := by
  rw [h.list_eq]
  refine congrArg (fun names => Except.ok ((sorted names).map d.join)) (List.filter_congr ?_)
  intro n hn
  exact hpq n (ht.isFileName (FileTree.mem_namesAt_iff.mp hn))

/-- The projects that are found are the numbered directories at the location. -/
theorem projects_eq {root : Path} (h : t.LeadsTo root l .directory) :
    projects t root = .ok ((projectNames t l).map root.join) := by
  apply sorted_list_eq ht h
  intro n hn
  congr 1
  rw [Bool.eq_iff_iff, h.isDirectory_join_iff hn, decide_eq_true_eq]

theorem userFiles_eq {src : Path} (h : t.LeadsTo src l .directory) :
    userFiles t src = .ok ((userNamesAt t l).map src.join) := by
  apply sorted_list_eq ht h
  intro n hn
  unfold isUserFileAt
  congr 2
  rw [Bool.eq_iff_iff, h.isFile_join_iff hn, Option.any_eq_true]
  simp only [decide_eq_true_eq]

omit ht in
/-- The solution is the first candidate in use at the location. -/
theorem solution?_eq {user directory : Path} (h : t.LeadsTo directory l .directory) {f : Text}
    (huser : user.fileName? = some f) (hf : Path.IsFileName f) (hlen : 2 < f.length) :
    solution? t user directory = (solutionName? t l f).map directory.join := by
  unfold solution? solutionName?
  rw [List.find?_map, candidates_of_fileName huser hf]
  congr 1
  apply List.find?_congr
  intro s hs
  exact h.has_join (isFileName_of_mem_candidates hf hlen hs)

/-- The user files of a directory that have a solution in another. -/
theorem filterMap_solution?_eq {src solutions : Path} {l' : Location}
    (hsrc : t.LeadsTo src l .directory) (hsolutions : t.LeadsTo solutions l' .directory) :
    ((userNamesAt t l).map src.join).filterMap (fun u =>
        (solution? t u solutions).map fun s => (u, s)) =
      (userNamesAt t l).filterMap fun f =>
        (solutionName? t l' f).map fun s => (src.join f, solutions.join s) := by
  rw [List.filterMap_map]
  apply List.filterMap_congr
  intro f hf
  rcases isUserFileAt_iff.mp (mem_userNamesAt_iff.mp hf) with ⟨⟨e, he, -⟩, ⟨stem, -, hext⟩, -⟩
  have hname := ht.isFileName (by rw [he]; rfl)
  have hlen : 2 < f.length := by
    rw [hext, List.length_append]
    exact Nat.lt_add_left _ (by decide)
  rw [Function.comp_apply,
    solution?_eq hsolutions (Path.fileName?_join hsrc.text_ne_nil hname) hname hlen, Option.map_map]
  rfl

/-- The pairs of a project, found through paths, are those by location. -/
theorem pairsIn_eq {root : Path} (h : t.LeadsTo root l .directory) {project : Text}
    (hproject : project ∈ projectNames t l) :
    pairsIn t (root.join project) = .ok ((pairsAt t l project).map (Pair.paths root)) := by
  have hsrcName : Path.IsFileName "src" := by decide
  have hsolutionsName : Path.IsFileName "solution" := by decide
  have hdir := (mem_projectNames_iff.mp hproject).2
  have hin := h.join (ht.isFileName (by rw [hdir]; rfl)) hdir
  have hsrcIff := hin.isDirectory_join_iff hsrcName
  have hsrc := hin.join (e := .directory) hsrcName
  rw [List.append_assoc] at hsrcIff hsrc
  have hsolutionsIff := fun hd => (hsrc hd).isDirectory_join_iff hsolutionsName
  have hsolutions := fun hd => (hsrc hd).join (e := .directory) hsolutionsName
  simp only [List.append_assoc] at hsolutionsIff hsolutions
  -- The second directory is looked for in the first, so its path means something only if
  -- the first is there.
  have hguard := (and_congr hsrcIff Iff.rfl).trans (and_congr_right hsolutionsIff)
  rw [← Bool.and_eq_true] at hguard
  unfold pairsIn pairsAt
  dsimp only
  -- Without the two directories both lists are empty.
  by_cases hdirs : t.entry? (l ++ [project, "src"]) = some .directory ∧
      t.entry? (l ++ [project, "src", "solution"]) = some .directory
  · have hsolutions := hsolutions hdirs.1 hdirs.2
    rw [if_pos (hguard.mpr hdirs), if_pos hdirs, userFiles_eq ht (hsrc hdirs.1)]
    refine congrArg Except.ok ((filterMap_solution?_eq ht (hsrc hdirs.1) hsolutions).trans ?_)
    rw [List.map_filterMap]
    simp only [Option.map_map]
    rfl
  · rw [if_neg (mt hguard.mp hdirs), if_neg hdirs]
    rfl

/-- The walk finds the pairs, in their order. -/
theorem pairs_eq {root : Path} (h : t.LeadsTo root l .directory) :
    pairs t root = .ok ((listing t l).map (Pair.paths root)) := by
  unfold pairs listing
  rw [projects_eq ht h]
  show (do return (← ((projectNames t l).map root.join).mapM (pairsIn t)).flatten) = _
  have hpairs := mapM_eq_ok (f := pairsIn t ∘ root.join) fun p hp => pairsIn_eq ht h hp
  rw [List.mapM_map, hpairs, List.map_flatMap, List.flatMap_def]
  rfl

end Walk

/-! ## Trees with the same paths -/

section SamePaths

variable {t t' : FileTree} (h : t.SamePaths t')
include h

/-- What a directory lists, filtered and sorted, comes out the same. -/
theorem sorted_list_congr (d : Path) (p : Text → Bool) :
    (do return (sorted ((← t.list d).filter p)).map d.join : Except AccessError (List Path)) =
      do return (sorted ((← t'.list d).filter p)).map d.join := by
  -- The listing fails in both trees, or it gives the same names in some order.
  rcases h.list_cases d with ⟨e, he, he'⟩ | ⟨names, names', hnames, hnames', hmem⟩
  · rw [he, he']
  · rw [hnames, hnames']
    refine congrArg (fun ns => Except.ok (ns.map d.join)) (sorted_eq_of_mem_iff ?_)
    intro n
    rw [List.mem_filter, List.mem_filter, hmem]

theorem projects_congr (root : Path) : projects t root = projects t' root := by
  unfold projects
  simp only [h.isDirectory_eq]
  exact sorted_list_congr h root _

theorem userFiles_congr (src : Path) : userFiles t src = userFiles t' src := by
  unfold userFiles
  simp only [h.isFile_eq]
  exact sorted_list_congr h src _

/-- The walk reads no file: which pairs it finds depends on the paths alone. -/
theorem pairs_congr (root : Path) : pairs t root = pairs t' root := by
  have hpairsIn : pairsIn t = pairsIn t' := by
    funext project
    unfold pairsIn solution?
    simp only [h.isDirectory_eq, userFiles_congr h, funext h.has_eq]
  unfold pairs
  rw [projects_congr h, hpairsIn]

end SamePaths

end Exercise
end MemberOrder
