import Mathlib.Data.List.Perm.Basic
import MemberOrder.FileTree.Basic
import MemberOrder.Proofs.Path

/-! # Locations and paths

A path leads to a location, and a name that is joined to the path of a directory
leads to what the directory holds under this name (`FileTree.LeadsTo.join`). So what
can be seen through paths below a directory is what stands below its location.

Two trees are compared in two ways. Trees with the same entries in another order
have the same things at the same locations (`FileTree.entry?_of_perm`). In trees
with the same paths every path leads to the same location, and to a directory in
both or in neither (`FileTree.SamePaths`). -/

namespace MemberOrder

/-- What comes out of two steps comes out of the second, with what the first gave. -/
theorem exists_of_bind_eq_ok {α β ε : Type} {x : Except ε α} {f : α → Except ε β} {b : β}
    (h : x >>= f = .ok b) : ∃ a, x = .ok a ∧ f a = .ok b := by
  cases x with
  | error e => cases h
  | ok a => exact ⟨a, rfl, h⟩

namespace FileTree

/-- A tree as a file system can show it: every name is one that a file can have,
and no location comes twice. -/
@[mk_iff]
structure IsWellFormed (t : FileTree) : Prop where
  names : ∀ e ∈ t.entries, ∀ n ∈ e.1, Path.IsFileName n
  distinct : (t.entries.map (·.1)).Nodup

instance (t : FileTree) : Decidable t.IsWellFormed := decidable_of_iff' _ (isWellFormed_iff t)

/-- The path leads to this location, and this is what is there. -/
structure LeadsTo (t : FileTree) (p : Path) (l : Location) (e : Entry) : Prop where
  locate_eq : t.locate p = .ok l
  entry_eq : t.entry? l = some e

/-- The text of the file at a location. -/
def textAt (t : FileTree) (l : Location) : Except AccessError Text :=
  match t.entry? l with
  | some (.document content) => .ok content
  | some .directory => .error .isDirectory
  | some .binary => .error .notText
  | none => .error .notFound

/-! ## Entries -/

theorem entry?_concat (t : FileTree) (l : Location) (n : Text) :
    t.entry? (l ++ [n]) = t.entries.lookup (l ++ [n]) := by
  unfold entry?
  rw [if_neg (by simp)]

/-- Something is below a location exactly if the tree lists it there. -/
theorem isSome_entry?_concat_iff {t : FileTree} {l : Location} {n : Text} :
    (t.entry? (l ++ [n])).isSome = true ↔ ∃ e ∈ t.entries, e.1 = l ++ [n] := by
  rw [entry?_concat, List.lookup_isSome_iff]
  simp only [beq_iff_eq, eq_comm (a := l ++ [n])]

/-- The names in a directory are those under which something is there. -/
theorem mem_namesAt_iff {t : FileTree} {l : Location} {n : Text} :
    n ∈ t.namesAt l ↔ (t.entry? (l ++ [n])).isSome = true := by
  unfold namesAt
  rw [isSome_entry?_concat_iff, List.mem_filterMap]
  constructor
  · rintro ⟨e, he, hname⟩
    -- The name is the last part of a location, whose other parts are those of the directory.
    split at hname
    · rename_i hparent
      rcases List.getLast?_eq_some_iff.mp hname with ⟨init, hinit⟩
      rw [hinit, List.dropLast_concat] at hparent
      exact ⟨e, he, by rw [hinit, hparent]⟩
    · cases hname
  · rintro ⟨e, he, hlocation⟩
    refine ⟨e, he, ?_⟩
    rw [hlocation, List.dropLast_concat, if_pos rfl, List.getLast?_concat]

/-- What is there has a name that a file can have. -/
theorem IsWellFormed.isFileName {t : FileTree} (h : t.IsWellFormed) {l : Location} {n : Text}
    (hn : (t.entry? (l ++ [n])).isSome = true) : Path.IsFileName n := by
  rcases isSome_entry?_concat_iff.mp hn with ⟨e, he, hlocation⟩
  exact h.names e he n (by rw [hlocation]; simp)

/-- With distinct locations the order of the entries does not matter. -/
theorem lookup_of_perm {es es' : List (Location × Entry)} (h : es.Perm es')
    (hdistinct : (es.map (·.1)).Nodup) (l : Location) : es.lookup l = es'.lookup l := by
  induction h with
  | nil => rfl
  | cons e _ ih =>
    rw [List.map_cons, List.nodup_cons] at hdistinct
    rw [List.lookup_cons, List.lookup_cons, ih hdistinct.2]
  | swap e f es =>
    have hne : f.1 ≠ e.1 := by
      simp only [List.map_cons, List.nodup_cons, List.mem_cons, not_or] at hdistinct
      exact hdistinct.1.1
    -- At most one of the two is at the location.
    rw [List.lookup_cons, List.lookup_cons, List.lookup_cons, List.lookup_cons]
    by_cases he : l = e.1
    · have hf : (l == f.1) = false := by
        rw [he, beq_eq_false_iff_ne]
        exact hne.symm
      rw [hf]
    · rw [beq_eq_false_iff_ne.mpr he]
  | trans h _ ih ih' =>
    rw [ih hdistinct, ih' ((h.map _).nodup_iff.mp hdistinct)]

/-- The order of the entries decides nothing about what is where. -/
theorem entry?_of_perm {t t' : FileTree} (h : t.entries.Perm t'.entries)
    (hdistinct : (t.entries.map (·.1)).Nodup) (l : Location) : t.entry? l = t'.entry? l := by
  unfold entry?
  rw [lookup_of_perm h hdistinct]

/-! ## Following a path -/

/-- A path is followed part by part. -/
theorem follow_append (t : FileTree) (l : Location) (parts more : List Text) :
    t.follow l (parts ++ more) = t.follow l parts >>= fun m => t.follow m more := by
  induction parts generalizing l with
  | nil => rfl
  | cons part parts ih =>
    rw [List.cons_append, follow, follow]
    -- What the first part is decides for both, and a failure ends both.
    split
    · rfl
    · split
      · exact ih _
      · split
        · exact ih _
        · rfl
      · exact ih _
    · rfl

/-- From a directory a name leads to what is there under it. -/
theorem follow_name {t : FileTree} {l : Location} {n : Text} (hn : Path.IsFileName n)
    (h : t.entry? l = some .directory) :
    t.follow l [n] = if (t.entry? (l ++ [n])).isSome then .ok (l ++ [n]) else .error .notFound := by
  rw [follow, h]
  simp only [hn.component?]
  split <;> rfl

/-- Nothing leads on from a place where nothing is. -/
theorem follow_of_none {t : FileTree} {l : Location} (h : t.entry? l = none) (part : Text)
    (parts : List Text) : t.follow l (part :: parts) = .error .notFound := by
  rw [follow, h]

/-- Nothing leads on from a file. -/
theorem follow_of_file {t : FileTree} {l : Location} {e : Entry} (h : t.entry? l = some e)
    (he : e ≠ .directory) (part : Text) (parts : List Text) :
    t.follow l (part :: parts) = .error .notDirectory := by
  rw [follow, h]
  cases e with
  | directory => exact absurd rfl he
  | document content => rfl
  | binary => rfl

/-- A name is followed from where the path leads, however the path is spelled. -/
theorem locate_join (t : FileTree) {p : Path} (hp : p.text ≠ []) {n : Text}
    (hn : Path.IsFileName n) : t.locate (p.join n) = t.locate p >>= fun l => t.follow l [n] := by
  have hsome : p.text.isEmpty = false := by simp [hp]
  have hjoined : (p.join n).text.isEmpty = false := by simp [Path.text_join_ne_nil hp n]
  rcases Path.parts_join hp hn.no_slash with ⟨init, -, hparts, hjoin⟩
  unfold locate
  rw [hsome, hjoined, Path.isAbsolute_join hp, hjoin]
  show t.follow _ (init ++ [n]) = t.follow _ p.parts >>= _
  rw [follow_append]
  rcases hparts with hparts | hparts
  · rw [hparts]
  · -- The empty part asks for a directory, and so does the name.
    rw [hparts, follow_append, bind_assoc]
    congr 1
    funext l
    cases hentry : t.entry? l with
    | none =>
      rw [follow_of_none hentry, follow_of_none hentry]
      rfl
    | some e =>
      by_cases he : e = .directory
      · have hhere : t.follow l [[]] = .ok l := by
          rw [follow, hentry, he]
          rfl
        rw [hhere]
        rfl
      · rw [follow_of_file hentry he, follow_of_file hentry he]
        rfl

/-! ## What a path shows -/

/-- The empty path leads nowhere. -/
theorem LeadsTo.text_ne_nil {t : FileTree} {p : Path} {l : Location} {e : Entry}
    (h : t.LeadsTo p l e) : p.text ≠ [] := by
  intro hempty
  have hlocate := h.locate_eq
  unfold locate at hlocate
  rw [hempty] at hlocate
  cases hlocate

theorem get_of_locate {t : FileTree} {p : Path} {l : Location} (h : t.locate p = .ok l) :
    t.get p = match t.entry? l with
      | some e => .ok e
      | none => .error .notFound := by
  unfold get
  rw [h]
  rfl

theorem list_of_locate {t : FileTree} {p : Path} {l : Location} (h : t.locate p = .ok l) :
    t.list p = match t.entry? l with
      | some .directory => .ok (t.namesAt l)
      | some _ => .error .notDirectory
      | none => .error .notFound := by
  unfold list
  rw [h]
  rfl

theorem LeadsTo.get_eq {t : FileTree} {p : Path} {l : Location} {e : Entry}
    (h : t.LeadsTo p l e) : t.get p = .ok e := by
  rw [get_of_locate h.locate_eq, h.entry_eq]

theorem LeadsTo.has_eq {t : FileTree} {p : Path} {l : Location} {e : Entry}
    (h : t.LeadsTo p l e) : t.has p = true := by
  unfold has
  rw [h.get_eq]
  rfl

theorem LeadsTo.read_eq {t : FileTree} {p : Path} {l : Location} {e : Entry}
    (h : t.LeadsTo p l e) : t.read p = t.textAt l := by
  unfold read textAt
  rw [h.get_eq, h.entry_eq]
  cases e <;> rfl

/-- A path that shows something leads to it. -/
theorem exists_leadsTo {t : FileTree} {p : Path} {e : Entry} (h : t.get p = .ok e) :
    ∃ l, t.LeadsTo p l e := by
  unfold get at h
  rcases exists_of_bind_eq_ok h with ⟨l, hlocate, hfound⟩
  split at hfound
  · rename_i hentry
    cases hfound
    exact ⟨l, hlocate, hentry⟩
  · cases hfound

section Join

variable {t : FileTree} {p : Path} {l : Location} {n : Text}

/-- A name in a directory leads to what is there under it. -/
theorem LeadsTo.join (h : t.LeadsTo p l .directory) (hn : Path.IsFileName n) {e : Entry}
    (he : t.entry? (l ++ [n]) = some e) : t.LeadsTo (p.join n) (l ++ [n]) e := by
  refine ⟨?_, he⟩
  rw [locate_join t h.text_ne_nil hn, h.locate_eq]
  show t.follow l [n] = _
  rw [follow_name hn h.entry_eq, he]
  rfl

/-- The same, some names further down. -/
theorem LeadsTo.join_append {ns : List Text} (h : t.LeadsTo p (l ++ ns) .directory)
    (hn : Path.IsFileName n) {e : Entry} (he : t.entry? (l ++ (ns ++ [n])) = some e) :
    t.LeadsTo (p.join n) (l ++ (ns ++ [n])) e := by
  rw [← List.append_assoc] at he ⊢
  exact h.join hn he

/-- A name that is not in use leads nowhere. -/
theorem LeadsTo.get_join_eq_error (h : t.LeadsTo p l .directory) (hn : Path.IsFileName n)
    (he : t.entry? (l ++ [n]) = none) : t.get (p.join n) = .error .notFound := by
  unfold get
  rw [locate_join t h.text_ne_nil hn, h.locate_eq]
  show (t.follow l [n] >>= _) = _
  rw [follow_name hn h.entry_eq, he]
  rfl

/-- Something is found under a name if the directory holds it. -/
theorem LeadsTo.has_join (h : t.LeadsTo p l .directory) (hn : Path.IsFileName n) :
    t.has (p.join n) = (t.entry? (l ++ [n])).isSome := by
  unfold has
  cases he : t.entry? (l ++ [n]) with
  | none =>
    rw [h.get_join_eq_error hn he]
    rfl
  | some e =>
    rw [(h.join hn he).get_eq]
    rfl

theorem LeadsTo.isDirectory_join_iff (h : t.LeadsTo p l .directory) (hn : Path.IsFileName n) :
    t.isDirectory (p.join n) = true ↔ t.entry? (l ++ [n]) = some .directory := by
  unfold isDirectory
  cases he : t.entry? (l ++ [n]) with
  | none => simp [h.get_join_eq_error hn he, Except.toOption]
  | some e => simp [(h.join hn he).get_eq, Except.toOption]

theorem LeadsTo.isFile_join_iff (h : t.LeadsTo p l .directory) (hn : Path.IsFileName n) :
    t.isFile (p.join n) = true ↔ ∃ e, t.entry? (l ++ [n]) = some e ∧ e ≠ .directory := by
  unfold isFile
  rw [Bool.and_eq_true, h.has_join hn, Bool.not_eq_true', ← Bool.not_eq_true,
    h.isDirectory_join_iff hn, Option.isSome_iff_exists]
  constructor
  · rintro ⟨⟨e, he⟩, hdir⟩
    refine ⟨e, he, ?_⟩
    rintro rfl
    exact hdir he
  · rintro ⟨e, he, hdir⟩
    refine ⟨⟨e, he⟩, ?_⟩
    rw [he]
    intro heq
    exact hdir (Option.some.inj heq)

/-- A directory lists its names. -/
theorem LeadsTo.list_eq (h : t.LeadsTo p l .directory) : t.list p = .ok (t.namesAt l) := by
  rw [list_of_locate h.locate_eq, h.entry_eq]

/-- Only a directory lists names. -/
theorem exists_leadsTo_of_list {names : List Text} (h : t.list p = .ok names) :
    ∃ l, t.LeadsTo p l .directory := by
  unfold list at h
  rcases exists_of_bind_eq_ok h with ⟨l, hlocate, hfound⟩
  split at hfound
  · rename_i hentry
    exact ⟨l, hlocate, hentry⟩
  · cases hfound
  · cases hfound

/-- A file lists no names. -/
theorem LeadsTo.list_eq_error {e : Entry} (h : t.LeadsTo p l e) (he : e ≠ .directory) :
    t.list p = .error .notDirectory := by
  rw [list_of_locate h.locate_eq, h.entry_eq]
  cases e with
  | directory => exact absurd rfl he
  | document content => rfl
  | binary => rfl

end Join

/-! ## Trees with the same paths -/

/-- Two trees with the same working directory, with something at the same
locations, and with directories at the same ones. What the files hold and how
the entries are listed may differ. -/
structure SamePaths (t t' : FileTree) : Prop where
  workingDirectory_eq : t.workingDirectory = t'.workingDirectory
  isSome_eq : ∀ l, (t.entry? l).isSome = (t'.entry? l).isSome
  directory_iff : ∀ l, t.entry? l = some .directory ↔ t'.entry? l = some .directory

namespace SamePaths

variable {t t' : FileTree}

/-- What is at a location is nothing, a directory or a file, in both trees. -/
theorem entry?_cases (h : SamePaths t t') (l : Location) :
    t.entry? l = none ∧ t'.entry? l = none ∨
      t.entry? l = some .directory ∧ t'.entry? l = some .directory ∨
      ∃ e e', t.entry? l = some e ∧ t'.entry? l = some e' ∧ e ≠ .directory ∧ e' ≠ .directory := by
  have hsome := h.isSome_eq l
  have hdir := h.directory_iff l
  -- The first tree decides, and the second follows it.
  cases he : t.entry? l with
  | none =>
    rw [he] at hsome
    exact .inl ⟨rfl, Option.isNone_iff_eq_none.mp (Option.isSome_eq_false_iff.mp hsome.symm)⟩
  | some e =>
    rw [he] at hsome hdir
    rcases Option.isSome_iff_exists.mp hsome.symm with ⟨e', he'⟩
    rw [he'] at hdir
    rw [he']
    by_cases hedir : e = .directory
    · exact .inr (.inl ⟨by rw [hedir], hdir.mp (by rw [hedir])⟩)
    · refine .inr (.inr ⟨e, e', rfl, rfl, hedir, ?_⟩)
      rintro rfl
      exact hedir (Option.some.inj (hdir.mpr rfl))

/-- From a location a path is followed in the same way. -/
theorem follow_eq (h : SamePaths t t') (l : Location) (parts : List Text) :
    t.follow l parts = t'.follow l parts := by
  induction parts generalizing l with
  | nil => rfl
  | cons part parts ih =>
    rcases h.entry?_cases l with ⟨he, he'⟩ | ⟨he, he'⟩ | ⟨e, e', he, he', hne, hne'⟩
    · rw [follow_of_none he, follow_of_none he']
    · rw [follow, follow, he, he']
      simp only [ih, h.isSome_eq]
    · rw [follow_of_file he hne, follow_of_file he' hne']

/-- A path leads to the same location. -/
theorem locate_eq (h : SamePaths t t') (p : Path) : t.locate p = t'.locate p := by
  unfold locate
  rw [h.workingDirectory_eq, h.follow_eq]

/-- A path leads nowhere in both trees, or to the same location. -/
theorem path_cases (h : SamePaths t t') (p : Path) :
    (∃ e, t.get p = .error e ∧ t'.get p = .error e ∧ t.list p = .error e ∧ t'.list p = .error e) ∨
      ∃ l e e', t.LeadsTo p l e ∧ t'.LeadsTo p l e' ∧ (e = .directory ↔ e' = .directory) := by
  cases hlocate : t.locate p with
  | error e =>
    have hlocate' : t'.locate p = .error e := by rw [← h.locate_eq, hlocate]
    refine .inl ⟨e, ?_⟩
    unfold get list
    rw [hlocate, hlocate']
    exact ⟨rfl, rfl, rfl, rfl⟩
  | ok l =>
    have hlocate' : t'.locate p = .ok l := by rw [← h.locate_eq, hlocate]
    -- The location may be empty in both trees, and then both report the same error.
    rcases h.entry?_cases l with ⟨he, he'⟩ | ⟨he, he'⟩ | ⟨e, e', he, he', hne, hne'⟩
    · refine .inl ⟨.notFound, ?_⟩
      rw [get_of_locate hlocate, get_of_locate hlocate', list_of_locate hlocate,
        list_of_locate hlocate', he, he']
      exact ⟨rfl, rfl, rfl, rfl⟩
    · exact .inr ⟨l, _, _, ⟨hlocate, he⟩, ⟨hlocate', he'⟩, Iff.rfl⟩
    · exact .inr ⟨l, _, _, ⟨hlocate, he⟩, ⟨hlocate', he'⟩, iff_of_false hne hne'⟩

/-- In the other tree a path leads to the same location. -/
theorem exists_leadsTo (h : SamePaths t t') {p : Path} {l : Location} {e : Entry}
    (hp : t.LeadsTo p l e) : ∃ e', t'.LeadsTo p l e' := by
  have hsome := h.isSome_eq l
  rw [hp.entry_eq] at hsome
  rcases Option.isSome_iff_exists.mp hsome.symm with ⟨e', he'⟩
  exact ⟨e', by rw [← h.locate_eq, hp.locate_eq], he'⟩

theorem has_eq (h : SamePaths t t') (p : Path) : t.has p = t'.has p := by
  unfold has
  rcases h.path_cases p with ⟨e, he, he', -, -⟩ | ⟨l, e, e', hl, hl', -⟩
  · rw [he, he']
  · rw [hl.get_eq, hl'.get_eq]
    rfl

theorem isDirectory_eq (h : SamePaths t t') (p : Path) : t.isDirectory p = t'.isDirectory p := by
  unfold isDirectory
  rcases h.path_cases p with ⟨e, he, he', -, -⟩ | ⟨l, e, e', hl, hl', hdir⟩
  · rw [he, he']
  · rw [hl.get_eq, hl'.get_eq, Bool.eq_iff_iff]
    simpa [Except.toOption] using hdir

theorem isFile_eq (h : SamePaths t t') (p : Path) : t.isFile p = t'.isFile p := by
  unfold isFile
  rw [h.has_eq, h.isDirectory_eq]

/-- A directory lists the same names in both trees, in whatever order. -/
theorem list_cases (h : SamePaths t t') (p : Path) :
    (∃ e, t.list p = .error e ∧ t'.list p = .error e) ∨
      ∃ names names', t.list p = .ok names ∧ t'.list p = .ok names' ∧
        ∀ n, n ∈ names ↔ n ∈ names' := by
  rcases h.path_cases p with ⟨e, -, -, he, he'⟩ | ⟨l, e, e', hl, hl', hdir⟩
  · exact .inl ⟨e, he, he'⟩
  · -- A file is no directory in the other tree either.
    by_cases hedir : e = .directory
    · subst hedir
      obtain rfl := hdir.mp rfl
      refine .inr ⟨_, _, hl.list_eq, hl'.list_eq, ?_⟩
      intro n
      rw [mem_namesAt_iff, mem_namesAt_iff, h.isSome_eq]
    · have hedir' : e' ≠ .directory := fun he' => hedir (hdir.mpr he')
      exact .inl ⟨.notDirectory, hl.list_eq_error hedir, hl'.list_eq_error hedir'⟩

/-- Trees with the same entries have the same paths. -/
theorem of_entry?_eq (hdir : t.workingDirectory = t'.workingDirectory)
    (h : ∀ l, t.entry? l = t'.entry? l) : SamePaths t t' := by
  refine ⟨hdir, ?_, ?_⟩
  · intro l
    rw [h]
  · intro l
    rw [h]

/-- Trees with the same entries hold the same texts. -/
theorem read_eq (h : SamePaths t t') (hentry : ∀ l, t.entry? l = t'.entry? l) (p : Path) :
    t.read p = t'.read p := by
  unfold read get
  rw [h.locate_eq]
  simp only [hentry]

/-- Lists that agree on locations and directories show the same of both. -/
theorem lookup_of_forall₂ {es es' : List (Location × Entry)}
    (h : List.Forall₂ (fun e e' => e.1 = e'.1 ∧ (e.2 = .directory ↔ e'.2 = .directory)) es es')
    (l : Location) : (es.lookup l).isSome = (es'.lookup l).isSome ∧
      (es.lookup l = some .directory ↔ es'.lookup l = some .directory) := by
  induction h with
  | nil => exact ⟨rfl, Iff.rfl⟩
  | cons he _ ih =>
    rw [List.lookup_cons, List.lookup_cons, he.1]
    split
    · exact ⟨rfl, by simpa using he.2⟩
    · exact ih

/-- Trees that list the same locations, with directories at the same places. -/
theorem of_forall₂ (hdir : t.workingDirectory = t'.workingDirectory)
    (h : List.Forall₂ (fun e e' => e.1 = e'.1 ∧ (e.2 = .directory ↔ e'.2 = .directory))
      t.entries t'.entries) : SamePaths t t' := by
  refine ⟨hdir, ?_, ?_⟩
  · intro l
    unfold entry?
    split
    · rfl
    · exact (lookup_of_forall₂ h l).1
  · intro l
    unfold entry?
    split
    · rfl
    · exact (lookup_of_forall₂ h l).2

end SamePaths

end FileTree
end MemberOrder
