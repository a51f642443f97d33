import MemberOrder.Exercise.Check
import MemberOrder.Proofs.Pairing

/-! # What a check finds

A check walks through the projects under a root, reads the files on the way and
stops at the first one that cannot be read. Its result is said here by location:
a mismatch for each pair of files with a difference, in the order of the pairs,
or the error of the first pair that cannot be read (`Exercise.comparePairs_cases`).
Of the tree it sees the paths, and the texts of the pairs
(`Exercise.findings_congr`). -/

namespace MemberOrder
namespace Exercise

namespace Pair

/-- Both files can be read. -/
def IsReadable (t : FileTree) (l : Location) (x : Pair) : Prop :=
  ∃ user solution, t.textAt (l ++ x.userNames) = .ok user ∧
    t.textAt (l ++ x.solutionNames) = .ok solution

/-- One of the files cannot be read. The error is that of the user file, if this
is one of them. -/
inductive FailsWith (t : FileTree) (l : Location) (x : Pair) : AccessError → Prop
  | user {e : AccessError} (h : t.textAt (l ++ x.userNames) = .error e) : FailsWith t l x e
  | solution {e : AccessError} {user : Text} (hu : t.textAt (l ++ x.userNames) = .ok user)
      (h : t.textAt (l ++ x.solutionNames) = .error e) : FailsWith t l x e

/-- The difference between a user file and its solution, if there is one. The
file is shown as it is seen from the root. -/
def mismatch? (t : FileTree) (denied : Roster) (l : Location) (x : Pair) : Option Mismatch :=
  match t.textAt (l ++ x.userNames), t.textAt (l ++ x.solutionNames) with
  | .ok user, .ok solution =>
    let missing := (Roster.ofSource denied user).diff (Roster.ofSource denied solution)
    if missing.isEmpty then none else some ⟨⟨Text.join ['/'] x.userNames⟩, missing⟩
  | _, _ => none

/-- Both files of a pair can be read, or there is an error. -/
theorem isReadable_or_failsWith (t : FileTree) (l : Location) (x : Pair) :
    x.IsReadable t l ∨ ∃ e, x.FailsWith t l e := by
  -- The user file is read first, so its error comes first.
  cases huser : t.textAt (l ++ x.userNames) with
  | error e => exact .inr ⟨e, .user huser⟩
  | ok user =>
    cases hsolution : t.textAt (l ++ x.solutionNames) with
    | error e => exact .inr ⟨e, .solution huser hsolution⟩
    | ok solution => exact .inl ⟨user, solution, huser, hsolution⟩

section IsIn

variable {t : FileTree} {l : Location} {x : Pair}

/-- The solution of a pair is there. -/
theorem IsIn.exists_solution (hx : x.IsIn t l) :
    ∃ e, t.entry? (l ++ x.solutionNames) = some e := by
  have hsome := List.find?_some hx.first_candidate
  exact Option.isSome_iff_exists.mp hsome

variable (ht : t.IsWellFormed) (hx : x.IsIn t l)
include ht hx

theorem IsIn.isFileName_project : Path.IsFileName x.project :=
  ht.isFileName (by rw [hx.project_dir]; rfl)

theorem IsIn.isFileName_file : Path.IsFileName x.file := by
  rcases hx.user_file with ⟨e, he, -⟩
  apply ht.isFileName (l := l ++ [x.project, "src"])
  rw [List.append_assoc]
  exact Option.isSome_iff_exists.mpr ⟨e, he⟩

theorem IsIn.isFileName_solution : Path.IsFileName x.solution := by
  apply ht.isFileName (l := l ++ [x.project, "src", "solution"])
  rw [List.append_assoc]
  exact Option.isSome_iff_exists.mpr hx.exists_solution

/-- Seen from the root, a user file is given by the names on the way to it. -/
theorem IsIn.relativeTo_eq {root : Path} (hroot : root.text ≠ []) :
    (x.paths root).1.relativeTo root = ⟨Text.join ['/'] x.userNames⟩ := by
  apply Path.relativeTo_descend hroot
  unfold userNames
  simp only [List.forall_mem_cons, List.not_mem_nil, false_implies, implies_true, and_true]
  exact ⟨hx.isFileName_project ht, by decide, hx.isFileName_file ht⟩

variable {root : Path} (h : t.LeadsTo root l .directory)
include h

/-- The sources of a project with a pair are found. -/
theorem IsIn.leadsTo_src :
    t.LeadsTo (root.descend [x.project, "src"]) (l ++ [x.project, "src"]) .directory := by
  have hproject := h.join (hx.isFileName_project ht) hx.project_dir
  exact hproject.join_append (by decide) hx.src_dir

/-- The user file of a pair is found. -/
theorem IsIn.leadsTo_user : ∃ e, t.LeadsTo (x.paths root).1 (l ++ x.userNames) e := by
  rcases hx.user_file with ⟨e, he, -⟩
  exact ⟨e, (hx.leadsTo_src ht h).join_append (hx.isFileName_file ht) he⟩

/-- The solution of a pair is found. -/
theorem IsIn.leadsTo_solution : ∃ e, t.LeadsTo (x.paths root).2 (l ++ x.solutionNames) e := by
  rcases hx.exists_solution with ⟨e, he⟩
  have hsolutions := (hx.leadsTo_src ht h).join_append (by decide) hx.solutions_dir
  exact ⟨e, hsolutions.join_append (hx.isFileName_solution ht) he⟩

end IsIn

end Pair

/-! ## Comparing -/

/-- A file that is there is read. -/
theorem roster_eq {t : FileTree} {p : Path} {l : Location} {e : Entry} (h : t.LeadsTo p l e)
    (denied : Roster) : roster t denied p = (t.textAt l).map (Roster.ofSource denied) := by
  unfold roster
  rw [if_pos h.has_eq, h.read_eq]

/-- Compare the pairs in order. -/
def comparePairs (t : FileTree) (denied : Roster) (root : Path) : List (Path × Path) → Findings :=
  .inOrder (comparePair t denied root)

theorem comparePairs_cons_error {t : FileTree} {denied : Roster} {p : Path × Path} {e : AccessError}
    (h : compare t denied p.1 p.2 = .error e) (root : Path) (rest : List (Path × Path)) :
    comparePairs t denied root (p :: rest) = ⟨[], some (.ofAccess e)⟩ := by
  rw [comparePairs, Findings.inOrder, comparePair, h]
  rfl

theorem comparePairs_cons_ok {t : FileTree} {denied missing : Roster} {p : Path × Path}
    (h : compare t denied p.1 p.2 = .ok missing) (root : Path) (rest : List (Path × Path)) :
    comparePairs t denied root (p :: rest) =
      let later := comparePairs t denied root rest
      if missing.isEmpty then later
      else ⟨⟨p.1.relativeTo root, missing⟩ :: later.mismatches, later.failure?⟩ := by
  rw [comparePairs, Findings.inOrder, comparePair, h]
  dsimp only
  split
  · rfl
  · rfl

section Compare

variable {t : FileTree} (ht : t.IsWellFormed) {l : Location} {root : Path}
  (h : t.LeadsTo root l .directory) {x : Pair} (hx : x.IsIn t l) (denied : Roster)
include ht h hx

/-- Two files are compared by their texts. -/
theorem compare_eq : compare t denied (x.paths root).1 (x.paths root).2 = (do
    let declared ← (t.textAt (l ++ x.userNames)).map (Roster.ofSource denied)
    let solved ← (t.textAt (l ++ x.solutionNames)).map (Roster.ofSource denied)
    return declared.diff solved) := by
  rcases hx.leadsTo_user ht h with ⟨e, huser⟩
  rcases hx.leadsTo_solution ht h with ⟨e', hsolution⟩
  unfold compare
  rw [roster_eq huser, roster_eq hsolution]

/-- A pair that can be read adds its mismatch, if there is one. -/
theorem comparePairs_of_isReadable (hread : x.IsReadable t l) (rest : List (Path × Path)) :
    comparePairs t denied root (x.paths root :: rest) =
      let later := comparePairs t denied root rest
      ⟨(x.mismatch? t denied l).toList ++ later.mismatches, later.failure?⟩ := by
  rcases hread with ⟨user, solution, huser, hsolution⟩
  have hcompare := compare_eq ht h hx denied
  rw [huser, hsolution] at hcompare
  rw [comparePairs_cons_ok hcompare, hx.relativeTo_eq ht h.text_ne_nil]
  unfold Pair.mismatch?
  rw [huser, hsolution]
  dsimp only
  split
  · rfl
  · rfl

/-- A pair that cannot be read ends the check. -/
theorem comparePairs_of_failsWith {e : AccessError} (hfails : x.FailsWith t l e)
    (rest : List (Path × Path)) :
    comparePairs t denied root (x.paths root :: rest) = ⟨[], some (.ofAccess e)⟩ := by
  apply comparePairs_cons_error
  rw [compare_eq ht h hx denied]
  cases hfails with
  | user huser =>
    rw [huser]
    rfl
  | solution huser hsolution =>
    rw [huser, hsolution]
    rfl

end Compare

/-- The pairs in order: all of them can be read, or there is a first one that
cannot. -/
theorem comparePairs_cases {t : FileTree} (ht : t.IsWellFormed) {l : Location} {root : Path}
    (h : t.LeadsTo root l .directory) (denied : Roster) {ps : List Pair}
    (hps : ∀ x ∈ ps, x.IsIn t l) :
    (∀ x ∈ ps, x.IsReadable t l) ∧
        comparePairs t denied root (ps.map (Pair.paths root)) =
          ⟨ps.filterMap (Pair.mismatch? t denied l), none⟩ ∨
      ∃ before x after e, ps = before ++ x :: after ∧ (∀ y ∈ before, y.IsReadable t l) ∧
        x.FailsWith t l e ∧
        comparePairs t denied root (ps.map (Pair.paths root)) =
          ⟨before.filterMap (Pair.mismatch? t denied l), some (.ofAccess e)⟩ := by
  induction ps with
  | nil => exact .inl ⟨by simp, rfl⟩
  | cons x ps ih =>
    have hx := hps x List.mem_cons_self
    have hcons : ∀ qs, (x :: qs).filterMap (Pair.mismatch? t denied l) =
        (x.mismatch? t denied l).toList ++ qs.filterMap (Pair.mismatch? t denied l) := by
      intro qs
      rw [List.filterMap_cons]
      cases x.mismatch? t denied l <;> rfl
    rw [List.map_cons]
    -- A failure here hides what comes later; otherwise the later pairs decide.
    rcases x.isReadable_or_failsWith t l with hread | ⟨e, hfails⟩
    · rw [comparePairs_of_isReadable ht h hx denied hread]
      rcases ih fun y hy => hps y (List.mem_cons_of_mem x hy) with
        ⟨hall, hfound⟩ | ⟨before, y, after, e, rfl, hbefore, hfails, hfound⟩
      · refine .inl ⟨List.forall_mem_cons.mpr ⟨hread, hall⟩, ?_⟩
        rw [hfound, hcons]
      · refine .inr ⟨x :: before, y, after, e, rfl, List.forall_mem_cons.mpr ⟨hread, hbefore⟩,
          hfails, ?_⟩
        rw [hfound, hcons]
    · exact .inr ⟨[], x, ps, e, rfl, by simp, hfails,
        comparePairs_of_failsWith ht h hx denied hfails _⟩

/-! ## Project by project

The check lists a project when it comes to it, with the findings of the projects
before at hand. It comes to the same as listing all pairs first, because a
directory that is there can be listed. -/

namespace Findings

/-- A failure hides what comes later, wherever the findings are put together. -/
theorem andThen_assoc (found later last : Findings) :
    (found.andThen later).andThen last = found.andThen (later.andThen last) := by
  -- Only if the first two did not fail does the last one count.
  rcases found with ⟨ms, _ | f⟩
  · rcases later with ⟨ms', _ | f'⟩
    · simp [andThen]
    · rfl
  · rfl

/-- Checking two lists one after the other. -/
theorem inOrder_append {α : Type} (check : α → Findings) (as bs : List α) :
    inOrder check (as ++ bs) = (inOrder check as).andThen (inOrder check bs) := by
  induction as with
  | nil => rfl
  | cons a as ih => rw [List.cons_append, inOrder, ih, inOrder, andThen_assoc]

/-- Checking part by part comes to the same as checking what the parts hold. -/
theorem inOrder_flatMap {α β : Type} (check : β → Findings) (parts : α → List β) (as : List α) :
    inOrder check (as.flatMap parts) = inOrder (fun a => inOrder check (parts a)) as := by
  induction as with
  | nil => rfl
  | cons a as ih => rw [List.flatMap_cons, inOrder_append, ih, inOrder]

/-- What is skipped adds nothing. -/
theorem inOrder_filterMap {α β : Type} {check : α → Findings} {check' : β → Findings}
    {part? : α → Option β} (h : ∀ a, check a = (part? a).elim {} check') (as : List α) :
    inOrder check' (as.filterMap part?) = inOrder check as := by
  induction as with
  | nil => rfl
  | cons a as ih =>
    rw [List.filterMap_cons, inOrder, h]
    -- What has no part is checked without a finding.
    cases part? a with
    | none => exact ih
    | some b => rw [← ih]; rfl

end Findings

/-- The user files of a directory that is there are listed. -/
theorem exists_userFiles {t : FileTree} {src : Path} (h : t.isDirectory src = true) :
    ∃ users, userFiles t src = .ok users := by
  cases hget : t.get src with
  | error e =>
    rw [FileTree.isDirectory, hget] at h
    cases h
  | ok e =>
    rw [FileTree.isDirectory, hget] at h
    rcases FileTree.exists_leadsTo hget with ⟨l, hl⟩
    rw [Option.some.inj (eq_of_beq h)] at hl
    rw [userFiles, hl.list_eq]
    exact ⟨_, rfl⟩

/-- Checking a project is comparing its pairs. -/
theorem exists_pairsIn (t : FileTree) (denied : Roster) (root project : Path) :
    ∃ ps, pairsIn t project = .ok ps ∧
      checkProject t denied root project = comparePairs t denied root ps := by
  unfold pairsIn checkProject
  dsimp only
  -- A project without the two directories has no pairs and no findings.
  split
  · rename_i hdirs
    rcases exists_userFiles (Bool.and_eq_true_iff.mp hdirs).1 with ⟨users, husers⟩
    rw [husers]
    refine ⟨_, rfl, (Findings.inOrder_filterMap ?_ users).symm⟩
    intro user
    unfold checkFile
    cases solution? t user ((project.join "src").join "solution") <;> rfl
  · exact ⟨[], rfl, rfl⟩

/-- Checking all projects is comparing all pairs. -/
theorem exists_pairs {t : FileTree} {root : Path} {projects : List Path}
    (h : Exercise.projects t root = .ok projects) (denied : Roster) :
    ∃ ps, pairs t root = .ok ps ∧
      Findings.inOrder (checkProject t denied root) projects = comparePairs t denied root ps := by
  choose ps hps hcheck using exists_pairsIn t denied root
  refine ⟨projects.flatMap ps, ?_, ?_⟩
  · rw [pairs, h]
    show (do return (← projects.mapM (pairsIn t)).flatten) = _
    rw [mapM_eq_ok fun project _ => hps project]
    rfl
  · rw [comparePairs, Findings.inOrder_flatMap, funext hcheck]
    rfl

/-- The check finds what comparing all pairs finds. -/
theorem findings_of_pairs {t : FileTree} {root : Path} {ps : List (Path × Path)}
    (h : pairs t root = .ok ps) (denied : Roster) :
    findings t denied root = comparePairs t denied root ps := by
  rcases exists_leadsTo_of_pairs h with ⟨l, hroot⟩
  rcases exists_of_bind_eq_ok h with ⟨projects, hprojects, -⟩
  rcases exists_pairs hprojects denied with ⟨qs, hqs, hfound⟩
  rw [h] at hqs
  cases hqs
  rw [findings, if_pos hroot.has_eq, hprojects]
  exact hfound

/-- If the projects cannot be listed, nothing is found. -/
theorem findings_of_pairs_error {t : FileTree} {root : Path} {e : AccessError}
    (hroot : t.has root = true) (h : pairs t root = .error e) (denied : Roster) :
    findings t denied root = .stopped e := by
  rw [findings, if_pos hroot]
  cases hprojects : projects t root with
  | error e' =>
    rw [pairs, hprojects] at h
    cases h
    rfl
  | ok projects =>
    rcases exists_pairs hprojects denied with ⟨ps, hps, -⟩
    rw [h] at hps
    cases hps

/-- The check compares the pairs by location. -/
theorem findings_eq {t : FileTree} (ht : t.IsWellFormed) {l : Location} {root : Path}
    (h : t.LeadsTo root l .directory) (denied : Roster) :
    findings t denied root = comparePairs t denied root ((listing t l).map (Pair.paths root)) :=
  findings_of_pairs (pairs_eq ht h) denied

/-! ## What the check depends on -/

section SamePaths

variable {t t' : FileTree} (h : t.SamePaths t')
include h

/-- Comparing depends on the texts of the pairs only. -/
theorem comparePairs_congr (denied : Roster) (root : Path) {ps : List (Path × Path)}
    (hread : ∀ p ∈ ps, t.read p.1 = t'.read p.1 ∧ t.read p.2 = t'.read p.2) :
    comparePairs t denied root ps = comparePairs t' denied root ps := by
  induction ps with
  | nil => rfl
  | cons p ps ih =>
    have hp := hread p List.mem_cons_self
    have hcompare : compare t denied p.1 p.2 = compare t' denied p.1 p.2 := by
      unfold compare roster
      rw [h.has_eq, h.has_eq, hp.1, hp.2]
    have hrest := ih fun q hq => hread q (List.mem_cons_of_mem p hq)
    cases hresult : compare t' denied p.1 p.2 with
    | error e =>
      rw [comparePairs_cons_error hresult, comparePairs_cons_error (hcompare.trans hresult)]
    | ok missing =>
      rw [comparePairs_cons_ok hresult, comparePairs_cons_ok (hcompare.trans hresult), hrest]

/-- A check depends on the paths and on what the pairs hold. -/
theorem findings_congr (denied : Roster) (root : Path)
    (hread : ∀ ps, pairs t root = .ok ps →
      ∀ p ∈ ps, t.read p.1 = t'.read p.1 ∧ t.read p.2 = t'.read p.2) :
    findings t denied root = findings t' denied root := by
  have hpairs' := pairs_congr h root
  -- Without pairs either the root is missing or it cannot be listed.
  cases hpairs : pairs t root with
  | error e =>
    rw [hpairs] at hpairs'
    cases hroot : t.has root with
    | true =>
      have hroot' : t'.has root = true := by rw [← h.has_eq, hroot]
      rw [findings_of_pairs_error hroot hpairs,
        findings_of_pairs_error hroot' hpairs'.symm]
    | false =>
      have hroot' : t'.has root = false := by rw [← h.has_eq, hroot]
      rw [findings, findings, hroot, hroot']
      rfl
  | ok ps =>
    rw [hpairs] at hpairs'
    rw [findings_of_pairs hpairs, findings_of_pairs hpairs'.symm,
      comparePairs_congr h denied root (hread ps hpairs)]

end SamePaths

/-- **A check is exact.** It fails if nothing is at the root, or something that
is no directory. In a directory, however its path is spelled, it goes through
the pairs by project and then by file: there is one list of them. If all of them
can be read, the report has one mismatch for each pair with a difference, in
this order and with the file as seen from the root. Otherwise there is no report
but the error of the first pair that cannot be read, and of its user file before
its solution. In which order the system lists the entries makes no difference. -/
theorem check_is_exact (t : FileTree) (denied : Roster) (root : Path) (ht : t.IsWellFormed) :
    (t.has root = false → check t denied root = .error (.rootNotFound root)) ∧
      (∀ l e, t.LeadsTo root l e → e ≠ .directory →
        check t denied root = .error (.ofAccess .notDirectory)) ∧
      (∀ l, t.LeadsTo root l .directory →
        ∃ ps, IsListing t l ps ∧ (∀ qs, IsListing t l qs → qs = ps) ∧
          ((∀ x ∈ ps, x.IsReadable t l) ∧
              check t denied root = .ok ⟨ps.filterMap (Pair.mismatch? t denied l)⟩ ∨
            ∃ before x after e, ps = before ++ x :: after ∧ (∀ y ∈ before, y.IsReadable t l) ∧
              x.FailsWith t l e ∧ check t denied root = .error (.ofAccess e))) ∧
      ∀ t' : FileTree, t'.workingDirectory = t.workingDirectory → t'.entries.Perm t.entries →
        check t' denied root = check t denied root := by
  refine ⟨?_, ?_, ?_, ?_⟩
  · intro hroot
    unfold check findings
    rw [hroot]
    rfl
  · intro l e h he
    unfold check findings projects
    rw [h.has_eq, h.list_eq_error he]
    rfl
  · intro l h
    have hlisting := isListing_listing t l
    refine ⟨listing t l, hlisting, fun qs hqs => hqs.unique hlisting, ?_⟩
    unfold check
    rw [findings_eq ht h]
    rcases comparePairs_cases ht h denied fun x hx => (hlisting.mem_iff x).mp hx with
      ⟨hall, hfound⟩ | ⟨before, x, after, e, hps, hbefore, hfails, hfound⟩
    · refine .inl ⟨hall, ?_⟩
      rw [hfound]
      rfl
    · refine .inr ⟨before, x, after, e, hps, hbefore, hfails, ?_⟩
      rw [hfound]
      rfl
  · intro t' hdir hperm
    have hentry : ∀ l, t'.entry? l = t.entry? l := by
      intro l
      exact (FileTree.entry?_of_perm hperm.symm ht.distinct l).symm
    have hpaths := FileTree.SamePaths.of_entry?_eq hdir hentry
    unfold check
    rw [findings_congr hpaths denied root]
    intro ps _ p _
    exact ⟨hpaths.read_eq hentry p.1, hpaths.read_eq hentry p.2⟩

/-- A root with dots and slashes, in a tree that lists the project with the
smaller number last. -/
theorem check_is_exact_dotted_root :
    let t : FileTree := (⟨["home"], []⟩ : FileTree)
      |>.add ["home", "foundry", "2-b", "src", "Safe.sol"] (.document "event Moved();")
      |>.add ["home", "foundry", "2-b", "src", "solution", "SafeSolution.sol"] (.document "")
      |>.add ["home", "foundry", "1-a", "src", "Vault.sol"]
        (.document "function open() \x7b\x7d\nfunction shut() \x7b\x7d")
      |>.add ["home", "foundry", "1-a", "src", "solution", "VaultSolution.sol"]
        (.document "function open() \x7b\x7d")
    let root : Path := "./foundry//"
    t.IsWellFormed ∧ t.LeadsTo root ["home", "foundry"] .directory ∧
      check ⟨t.workingDirectory, t.entries.reverse⟩ .empty root =
        .ok ⟨[⟨"1-a/src/Vault.sol", .ofLists ["shut"] [] []⟩,
          ⟨"2-b/src/Safe.sol", .ofLists [] ["Moved"] []⟩]⟩ := by
  intro t root
  have hformed : t.IsWellFormed := by decide +kernel
  have hroot : t.LeadsTo root ["home", "foundry"] .directory := by
    constructor <;> decide +kernel
  refine ⟨hformed, hroot, ?_⟩
  have horder := (check_is_exact t .empty root hformed).2.2.2
  rw [horder ⟨t.workingDirectory, t.entries.reverse⟩ rfl (List.reverse_perm _)]
  decide +kernel

end Exercise
end MemberOrder
