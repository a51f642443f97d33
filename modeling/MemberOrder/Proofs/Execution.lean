import MemberOrder.CommandLine.Execution
import MemberOrder.Proofs.Check

/-! # What a run depends on

Which files a run reads is decided by its arguments, by the paths in the tree and
by what the files that it read before said. The settings come from at most one
file (`Settings.IsSelected`), and other files that might hold settings are
not looked at (`Settings.load_congr`). A run that orders members reads its input
besides, and a run that checks exercises reads the pairs under its root
(`Exercise.AgreeBelow`). -/

namespace MemberOrder

namespace Settings

/-- The file that holds the settings: the one that is named explicitly; without
such a name the one of the working directory, if it exists; and without this one
that of the platform, if it exists. -/
inductive IsSelected (s : Surroundings) (explicit? : Option Path) : Path → Prop
  | explicit {p : Path} (h : explicit? = some p) : IsSelected s explicit? p
  | workingDirectory (h : explicit? = none) (hlocal : s.files.has localPath = true) :
      IsSelected s explicit? localPath
  | platform {p : Path} (h : explicit? = none) (hlocal : s.files.has localPath = false)
      (hplatform : s.platformSettings? = some p) (hp : s.files.has p = true) :
      IsSelected s explicit? p

/-- The file from which the settings come is the selected one. -/
theorem source?_eq_some_iff {s : Surroundings} {explicit? : Option Path} {p : Path} :
    source? s explicit? = some p ↔ IsSelected s explicit? p := by
  unfold source?
  constructor
  · intro h
    -- The three ways are tried in this order, and each rules out those behind it.
    cases hexplicit : explicit? with
    | some q =>
      rw [hexplicit] at h
      cases h
      exact .explicit rfl
    | none =>
      rw [hexplicit] at h
      dsimp only at h
      split at h
      · rename_i hlocal
        cases h
        exact .workingDirectory rfl hlocal
      · rename_i hlocal
        rcases Option.filter_eq_some_iff.mp h with ⟨hplatform, hp⟩
        exact .platform rfl (Bool.eq_false_iff.mpr hlocal) hplatform hp
  · intro h
    cases h with
    | explicit h => rw [h]
    | workingDirectory h hlocal =>
      rw [h]
      exact if_pos hlocal
    | platform h hlocal hplatform hp =>
      rw [h]
      dsimp only
      rw [hlocal, hplatform, Option.filter_some, hp]
      rfl

end Settings

/-- Surroundings with the same paths, in which the selected settings file holds
the same. -/
structure Surroundings.AgreeOnSettings (s s' : Surroundings) (explicit? : Option Path) : Prop where
  same_paths : s.files.SamePaths s'.files
  platform_eq : s.platformSettings? = s'.platformSettings?
  settings_eq : ∀ p, Settings.IsSelected s explicit? p → s.files.read p = s'.files.read p

namespace Settings

/-- A file that is not selected is not read. -/
theorem load_congr (read : Reader) {s s' : Surroundings} {explicit? : Option Path}
    (h : s.AgreeOnSettings s' explicit?) (root? : Option Text) :
    load read s explicit? root? = load read s' explicit? root? := by
  have hsource : source? s explicit? = source? s' explicit? := by
    unfold source?
    rw [h.platform_eq, h.same_paths.has_eq, funext h.same_paths.has_eq]
  unfold load
  rw [← hsource]
  -- Only the selected file is read, so it is the only one that has to agree.
  cases hselected : source? s explicit? with
  | none => rfl
  | some p =>
    have hread : readFile read s.files p = readFile read s'.files p := by
      unfold readFile
      rw [h.settings_eq p (source?_eq_some_iff.mp hselected)]
    dsimp only
    rw [hread]

/-- Settings that cannot be had from the selected file are a failure. -/
theorem load_of_readFile {read : Reader} {s : Surroundings} {explicit? : Option Path} {p : Path}
    {e : Problem} (hp : IsSelected s explicit? p) (he : readFile read s.files p = .error e)
    (root? : Option Text) :
    load read s explicit? root? = .error (.settings e.message) := by
  unfold load
  rw [source?_eq_some_iff.mpr hp]
  dsimp only
  rw [he]
  rfl

end Settings

/-- In both trees the pairs under a root hold the same texts. -/
def Exercise.AgreeBelow (t t' : FileTree) (root : Path) : Prop :=
  ∀ l, t.LeadsTo root l .directory → ∀ x : Pair, x.IsIn t l →
    t.textAt (l ++ x.userNames) = t'.textAt (l ++ x.userNames) ∧
      t.textAt (l ++ x.solutionNames) = t'.textAt (l ++ x.solutionNames)

/-- A check finds the same if the pairs under its root hold the same. -/
theorem Exercise.findings_of_agreeBelow {t t' : FileTree} (hpaths : t.SamePaths t')
    (ht : t.IsWellFormed) {root : Path} (h : AgreeBelow t t' root) (denied : Roster) :
    findings t denied root = findings t' denied root := by
  apply findings_congr hpaths
  intro ps hps p hp
  rcases exists_leadsTo_of_pairs hps with ⟨l, hroot⟩
  rw [pairs_eq ht hroot] at hps
  cases hps
  rcases List.mem_map.mp hp with ⟨x, hmem, rfl⟩
  have hx := mem_listing_iff.mp hmem
  have hagree := h l hroot x hx
  -- The pairs are found through paths, and these lead to the same locations in both trees.
  rcases hx.leadsTo_user ht hroot with ⟨e, huser⟩
  rcases hx.leadsTo_solution ht hroot with ⟨f, hsolution⟩
  rcases hpaths.exists_leadsTo huser with ⟨e', huser'⟩
  rcases hpaths.exists_leadsTo hsolution with ⟨f', hsolution'⟩
  rw [huser.read_eq, huser'.read_eq, hsolution.read_eq, hsolution'.read_eq]
  exact hagree

/-! ## Runs -/

/-- The input is read exactly if its text can be had. -/
theorem readSource_eq_ok_iff {t : FileTree} {p : Path} {text : Text} :
    readSource t p = .ok text ↔ t.read p = .ok text := by
  unfold readSource
  cases hget : t.get p with
  | error e =>
    -- What is not there cannot be read.
    have hhas : t.has p = false := by
      unfold FileTree.has
      rw [hget]
      rfl
    have hread : t.read p = .error e := by
      unfold FileTree.read
      rw [hget]
      rfl
    rw [hhas, hread]
    simp
  | ok e =>
    rcases FileTree.exists_leadsTo hget with ⟨l, hl⟩
    rw [if_pos hl.has_eq]
    cases t.read p <;> simp [Except.mapError]

theorem readSource_congr {t t' : FileTree} (hpaths : t.SamePaths t') {p : Path}
    (h : t.read p = t'.read p) : readSource t p = readSource t' p := by
  unfold readSource
  rw [hpaths.has_eq, h]

namespace CommandLine

/-- The path of the file whose members are to be ordered. -/
def Arguments.input (a : Arguments) : Path := ⟨a.operand?.getD []⟩

/-- The path of the settings file, if one is named. -/
def Arguments.settings? (a : Arguments) : Option Path := a.config?.map .mk

variable {read : Settings.Reader}

/-- Without settings nothing is ordered. -/
theorem run_reorder_of_error {s : Surroundings} {a : Arguments} {f : Failure}
    (h : Settings.load read s a.settings? none = .error f) :
    run read .reorder s a = { result := .error f } := by
  unfold Arguments.settings? at h
  show reorderFile read s a = _
  unfold reorderFile
  rw [h]
  rfl

/-- With settings the input is read and ordered, with the warnings of the pass. -/
theorem run_reorder_of_ok {s : Surroundings} {a : Arguments} {settings : Settings}
    (h : Settings.load read s a.settings? none = .ok settings) :
    run read .reorder s a = match readSource s.files a.input with
      | .error f => { result := .error f }
      | .ok text =>
        { result := .ok none
          output := reorder settings.braceCounting text ++ ['\n']
          warnings := (Classification.ofSource settings.braceCounting text).warnings.map
            fun w => w.diagnostic.headline } := by
  unfold Arguments.settings? at h
  show reorderFile read s a = _
  unfold reorderFile Arguments.input reorder
  rw [h]
  cases readSource s.files ⟨a.operand?.getD []⟩ <;> rfl

theorem run_reorder_congr {s s' : Surroundings} {a : Arguments}
    (h : s.AgreeOnSettings s' a.settings?) (hinput : s.files.read a.input = s'.files.read a.input) :
    run read .reorder s a = run read .reorder s' a := by
  have hload := Settings.load_congr read h none
  cases hsettings : Settings.load read s a.settings? none with
  | error f =>
    rw [run_reorder_of_error hsettings, run_reorder_of_error (hload.symm.trans hsettings)]
  | ok settings =>
    rw [run_reorder_of_ok hsettings, run_reorder_of_ok (hload.symm.trans hsettings),
      readSource_congr h.same_paths hinput]

/-- Without settings nothing is checked. -/
theorem run_check_of_error {s : Surroundings} {a : Arguments} {f : Failure}
    (h : Settings.load read s a.settings? a.operand? = .error f) :
    run read .check s a = { result := .error f } := by
  unfold Arguments.settings? at h
  show checkExercises read s a = _
  unfold checkExercises
  rw [h]

/-- With settings the exercises are checked, and each mismatch is a warning as well. -/
theorem run_check_of_ok {s : Surroundings} {a : Arguments} {settings : Settings}
    (h : Settings.load read s a.settings? a.operand? = .ok settings) :
    run read .check s a =
      let found := Exercise.findings s.files settings.denied ⟨settings.projectRoot⟩
      let warnings := found.mismatches.map mismatchMessage
      match found.result with
      | .error f => { result := .error f, warnings }
      | .ok report =>
        { result := .ok (some report), output := report.text ++ ['\n'], warnings } := by
  unfold Arguments.settings? at h
  show checkExercises read s a = _
  unfold checkExercises
  cases hfound : (Exercise.findings s.files settings.denied ⟨settings.projectRoot⟩).result with
  | error f => simp only [h, hfound]
  | ok report => simp only [h, hfound]

theorem run_check_congr {s s' : Surroundings} {a : Arguments}
    (h : s.AgreeOnSettings s' a.settings?) (hformed : s.files.IsWellFormed)
    (hpairs : ∀ settings, Settings.load read s a.settings? a.operand? = .ok settings →
      Exercise.AgreeBelow s.files s'.files ⟨settings.projectRoot⟩) :
    run read .check s a = run read .check s' a := by
  have hload := Settings.load_congr read h a.operand?
  -- The root is known once the settings are, and the pairs agree below it.
  cases hsettings : Settings.load read s a.settings? a.operand? with
  | error f =>
    rw [run_check_of_error hsettings, run_check_of_error (hload.symm.trans hsettings)]
  | ok settings =>
    rw [run_check_of_ok hsettings, run_check_of_ok (hload.symm.trans hsettings),
      Exercise.findings_of_agreeBelow h.same_paths hformed (hpairs settings hsettings)]

/-- On a failure nothing is written. -/
theorem output_of_error {p : Program} {s : Surroundings} {a : Arguments} {f : Failure}
    (h : (run read p s a).result = .error f) : (run read p s a).output = [] := by
  -- Either program writes in its last step only, when it can fail no more.
  cases p with
  | reorder =>
    cases hsettings : Settings.load read s a.settings? none with
    | error g => rw [run_reorder_of_error hsettings]
    | ok settings =>
      rw [run_reorder_of_ok hsettings] at h ⊢
      cases hsource : readSource s.files a.input with
      | error g => rfl
      | ok text =>
        rw [hsource] at h
        cases h
  | check =>
    cases hsettings : Settings.load read s a.settings? a.operand? with
    | error g => rw [run_check_of_error hsettings]
    | ok settings =>
      rw [run_check_of_ok hsettings] at h ⊢
      dsimp only at h ⊢
      split
      · rfl
      · rename_i report hreport
        rw [hreport] at h
        cases h

/-- **A run depends on the files that it names and writes all or nothing.** Let
two surroundings have the same paths, and let the selected settings file hold the
same in both. Then ordering comes to the same if the input does, and checking
comes to the same if the pairs under the root do: the root is that of the
settings, or the operand. A problem with the settings comes before all others.
On a failure nothing is written. Ordering succeeds exactly if the settings are
loaded and the input is read, and then the reordered text and a line feed are
written. -/
theorem run_depends_on_named_files (read : Settings.Reader) (s s' : Surroundings) (a : Arguments)
    (h : s.AgreeOnSettings s' a.settings?) :
    (s.files.read a.input = s'.files.read a.input →
        run read .reorder s a = run read .reorder s' a) ∧
      (s.files.IsWellFormed →
        (∀ settings, Settings.load read s a.settings? a.operand? = .ok settings →
          Exercise.AgreeBelow s.files s'.files ⟨settings.projectRoot⟩) →
        run read .check s a = run read .check s' a) ∧
      (∀ p problem, Settings.IsSelected s a.settings? p →
        Settings.readFile read s.files p = .error problem →
        ∀ program, (run read program s a).result = .error (.settings problem.message)) ∧
      (∀ program f, (run read program s a).result = .error f → (run read program s a).output = []) ∧
      (∀ r, (run read .reorder s a).result = .ok r → ∃ settings text,
        Settings.load read s a.settings? none = .ok settings ∧ s.files.read a.input = .ok text) ∧
      (∀ settings text, Settings.load read s a.settings? none = .ok settings →
        s.files.read a.input = .ok text →
        (run read .reorder s a).result = .ok none ∧
          (run read .reorder s a).output = reorder settings.braceCounting text ++ ['\n']) := by
  refine ⟨?_, ?_, ?_, ?_, ?_, ?_⟩
  · intro hinput
    exact run_reorder_congr h hinput
  · intro hformed hpairs
    exact run_check_congr h hformed hpairs
  · intro p problem hselected hproblem program
    have hload := Settings.load_of_readFile hselected hproblem
    cases program with
    | reorder =>
      rw [run_reorder_of_error (hload none)]
    | check =>
      rw [run_check_of_error (hload a.operand?)]
  · intro program f hresult
    exact output_of_error hresult
  · intro r hresult
    cases hsettings : Settings.load read s a.settings? none with
    | error f =>
      rw [run_reorder_of_error hsettings] at hresult
      cases hresult
    | ok settings =>
      rw [run_reorder_of_ok hsettings] at hresult
      cases hsource : readSource s.files a.input with
      | error f =>
        rw [hsource] at hresult
        cases hresult
      | ok text => exact ⟨settings, text, rfl, readSource_eq_ok_iff.mp hsource⟩
  · intro settings text hsettings htext
    rw [run_reorder_of_ok hsettings, readSource_eq_ok_iff.mpr htext]
    exact ⟨rfl, rfl⟩

/-- The file of the working directory hides that of the platform, which is no
settings file in the second tree. It asks for lexical counting, without which the
brace in the comment would keep the function open. -/
theorem run_depends_on_named_files_hidden_settings :
    let source : Text := "contract A \x7b\nfunction f() public \x7b // \x7b\n\x7d\nuint x;\n\x7d"
    let tree : Text → FileTree := fun platform => (⟨["home"], []⟩ : FileTree)
      |>.add ["home", "A.sol"] (.document source)
      |>.add ["home", "solorder", "config.toml"]
        (.document "[classifier]\nbrace_counting = \"lexical\"")
      |>.add ["etc", "solorder.toml"] (.document platform)
    let surroundings : Text → Surroundings := fun platform =>
      ⟨tree platform, some "/etc/solorder.toml"⟩
    let a : Arguments := { operand? := some "./A.sol" }
    let output := fun platform => (run Settings.ofText .reorder (surroundings platform) a).output
    (surroundings []).AgreeOnSettings (surroundings "[[") a.settings? ∧
      output [] = output "[[" ∧
      output "[[" =
        "contract A \x7b\n\nuint x;\n\nfunction f() public \x7b // \x7b\n\x7d\n\n\x7d\n" ∧
      output "[[" ≠ reorder .raw source ++ ['\n'] := by
  intro source tree surroundings a output
  have hexists : (surroundings []).files.has Settings.localPath = true := by decide +kernel
  have hagree : (surroundings []).AgreeOnSettings (surroundings "[[") a.settings? := by
    refine ⟨.of_forall₂ rfl (by decide +kernel), rfl, ?_⟩
    intro p hp
    cases hp with
    | explicit h => cases h
    | workingDirectory h hlocal => decide +kernel
    | platform h hlocal hplatform hp =>
      rw [hexists] at hlocal
      cases hlocal
  have hrun := (run_depends_on_named_files Settings.ofText _ _ a hagree).1 (by decide +kernel)
  have hsame : output [] = output "[[" := congrArg Outcome.output hrun
  refine ⟨hagree, hsame, ?_⟩
  rw [← hsame]
  decide +kernel

end CommandLine
end MemberOrder
