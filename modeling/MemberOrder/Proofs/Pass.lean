import MemberOrder.Classification
import MemberOrder.Proofs.Construct
import MemberOrder.Proofs.Run

/-! # The pass, run by run

The pass goes line by line and carries a state. What it makes of a file can be
said without the state: the lines fall into runs, and each run by itself says
where its lines go, what is recorded and what is reported.

* Over the lines of one run, the steps of the pass add up to one big step
  (`Pass.absorb`). A run of one line is one step (`dispatch_of_line`); the steps
  over a longer run are followed by `foldl_step_settle`.
* Over a file, they add up to the big steps over its runs, one after another
  (`flush_foldl_step`).

So the grouping, the visits and the warnings of a pass are those of the runs
(`Classification.ofSource_eq_ofRuns`). -/

namespace MemberOrder

/-! ## What the runs say -/

/-- The warning about a run that the file ends before its construct does. -/
def Run.unended? (r : Run) : Option Warning :=
  match r.construct?, r.complete with
  | some c, false => some (.neverEnds c r.opener.line)
  | _, _ => none

/-- What a file with the given runs is classified as. -/
def Classification.ofRuns (rs : List Run) : Classification where
  grouping := rs.foldl (fun g r => g.append r.destination (r.lines.map (·.line))) .empty
  visits := Run.visits rs
  warnings := Warning.ofRuns rs

/-- A run moves the depth if it stands behind the first declaration, or is it. -/
def Run.depthAfter (inside : Bool) (depth : Int) (r : Run) : Int :=
  if inside || r.isDeclaration then depth + r.delta else depth

/-- The first declaration, given the one before the run. -/
def Run.firstAfter? (first? : Option Line) (r : Run) : Option Line :=
  first?.or (if r.isDeclaration then some r.opener.line else none)

/-- The visits of the later runs start where the first run leaves the depth. -/
theorem Run.visitsFrom_cons (inside : Bool) (depth : Int) (r : Run) (rs : List Run) :
    visitsFrom inside depth (r :: rs) =
      visitsFrom inside depth [r] ++
        visitsFrom (inside || r.isDeclaration) (r.depthAfter inside depth) rs := by
  cases h : inside || r.isDeclaration with
  | false => simp [visitsFrom, depthAfter, h]
  | true => simp [visitsFrom, depthAfter, h]

/-- The warnings about the later runs start from what the first run leaves. -/
theorem Warning.inBody_cons (first? : Option Line) (depth : Int) (r : Run) (rs : List Run) :
    inBody first? depth (r :: rs) =
      inBody first? depth [r] ++
        inBody (r.firstAfter? first?) (r.depthAfter first?.isSome depth) rs := by
  -- Without a first declaration only the run itself can be one.
  cases first? with
  | none => cases h : r.isDeclaration <;> simp [inBody, Run.firstAfter?, Run.depthAfter, h]
  | some first => cases h : r.isDeclaration <;> simp [inBody, Run.firstAfter?, Run.depthAfter, h]

/-! ## Stretches of lines -/

theorem Warning.drops_cons (depth : Int) (l : ShapedLine) (ls : List ShapedLine) :
    drops depth (l :: ls) = drops depth [l] ++ drops (depth + l.shape.delta) ls := by
  simp only [drops]
  split <;> rfl

namespace Pass

/-- What a stretch of lines changes in the depth. -/
theorem foldl_trackDepth (s : Pass) (ls : List ShapedLine) :
    ls.foldl trackDepth s = { s with
      depth := s.depth + ls.foldr (fun l d => l.shape.delta + d) 0
      warnings := s.warnings ++ Warning.drops s.depth ls } := by
  induction ls generalizing s with
  | nil => simp [Warning.drops]
  | cons l ls ih =>
    rw [List.foldl_cons, ih, List.foldr_cons, Warning.drops]
    -- The line is reported exactly where `drops` lists it.
    by_cases hfalls : 0 ≤ s.depth ∧ s.depth + l.shape.delta < 0
    · simp [trackDepth, hfalls, warn, Int.add_assoc]
    · simp [trackDepth, hfalls, Int.add_assoc]

/-- What one line changes in the depth. -/
theorem trackDepth_eq (s : Pass) (l : ShapedLine) :
    s.trackDepth l = { s with
      depth := s.depth + l.shape.delta
      warnings := s.warnings ++ Warning.drops s.depth [l] } := by
  have hone := foldl_trackDepth s [l]
  rwa [List.foldr_cons, List.foldr_nil, Int.add_zero] at hone

end Pass

namespace Pending

@[simp] theorem construct_foldl_extend (p : Pending) (ls : List ShapedLine) :
    (ls.foldl extend p).construct = p.construct := by
  induction ls generalizing p with
  | nil => rfl
  | cons l ls ih => exact ih (p.extend l)

@[simp] theorem opener_foldl_extend (p : Pending) (ls : List ShapedLine) :
    (ls.foldl extend p).opener = p.opener := by
  induction ls generalizing p with
  | nil => rfl
  | cons l ls ih => exact ih (p.extend l)

/-- A pending construct keeps the lines that it takes, in order. -/
@[simp] theorem lines_foldl_extend (p : Pending) (ls : List ShapedLine) :
    (ls.foldl extend p).lines = p.lines ++ ls.map (·.line) := by
  induction ls generalizing p with
  | nil => simp
  | cons l ls ih =>
    rw [List.foldl_cons, ih, lines, lines, extend]
    simp

/-- What a pending construct has shown so far, given the depth behind its lines. -/
def progress (p : Pending) (depth : Int) : Progress :=
  ⟨p.opened, depth - p.baseline, p.terminated⟩

/-- One more line is one step of progress, and the depth moves along. -/
theorem progress_extend (p : Pending) (depth : Int) (l : ShapedLine) :
    (p.extend l).progress (depth + l.shape.delta) = (p.progress depth).next l.shape := by
  simp only [progress, extend, Progress.next, Progress.mk.injEq, true_and, and_true]
  omega

/-- The baseline is the depth in front of the first line, so the balance starts with
what this line changes. -/
theorem progress_start (c : Construct) (l : ShapedLine) (depth : Int) :
    (start c l depth).progress (depth + l.shape.delta) = .start l.shape := by
  simp only [progress, start, Progress.start, Progress.mk.injEq, true_and, and_true]
  omega

/-- A pending construct is at its end when its progress says so. -/
theorem isComplete_eq (p : Pending) (depth : Int) (h : p.construct.extent ≠ .line) :
    p.isComplete depth = p.construct.extent.isComplete (p.progress depth) := by
  unfold isComplete
  cases hextent : p.construct.extent with
  | line => exact absurd hextent h
  | statement => rfl
  | block =>
    -- The depth is back at the baseline when the balance is zero.
    have hback : depth - p.baseline ≤ 0 ↔ depth ≤ p.baseline := by omega
    simp [Extent.isComplete, progress, hback]

end Pending

namespace Pass

/-! ## One run -/

/-- Between two runs nothing is pending, and the pass is inside a body exactly if
it has come to a declaration. -/
structure BetweenRuns (s : Pass) : Prop where
  pending_eq : s.pending? = none
  insideBody_eq : s.insideBody = s.first?.isSome

/-- What the pass does over a whole run. -/
def absorb (s : Pass) (r : Run) : Pass where
  depth := r.depthAfter s.insideBody s.depth
  insideBody := s.insideBody || r.isDeclaration
  first? := r.firstAfter? s.first?
  reportedUnended := s.reportedUnended || r.unended?.isSome
  pending? := s.pending?
  grouping := s.grouping.append r.destination (r.lines.map (·.line))
  warnings := s.warnings ++ Warning.inBody s.first? s.depth [r] ++ r.unended?.toList
  visits := s.visits ++ Run.visitsFrom s.insideBody s.depth [r]

/-- What holds between two runs holds again behind the second. -/
theorem BetweenRuns.absorb {s : Pass} (h : s.BetweenRuns) (r : Run) :
    (s.absorb r).BetweenRuns := by
  refine ⟨h.pending_eq, ?_⟩
  show (s.insideBody || r.isDeclaration) = (r.firstAfter? s.first?).isSome
  rw [h.insideBody_eq, Run.firstAfter?]
  cases s.first? <;> cases r.isDeclaration <;> rfl

/-- What the first line of a run changes. -/
theorem visit_eq (s : Pass) (r : Run) :
    s.visit r.construct? r.opener = { s with
      depth := if s.insideBody || r.isDeclaration then s.depth + r.opener.shape.delta else s.depth
      warnings := s.warnings ++
        if s.insideBody || r.isDeclaration then Warning.drops s.depth [r.opener] else []
      visits := s.visits ++ Run.visitsFrom s.insideBody s.depth [r] } := by
  have hdecl : (r.construct? == some .declaration) = r.isDeclaration := rfl
  unfold visit
  rw [hdecl]
  -- Before the first declaration nothing but the visit is recorded.
  cases hcounts : s.insideBody || r.isDeclaration with
  | false => simp [Run.visitsFrom, hcounts]
  | true => simp [Run.visitsFrom, hcounts, trackDepth_eq]

/-- What a run changes that is no declaration: its first line is visited, the depth
is tracked over the others, and the lines are handed over. -/
theorem absorb_of_not_isDeclaration {s : Pass} (hs : s.BetweenRuns) {r : Run}
    (hdecl : r.isDeclaration = false) (hrest : s.insideBody = true ∨ r.rest = []) :
    s.absorb r =
      let tracked := r.rest.foldl trackDepth (s.visit r.construct? r.opener)
      { tracked with
        reportedUnended := tracked.reportedUnended || r.unended?.isSome
        grouping := tracked.grouping.append r.destination (r.lines.map (·.line))
        warnings := tracked.warnings ++ r.unended?.toList } := by
  have hinside := hs.insideBody_eq
  rw [foldl_trackDepth, visit_eq, hdecl, Bool.or_false]
  cases hfirst : s.first? with
  | none =>
    -- Before the first declaration a run is one line, which is not counted.
    rw [hfirst] at hinside
    rcases hrest with htrue | hrest
    · rw [hinside] at htrue
      cases htrue
    · simp [absorb, hinside, hfirst, hdecl, hrest, Run.depthAfter, Run.firstAfter?,
        Warning.inBody, Warning.drops]
  | some first =>
    rw [hfirst] at hinside
    have hdrops := Warning.drops_cons s.depth r.opener r.rest
    simp [absorb, hinside, hfirst, hdecl, hdrops, Run.depthAfter, Run.firstAfter?,
      Warning.inBody, Run.delta, Run.lines, Int.add_assoc]

/-- What a declaration changes: its line is visited, a body is entered, and the line
is handed over. -/
theorem absorb_of_isDeclaration {s : Pass} {r : Run}
    (hdecl : r.isDeclaration = true) (hrest : r.rest = []) (hcomplete : r.complete = true) :
    s.absorb r =
      let entered := (s.visit r.construct? r.opener).enterBody r.opener.line
      { entered with
        grouping := entered.grouping.append r.destination (r.lines.map (·.line)) } := by
  rw [visit_eq, hdecl, Bool.or_true, if_pos rfl, if_pos rfl]
  -- The first declaration is remembered, and each later one is reported with it.
  cases hfirst : s.first? with
  | none =>
    simp [absorb, hfirst, hdecl, hrest, hcomplete, enterBody, Run.depthAfter, Run.firstAfter?,
      Warning.inBody, Run.delta, Run.lines, Run.unended?]
  | some first =>
    simp [absorb, hfirst, hdecl, hrest, hcomplete, enterBody, warn, Run.depthAfter,
      Run.firstAfter?, Warning.inBody, Run.delta, Run.lines, Run.unended?]

/-- A line that opens nothing, or a construct of one line, is a run by itself. -/
theorem dispatch_of_line {s : Pass} (hs : s.BetweenRuns) {r : Run}
    (hconstruct : Construct.first? s.insideBody r.opener.line.stripped = r.construct?)
    (hline : Run.extentOf r.construct? = .line) (hrest : r.rest = [])
    (hcomplete : r.complete = true) :
    s.dispatch r.opener = s.absorb r := by
  have hlines : r.lines = [r.opener] := by rw [Run.lines, hrest]
  unfold dispatch
  rw [hconstruct]
  -- Three kinds of lines: no construct, a declaration, any other construct of one line.
  cases hc : r.construct? with
  | none =>
    have hdecl : r.isDeclaration = false := by rw [Run.isDeclaration, hc]; rfl
    rw [absorb_of_not_isDeclaration hs hdecl (.inr hrest)]
    simp [keep, hrest, hlines, hc, hcomplete, Run.destination, Run.unended?]
  | some c =>
    have hextent : c.extent = .line := by rwa [hc] at hline
    obtain ⟨sec, hsection⟩ := Construct.exists_section_of_extent (c := c) (by simp [hextent])
    have hdestination : r.destination = sec := by simp [Run.destination, hc, hsection]
    simp only [hextent, hsection]
    by_cases hdecl : c = .declaration
    · have hone : r.isDeclaration = true := by simp [Run.isDeclaration, hc, hdecl]
      rw [absorb_of_isDeclaration hone hrest hcomplete]
      simp [keep, hlines, hc, hdecl, hdestination]
    · have hother : r.isDeclaration = false := by simpa [Run.isDeclaration, hc] using hdecl
      rw [absorb_of_not_isDeclaration hs hother (.inr hrest)]
      simp [keep, hrest, hlines, hc, hcomplete, hdecl, hdestination, Run.unended?]

/-- A construct that is at its end hands all its lines over. -/
theorem close_eq {s : Pass} {p : Pending} (hp : p.construct.extent ≠ .line) :
    s.close p = { s with
      grouping := s.grouping.append
        (p.construct.section?.getD (functionSection (p.lines.map (·.text)))) p.lines } := by
  unfold close
  cases hextent : p.construct.extent with
  | line => exact absurd hextent hp
  | block => rfl
  | statement =>
    obtain ⟨sec, hsection⟩ :=
      Construct.exists_section_of_extent (c := p.construct) (by simp [hextent])
    simp only [hsection, keep, Option.getD_some]

/-- The next line goes to the construct that is pending. -/
theorem step_suspend {s : Pass} (hs : s.pending? = none) (p : Pending) (l : ShapedLine) :
    (s.suspend p).step l = (s.trackDepth l).settle (p.extend l) := by
  have hfree : { s with pending? := none } = s := by rw [← hs]
  simp only [step, suspend, hfree]

/-- At the end of the file the pending construct is given up. -/
theorem flush_suspend {s : Pass} (hs : s.pending? = none) (p : Pending) :
    (s.suspend p).flush = s.abandon p := by
  have hfree : { s with pending? := none } = s := by rw [← hs]
  simp only [flush, suspend, hfree]

theorem flush_of_pending_eq {s : Pass} (hs : s.pending? = none) : s.flush = s := by
  simp only [flush, hs]

/-- The steps over the lines that follow an unfinished construct. The induction is
on these lines; the depth and what the construct has shown are carried along. -/
theorem foldl_step_settle {s : Pass} (hs : s.pending? = none) {p : Pending}
    (hp : p.construct.extent ≠ .line) (ls : List ShapedLine) :
    let reach := p.construct.extent.reach (p.progress s.depth) ls
    ls.foldl step (s.settle p) =
      if reach.complete then
        reach.left.foldl step
          ((reach.taken.foldl trackDepth s).close (reach.taken.foldl .extend p))
      else (reach.taken.foldl trackDepth s).suspend (reach.taken.foldl .extend p) := by
  induction ls generalizing s p with
  | nil =>
    simp only [Extent.reach, ← Pending.isComplete_eq p s.depth hp, List.foldl_nil, settle]
  | cons l ls ih =>
    have hcomplete := Pending.isComplete_eq p s.depth hp
    cases h : p.isComplete s.depth with
    | true =>
      rw [h] at hcomplete
      simp only [Extent.reach_of_isComplete hcomplete.symm, settle, h, if_true, List.foldl_nil]
    | false =>
      -- The line is taken, and the construct is settled anew.
      rw [h] at hcomplete
      have hstep : (s.settle p).step l = (s.trackDepth l).settle (p.extend l) := by
        rw [settle, h, if_neg Bool.false_ne_true, step_suspend hs]
      have hdepth : (s.trackDepth l).depth = s.depth + l.shape.delta := by rw [trackDepth_eq]
      have hrest := @ih (s.trackDepth l) (by rw [trackDepth_eq, hs]) (p.extend l) hp
      rw [hdepth, Pending.progress_extend] at hrest
      rw [List.foldl_cons, hstep, Extent.reach_cons_of_not_isComplete hcomplete.symm]
      exact hrest

/-- A longer construct stands inside a body. -/
theorem insideBody_of_extent {s : Pass} {l : ShapedLine} {c : Construct}
    (hconstruct : Construct.first? s.insideBody l.line.stripped = some c)
    (hextent : c.extent ≠ .line) : s.insideBody = true := by
  cases hinside : s.insideBody with
  | true => rfl
  | false =>
    rw [hinside] at hconstruct
    have hout := Construct.standsOutside_of_first?_false hconstruct
    exact absurd (Construct.extent_of_standsOutside hout) hextent

/-- A longer construct is settled for the first time with its first line. -/
theorem dispatch_of_extent {s : Pass} {l : ShapedLine} {c : Construct}
    (hconstruct : Construct.first? s.insideBody l.line.stripped = some c)
    (hextent : c.extent ≠ .line) :
    s.dispatch l = (s.visit (some c) l).settle (.start c l s.depth) := by
  unfold dispatch
  rw [hconstruct]
  cases h : c.extent with
  | line => exact absurd h hextent
  | statement => simp only [h]
  | block => simp only [h]

section LongRun

variable {s : Pass} {r : Run} {c : Construct}

/-- Closing a construct hands the lines of its run over. -/
theorem close_run (hc : r.construct? = some c) (hextent : c.extent ≠ .line) (baseline : Int) :
    s.close (r.rest.foldl .extend (.start c r.opener baseline)) = { s with
      grouping := s.grouping.append r.destination (r.lines.map (·.line)) } := by
  have hlines : (r.rest.foldl .extend (Pending.start c r.opener baseline)).lines =
      r.lines.map (·.line) := Pending.lines_foldl_extend ..
  have hdestination : r.destination =
      c.section?.getD (functionSection ((r.lines.map (·.line)).map (·.text))) := by
    rw [Run.destination, hc, List.map_map]
    rfl
  rw [close_eq (by rwa [Pending.construct_foldl_extend]), Pending.construct_foldl_extend, hlines,
    hdestination]
  rfl

/-- A declaration is one line, so what is longer is none. -/
theorem not_isDeclaration_of_extent (hc : r.construct? = some c) (hextent : c.extent ≠ .line) :
    r.isDeclaration = false := by
  have hne : c ≠ .declaration := fun h => hextent (by rw [h]; rfl)
  simpa [Run.isDeclaration, hc] using hne

/-- A construct that came to its end. -/
theorem close_eq_absorb (hs : s.BetweenRuns) (hinside : s.insideBody = true)
    (hc : r.construct? = some c) (hextent : c.extent ≠ .line) (hcomplete : r.complete = true) :
    (r.rest.foldl trackDepth (s.visit (some c) r.opener)).close
        (r.rest.foldl .extend (.start c r.opener s.depth)) = s.absorb r := by
  have hother := not_isDeclaration_of_extent hc hextent
  rw [close_run hc hextent, absorb_of_not_isDeclaration hs hother (.inl hinside), hc]
  simp [hcomplete, Run.unended?, hc]

/-- A construct that the file ends before. -/
theorem abandon_eq_absorb (hs : s.BetweenRuns) (hinside : s.insideBody = true)
    (hc : r.construct? = some c) (hextent : c.extent ≠ .line) (hcomplete : r.complete = false) :
    (r.rest.foldl trackDepth (s.visit (some c) r.opener)).abandon
        (r.rest.foldl .extend (.start c r.opener s.depth)) = s.absorb r := by
  have hother := not_isDeclaration_of_extent hc hextent
  rw [absorb_of_not_isDeclaration hs hother (.inl hinside), hc, abandon, close_run hc hextent]
  simp [hcomplete, warn, Run.unended?, hc, Pending.start]

end LongRun

/-- The steps over a longer construct are the big step over its run. If the file
ends first, what is pending is handed over at the end. -/
theorem flush_foldl_step_of_extent {s : Pass} (hs : s.BetweenRuns) {l : ShapedLine}
    {c : Construct} (hconstruct : Construct.first? s.insideBody l.line.stripped = some c)
    (hextent : c.extent ≠ .line) {ls : List ShapedLine} {reach : Extent.Reach}
    (hreach : c.extent.reach (.start l.shape) ls = reach) :
    (ls.foldl step (s.dispatch l)).flush =
      (reach.left.foldl step (s.absorb ⟨some c, l, reach.taken, reach.complete⟩)).flush := by
  have hinside := insideBody_of_extent hconstruct hextent
  have hvisit := visit_eq s ⟨some c, l, reach.taken, reach.complete⟩
  have hfree : (s.visit (some c) l).pending? = none := by rw [hvisit, hs.pending_eq]
  have hprogress : (Pending.start c l s.depth).progress (s.visit (some c) l).depth =
      .start l.shape := by
    rw [hvisit, hinside]
    exact Pending.progress_start c l s.depth
  have hfold := foldl_step_settle hfree (p := .start c l s.depth) hextent ls
  have hsame : (Pending.start c l s.depth).construct.extent.reach
      ((Pending.start c l s.depth).progress (s.visit (some c) l).depth) ls = reach := by
    rw [hprogress]
    exact hreach
  rw [dispatch_of_extent hconstruct hextent, hfold, hsame]
  -- Either the construct comes to its end and reading goes on behind it, or it takes all lines.
  cases hcomplete : reach.complete with
  | true =>
    rw [if_pos rfl]
    exact congrArg (fun t => flush (reach.left.foldl step t))
      (close_eq_absorb (r := ⟨some c, l, reach.taken, true⟩) hs hinside rfl hextent rfl)
  | false =>
    have hleft : reach.left = [] := by
      rw [← hreach] at hcomplete ⊢
      exact Extent.left_eq_nil_of_not_complete hcomplete
    have hpending : (reach.taken.foldl trackDepth (s.visit (some c) l)).pending? = none := by
      rw [foldl_trackDepth, hfree]
    rw [if_neg Bool.false_ne_true, hleft, flush_suspend hpending, List.foldl_nil,
      flush_of_pending_eq (hs.absorb _).pending_eq]
    exact abandon_eq_absorb (r := ⟨some c, l, reach.taken, false⟩) hs hinside rfl hextent rfl

/-! ## All runs -/

/-- The steps over the lines of a file are the big steps over its runs. The
induction is on the runs, as the lines are cut into them. -/
theorem flush_foldl_step {s : Pass} {inside : Bool} (hs : s.BetweenRuns)
    (hinside : s.insideBody = inside) (ls : List ShapedLine) :
    (ls.foldl step s).flush = (Run.allFrom inside ls).foldl absorb s := by
  fun_induction Run.allFrom inside ls generalizing s with
  | case1 => exact flush_of_pending_eq hs.pending_eq
  | case2 inside l ls construct? reach =>
    rename_i ih
    have hconstruct : Construct.first? s.insideBody l.line.stripped = construct? := by
      rw [hinside]
    have hreach : (Run.extentOf construct?).reach (.start l.shape) ls = reach := rfl
    have hnext := @ih (s.absorb ⟨construct?, l, reach.taken, reach.complete⟩) (hs.absorb _)
      (congrArg (· || (construct? == some .declaration)) hinside)
    have hdispatch : s.step l = s.dispatch l := by rw [step, hs.pending_eq]
    rw [List.foldl_cons, List.foldl_cons, ← hnext, hdispatch]
    clear_value reach construct?
    -- A single line is dispatched at once; what is longer takes lines of its own.
    by_cases hextent : Run.extentOf construct? = .line
    · rw [hextent, Extent.reach_line] at hreach
      rw [← hreach, dispatch_of_line (r := ⟨construct?, l, [], true⟩) hs hconstruct hextent rfl rfl]
    · cases construct? with
      | none => exact absurd rfl hextent
      | some c => exact flush_foldl_step_of_extent hs hconstruct hextent hreach

end Pass

/-- Only the last run may be without an end. -/
theorem Run.complete_of_mem_dropLast {inside : Bool} {ls : List ShapedLine} {r : Run}
    (hr : r ∈ (allFrom inside ls).dropLast) : r.complete = true := by
  fun_induction allFrom inside ls with
  | case1 => cases hr
  | case2 inside l ls construct? reach ih =>
    cases hcomplete : reach.complete with
    | false =>
      -- Nothing is left behind a run without an end, so this run is the last.
      have hleft : reach.left = [] := Extent.left_eq_nil_of_not_complete hcomplete
      rw [hleft, allFrom_nil] at hr
      cases hr
    | true =>
      rcases hrest : allFrom (inside || construct? == some .declaration) reach.left with _ | ⟨q, rs⟩
      · rw [hrest] at hr
        cases hr
      · rw [hrest] at hr ih
        rcases List.mem_cons.mp hr with rfl | hr
        · exact hcomplete
        · exact ih hr

namespace Pass

theorem BetweenRuns.foldl_absorb {s : Pass} (hs : s.BetweenRuns) (rs : List Run) :
    (rs.foldl Pass.absorb s).BetweenRuns := by
  induction rs generalizing s with
  | nil => exact hs
  | cons r rs ih => exact ih (hs.absorb r)

/-- Each run hands its lines over when the pass comes to it. -/
theorem grouping_foldl_absorb (s : Pass) (rs : List Run) :
    (rs.foldl absorb s).grouping =
      rs.foldl (fun g r => g.append r.destination (r.lines.map (·.line))) s.grouping := by
  induction rs generalizing s with
  | nil => rfl
  | cons r rs ih => exact ih (s.absorb r)

/-- Each run is visited once, with the depth that the runs before it leave. -/
theorem visits_foldl_absorb (s : Pass) (rs : List Run) :
    (rs.foldl absorb s).visits = s.visits ++ Run.visitsFrom s.insideBody s.depth rs := by
  induction rs generalizing s with
  | nil => exact (List.append_nil _).symm
  | cons r rs ih =>
    rw [List.foldl_cons, ih, Run.visitsFrom_cons, ← List.append_assoc]
    rfl

/-- The first declaration is never replaced. -/
theorem first?_foldl_absorb (s : Pass) (rs : List Run) :
    (rs.foldl absorb s).first? = s.first?.or (Run.firstDeclaration? rs) := by
  induction rs generalizing s with
  | nil => exact (Option.or_none ..).symm
  | cons r rs ih =>
    rw [List.foldl_cons, ih]
    show (r.firstAfter? s.first?).or _ = _
    -- A declaration counts only if none came before.
    cases h : r.isDeclaration with
    | false => simp [Run.firstAfter?, Run.firstDeclaration?, Run.body, h]
    | true => simp [Run.firstAfter?, Run.firstDeclaration?, Run.body, h]

/-- Inside a body every run moves the depth. -/
theorem depth_foldl_absorb_of_insideBody {s : Pass} (h : s.insideBody = true) (rs : List Run) :
    (rs.foldl absorb s).depth = s.depth + rs.foldr (fun r d => r.delta + d) 0 := by
  induction rs generalizing s with
  | nil => exact (Int.add_zero _).symm
  | cons r rs ih =>
    rw [List.foldl_cons, ih (by simp [absorb, h]), List.foldr_cons, ← Int.add_assoc]
    simp [absorb, Run.depthAfter, h]

/-- Outside a body the runs up to the first declaration do not move the depth. -/
theorem depth_foldl_absorb {s : Pass} (h : s.insideBody = false) (rs : List Run) :
    (rs.foldl absorb s).depth = s.depth + Run.finalDepth rs := by
  induction rs generalizing s with
  | nil => exact (Int.add_zero _).symm
  | cons r rs ih =>
    -- The first declaration opens the body; from there on every run is counted.
    cases hdecl : r.isDeclaration with
    | false =>
      rw [List.foldl_cons, ih (by simp [absorb, h, hdecl])]
      simp [absorb, Run.depthAfter, Run.finalDepth, Run.body, h, hdecl]
    | true =>
      rw [List.foldl_cons, depth_foldl_absorb_of_insideBody (by simp [absorb, hdecl])]
      simp [absorb, Run.depthAfter, Run.finalDepth, Run.body, hdecl, Int.add_assoc]

/-- What is reported over runs of which only the last may be without an end. -/
theorem warnings_foldl_absorb {s : Pass} (hs : s.BetweenRuns) {rs : List Run}
    (hcomplete : ∀ r ∈ rs.dropLast, r.complete = true) :
    (rs.foldl absorb s).warnings = s.warnings ++ Warning.inBody s.first? s.depth rs ++
        (rs.getLast?.bind Run.unended?).toList ∧
      (rs.foldl absorb s).reportedUnended =
        (s.reportedUnended || (rs.getLast?.bind Run.unended?).isSome) := by
  induction rs generalizing s with
  | nil => simp [Warning.inBody]
  | cons r rs ih =>
    cases rs with
    | nil => simp [absorb]
    | cons q rs =>
      -- The first of several runs came to its end.
      have hr : r.unended? = none := by
        simp [Run.unended?, hcomplete r (by simp)]
      obtain ⟨hwarnings, hreported⟩ := ih (hs.absorb r) fun q hq =>
        hcomplete q (List.mem_cons_of_mem _ hq)
      rw [List.foldl_cons, hwarnings, hreported, List.getLast?_cons_cons,
        Warning.inBody_cons s.first? s.depth r]
      simp [absorb, hr, hs.insideBody_eq]

theorem finish_eq (s : Pass) :
    s.finish = { s.flush with warnings := s.flush.warnings ++ s.flush.openBody?.toList } := by
  cases hopen : s.flush.openBody? with
  | none => simp only [finish, hopen, Option.toList_none, List.append_nil]
  | some w => simp only [finish, hopen, warn, Option.toList_some]

end Pass

/-- The warning about the end of a file comes from its last run or, if that came to
its end, from the depth behind it. -/
theorem Warning.atEnd?_eq {s : Pass} (hs : s.BetweenRuns) {rs : List Run}
    (hfirst : s.first? = Run.firstDeclaration? rs) (hdepth : s.depth = Run.finalDepth rs)
    (hreported : s.reportedUnended = (rs.getLast?.bind Run.unended?).isSome) :
    (rs.getLast?.bind Run.unended?).toList ++ s.openBody?.toList = (atEnd? rs).toList := by
  have hopen : s.openBody? =
      if s.reportedUnended then none
      else if 0 < Run.finalDepth rs then (Run.firstDeclaration? rs).map bodyNeverCloses
      else none := by
    rw [Pass.openBody?, hs.insideBody_eq, hfirst, hdepth]
    cases Run.firstDeclaration? rs <;> cases s.reportedUnended <;> simp
  rw [hopen, hreported, atEnd?]
  -- Only a last run with a construct and without an end hides an open body.
  cases Run.firstDeclaration? rs <;>
    rcases rs.getLast? with _ | ⟨_ | c, opener, rest, _ | _⟩ <;>
    simp [Run.unended?]

/-- The pass makes of a source what its runs say. -/
theorem Classification.ofSource_eq_ofRuns (counting : BraceCounting) (source : Text) :
    ofSource counting source = ofRuns (Run.ofSource counting source) := by
  have hs : ({} : Pass).BetweenRuns := ⟨rfl, rfl⟩
  let rs := Run.ofSource counting source
  have hpass : Pass.ofSource counting source = _ := Pass.finish_eq _
  rw [Pass.flush_foldl_step hs rfl] at hpass
  have hcomplete : ∀ r ∈ rs.dropLast, r.complete = true := fun r hr =>
    Run.complete_of_mem_dropLast hr
  obtain ⟨hwarnings, hreported⟩ := Pass.warnings_foldl_absorb hs hcomplete
  have hfirst : (rs.foldl Pass.absorb {}).first? = Run.firstDeclaration? rs :=
    Pass.first?_foldl_absorb {} rs
  have hdepth : (rs.foldl Pass.absorb {}).depth = Run.finalDepth rs := by
    rw [Pass.depth_foldl_absorb rfl, Int.zero_add]
  have hend := Warning.atEnd?_eq (hs.foldl_absorb rs) hfirst hdepth hreported
  have hgrouping := Pass.grouping_foldl_absorb {} rs
  have hvisits := Pass.visits_foldl_absorb {} rs
  rw [ofSource, hpass]
  show Classification.mk (rs.foldl Pass.absorb {}).grouping (rs.foldl Pass.absorb {}).visits
    ((rs.foldl Pass.absorb {}).warnings ++ (rs.foldl Pass.absorb {}).openBody?.toList) = _
  rw [hgrouping, hvisits, hwarnings, List.append_assoc, hend]
  rfl

theorem Classification.visits_ofSource (counting : BraceCounting) (source : Text) :
    (ofSource counting source).visits = Run.visits (Run.ofSource counting source) := by
  rw [ofSource_eq_ofRuns, ofRuns]

theorem Classification.warnings_ofSource (counting : BraceCounting) (source : Text) :
    (ofSource counting source).warnings = Warning.ofRuns (Run.ofSource counting source) := by
  rw [ofSource_eq_ofRuns, ofRuns]

end MemberOrder
