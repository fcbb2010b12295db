import Collate.Proofs.Content

/-
  What the options of a merger decide.  One policy lets a
  group go on without the inputs that cannot be read, the
  other ends it at the first of them.  A dry run ends as a
  run that writes does, short of the write.

  Key definitions include:
    * `Merger.withPolicy`
    * `Merger.withDryRun`
    * `MergeGroup.readable`
    * `Merger.Skips`
    * `Merger.Fails`
    * `Merger.Predicts`

  Main declarations:
    * `Merger.run_runGroup_of_plan`
    * `Merger.planFrom_readable`
    * `Merger.planFrom_withPolicy`
    * `Merger.runGroup_missing`
    * `Merger.planFrom_withDryRun`
    * `Merger.runGroup_dryRun`
-/

------------------------------------------------------------
-- Groups Without Missing Inputs
------------------------------------------------------------

namespace Collate

/- A group without the inputs that cannot be read. -/
def MergeGroup.readable
    (read : Path → Except FileFault Text)
    (g : MergeGroup) : MergeGroup :=
  { g with inputs := g.inputs.filter fun p => (read p).isOk }

namespace Merger

variable {m m' : Merger}
variable {g g' : MergeGroup}
variable {t : FileTree}
variable {read : Path → Except FileFault Text}

/- The files that are read are those that can be. -/
theorem path_loadedFrom
    (m : Merger)
    (read : Path → Except FileFault Text)
    (g : MergeGroup) :
    (m.loadedFrom read g.inputs).map (·.path) =
      (g.readable read).inputs := by
  unfold MergeGroup.readable
  induction g.inputs with
  | nil => rfl
  | cons path rest ih =>
      cases hRead : read path with
      | ok text =>
          rw [loadedFrom_cons_ok hRead, List.map_cons, ih,
            List.filter_cons_of_pos (by rw [hRead]; rfl)]
      | error cause =>
          rw [loadedFrom_cons_error hRead, ih,
            List.filter_cons_of_neg
              (by rw [hRead]; exact Bool.false_ne_true)]

/- Leaving out what is missing loses no source. -/
theorem loadedFrom_readable
    (m : Merger)
    (read : Path → Except FileFault Text)
    (g : MergeGroup) :
    m.loadedFrom read (g.readable read).inputs =
      m.loadedFrom read g.inputs := by
  unfold loadedFrom MergeGroup.readable
  rw [List.filterMap_filter]
  congr 1
  funext path
  cases read path with
  | ok text => rfl
  | error cause => rfl

/- Skipping never ends a gathering. -/
theorem proceeds_of_skip
    (hPolicy : m.options.onMissing = .skip)
    (paths : List Path) :
    m.Proceeds read paths := by
  intro hFail
  rw [hPolicy] at hFail
  cases hFail

/-
  Skipping plans the same text as if the missing inputs had
  not been asked for.  Only the report tells of them.
-/
theorem planFrom_readable
    (hPolicy : m.options.onMissing = .skip) :
    m.planFrom read g =
      (m.planFrom read (g.readable read)).map
        (Prod.map
          (fun report =>
            { report with
              declared := g.inputs.length
              missing := missingFrom read g.inputs })
          id) := by
  rw [planFrom_of_proceeds (proceeds_of_skip hPolicy _),
    planFrom_of_proceeds (proceeds_of_skip hPolicy _),
    loadedFrom_readable]
  unfold MergeGroup.readable
  cases MergedFile.ofLoaded?
      (g.moduleName <|> m.options.defaultModule)
      (m.loadedFrom read g.inputs) with
  | none => rfl
  | some merged => rfl

/-
  Groups with the same output that plan the same text write
  alike, and their results differ as their reports do.
-/
theorem run_runGroup_of_plan
    (hDry : m'.options.dryRun = m.options.dryRun)
    (hOutput : g'.output = g.output)
    {change : Report → Report}
    (hPlan :
      m.planFrom t.readText g =
        (m'.planFrom t.readText g').map
          (Prod.map change id)) :
    (m.runGroup g).run t =
      let other := (m'.runGroup g').run t
      (⟨g.name, (m.gatherFrom t.readText g.name g.inputs).1,
          other.1.result.map change⟩,
        other.2) := by
  simp only [FileJob.run_eq_runWith, runWith_runGroup, hPlan,
    hDry, hOutput]
  cases m'.planFrom t.readText g' with
  | error fault => rfl
  | ok plan =>
      cases m.options.dryRun with
      | true => rfl
      | false =>
          simp only [Except.map, Prod.map, id,
            Bool.false_eq_true, if_false]
          cases (t.writeDirect g.output
              (Utf8.encode plan.2)).1 with
          | ok _ => rfl
          | error cause => simp [resultOf, hOutput]

------------------------------------------------------------
-- Missing Inputs
------------------------------------------------------------

/- A merger with another policy for missing inputs. -/
def withPolicy
    (m : Merger)
    (policy : MissingPolicy) : Merger :=
  { m with options := { m.options with onMissing := policy } }

/-
  What a group does that skips missing inputs.  It reads all
  the others, tells of each that is missing, and ends as it
  does if it is not asked for those.
-/
structure Skips
    (m : Merger)
    (g : MergeGroup)
    (t : FileTree) : Prop where
  gathered :
    (m.gather g.name g.inputs).run t =
      (((missingFrom t.readText g.inputs).map
          (Notice.mk g.name),
        .ok
          ⟨m.loadedFrom t.readText g.inputs,
            missingFrom t.readText g.inputs⟩),
        t)
  paths :
    (m.loadedFrom t.readText g.inputs).map (·.path) =
      (g.readable t.readText).inputs
  notices :
    ((m.runGroup g).run t).1.notices =
      (missingFrom t.readText g.inputs).map
        (Notice.mk g.name)
  result :
    ((m.runGroup g).run t).1.result =
      ((m.runGroup (g.readable t.readText)).run
        t).1.result.map fun report =>
          { report with
            declared := g.inputs.length
            missing := missingFrom t.readText g.inputs }
  tree :
    ((m.runGroup g).run t).2 =
      ((m.runGroup (g.readable t.readText)).run t).2

/- The policy to skip is enough for that. -/
theorem skips_of_policy
    (hPolicy : m.options.onMissing = .skip)
    (g : MergeGroup)
    (t : FileTree) :
    m.Skips g t := by
  have hProceeds : m.Proceeds t.readText g.inputs :=
    proceeds_of_skip hPolicy g.inputs
  have hGathered := gatherFrom_of_proceeds g.name hProceeds
  have hOutput : (g.readable t.readText).output = g.output :=
    rfl
  have hRun :=
    run_runGroup_of_plan rfl hOutput
      (planFrom_readable hPolicy)
  refine ⟨?_, m.path_loadedFrom t.readText g, ?_, ?_, ?_⟩
  · rw [FileJob.run_eq_runWith, runWith_gather, hGathered]
  · rw [hRun, hGathered]
  · rw [hRun]
  · rw [hRun]

/-
  What a group does that fails without an input.  It ends at
  the first that is missing, and has done nothing until then.
-/
def Fails
    (m : Merger)
    (g : MergeGroup)
    (t : FileTree) : Prop :=
  ∀ path,
    (missingFrom t.readText g.inputs).head? = some path →
      ∃ cause,
        t.readText path = .error cause ∧
          (m.runGroup g).run t =
            (⟨g.name, [], .error (.inputNotFound path cause)⟩,
              t)

/- The policy to fail is enough for that. -/
theorem fails_of_policy
    (hPolicy : m.options.onMissing = .fail)
    (g : MergeGroup)
    (t : FileTree) :
    m.Fails g t := by
  intro path hFirst
  rcases exists_first_missing hFirst with
    ⟨before, after, cause, hSplit, hBefore, hRead⟩
  have hGathered :=
    gatherFrom_of_first g.name hPolicy hBefore hRead after
  rw [← hSplit] at hGathered
  have hPlan :
      m.planFrom t.readText g =
        .error (.inputNotFound path cause) := by
    rw [planFrom, hGathered]
  refine ⟨cause, hRead, ?_⟩
  rw [FileJob.run_eq_runWith, runWith_runGroup, hPlan,
    hGathered]

/- If nothing is missing, the policy changes no plan. -/
theorem planFrom_withPolicy
    (policy other : MissingPolicy)
    (hNone : missingFrom read g.inputs = []) :
    (m.withPolicy policy).planFrom read g =
      (m.withPolicy other).planFrom read g := by
  have hProceeds :
      ∀ policy, (m.withPolicy policy).Proceeds read g.inputs :=
    fun _ _ => isOk_of_missingFrom hNone
  rw [planFrom_of_proceeds (hProceeds policy),
    planFrom_of_proceeds (hProceeds other)]
  rfl

/-
  A merger skips missing inputs or fails at the first of them,
  as its policy says.  If no input of a group is missing, the
  policy makes no difference.
-/
theorem runGroup_missing
    (m : Merger)
    (g : MergeGroup)
    (t : FileTree) :
    (m.withPolicy .skip).Skips g t ∧
      (m.withPolicy .fail).Fails g t ∧
      (missingFrom t.readText g.inputs = [] →
        ((m.withPolicy .skip).runGroup g).run t =
          ((m.withPolicy .fail).runGroup g).run t) := by
  refine ⟨skips_of_policy rfl g t, fails_of_policy rfl g t, ?_⟩
  intro hNone
  have hPlan :=
    planFrom_withPolicy (m := m) .skip .fail hNone
  have hGathered :
      ∀ policy,
        ((m.withPolicy policy).gatherFrom t.readText g.name
          g.inputs).1 = [] := by
    intro policy
    rw [gatherFrom_of_proceeds g.name
      fun _ => isOk_of_missingFrom hNone, hNone]
    rfl
  simp only [FileJob.run_eq_runWith, runWith_runGroup, hPlan,
    hGathered]
  rfl

/- A file, octets that are no text, and a directory. -/
def holedTree : FileTree :=
  (((FileTree.empty ["w".toList]).addFile "a.go".toList
    (Utf8.encode "package p\nvar a\n".toList)).addFile
      "bad.go".toList [0xFF]).addDirectory "d".toList

/- Inputs of which only the first and the third are texts. -/
def holedGroup : MergeGroup where
  name := "g".toList
  inputs :=
    ["a.go".toList, "gone.go".toList, "./a.go".toList,
      "bad.go".toList, "d".toList, "a.go/x".toList]
  output := "out.go".toList
  moduleName := none

theorem runGroup_missing_holed :
    let whole := holedGroup.readable holedTree.readText
    let skipping := standardMerger.withPolicy .skip
    let failing := standardMerger.withPolicy .fail
    whole.inputs = ["a.go".toList, "./a.go".toList] ∧
      ((skipping.runGroup holedGroup).run holedTree).2 =
        ((skipping.runGroup whole).run holedTree).2 ∧
      (failing.runGroup holedGroup).run holedTree =
        (⟨holedGroup.name, [],
            .error
              (.inputNotFound "gone.go".toList .noEntry)⟩,
          holedTree) ∧
      (skipping.runGroup whole).run holedTree =
        (failing.runGroup whole).run holedTree := by
  intro whole skipping failing
  have hWhole :
      whole.inputs = ["a.go".toList, "./a.go".toList] := by
    decide +kernel
  have hFirst :
      (missingFrom holedTree.readText
          holedGroup.inputs).head? =
        some "gone.go".toList := by
    decide +kernel
  have hNone :
      missingFrom holedTree.readText whole.inputs = [] := by
    decide +kernel
  have hCause :
      holedTree.readText "gone.go".toList =
        .error .noEntry := by
    decide +kernel
  have hHoled :=
    runGroup_missing standardMerger holedGroup holedTree
  have hAgree :=
    runGroup_missing standardMerger whole holedTree
  rcases hHoled.2.1 _ hFirst with ⟨cause, hRead, hFailed⟩
  rw [hCause] at hRead
  cases hRead
  exact ⟨hWhole, hHoled.1.tree, hFailed, hAgree.2.2 hNone⟩

------------------------------------------------------------
-- Dry Runs
------------------------------------------------------------

/- A merger that writes its outputs, or does not. -/
def withDryRun
    (m : Merger)
    (dry : Bool) : Merger :=
  { m with options := { m.options with dryRun := dry } }

/- A dry run gathers as any other. -/
theorem gatherFrom_withDryRun
    (m : Merger)
    (dry : Bool)
    (read : Path → Except FileFault Text)
    (group : Text)
    (paths : List Path) :
    (m.withDryRun dry).gatherFrom read group paths =
      m.gatherFrom read group paths := by
  induction paths with
  | nil => rfl
  | cons path rest ih =>
      rw [gatherFrom, gatherFrom, ih]
      rfl

/- It plans as any other, and reports that it writes nothing. -/
theorem planFrom_withDryRun
    (m : Merger)
    (dry : Bool)
    (read : Path → Except FileFault Text)
    (g : MergeGroup) :
    (m.withDryRun dry).planFrom read g =
      (m.planFrom read g).map
        (Prod.map
          (fun report => { report with written := !dry })
          id) := by
  unfold planFrom
  rw [gatherFrom_withDryRun]
  cases (m.gatherFrom read g.name g.inputs).2 with
  | error fault => rfl
  | ok gathered =>
      simp only [withDryRun]
      cases MergedFile.ofLoaded?
          (g.moduleName <|> m.options.defaultModule)
          gathered.loaded with
      | none => rfl
      | some merged => rfl

/-
  What a dry run tells of the run that writes: all it notices,
  and how it ends, unless the write fails.
-/
structure Predicts
    (g : MergeGroup)
    (t : FileTree)
    (dry real : Outcome) : Prop where
  notices : real.notices = dry.notices
  failed :
    ∀ fault,
      dry.result = .error fault → real.result = .error fault
  succeeded :
    ∀ report,
      dry.result = .ok report →
        real.result = .ok { report with written := true } ∨
          ∃ text cause,
            t.write g.output (Utf8.encode text) =
                .error cause ∧
              real.result =
                .error (.outputWrite g.output cause)
  noWriteFault :
    ∀ path cause, dry.result ≠ .error (.outputWrite path cause)

/- No plan fails because a file cannot be written. -/
theorem planFrom_ne_outputWrite
    (m : Merger)
    (read : Path → Except FileFault Text)
    (g : MergeGroup)
    (path : Path)
    (cause : FileFault) :
    m.planFrom read g ≠ .error (.outputWrite path cause) := by
  by_cases hProceeds : m.Proceeds read g.inputs
  · rw [planFrom_of_proceeds hProceeds]
    split
    · simp
    · simp
  · rcases planFrom_of_not_proceeds hProceeds with
      ⟨other, why, hFault⟩
    rw [hFault]
    simp

/-
  A dry run predicts the run that writes, on every tree, for
  every group and with every other option.
-/
theorem runGroup_dryRun
    (m : Merger)
    (g : MergeGroup)
    (t : FileTree) :
    Predicts g t
      (((m.withDryRun true).runGroup g).run t).1
      (((m.withDryRun false).runGroup g).run t).1 := by
  simp only [FileJob.run_eq_runWith, runWith_runGroup,
    gatherFrom_withDryRun, planFrom_withDryRun]
  cases hPlan : m.planFrom t.readText g with
  | error fault =>
      refine ⟨rfl, fun _ hFailed => hFailed, ?_, ?_⟩
      · intro report hResult
        cases hResult
      · intro path cause hResult
        cases hResult
        exact m.planFrom_ne_outputWrite _ g path cause hPlan
  | ok plan =>
      rcases plan with ⟨planned, text⟩
      refine ⟨rfl, ?_, ?_, ?_⟩
      · intro fault hFailed
        cases hFailed
      · intro report hResult
        cases hResult
        -- Both runs have come as far as the write.
        cases hWrite :
            t.write g.output (Utf8.encode text) with
        | ok t' =>
            left
            simp [Except.map, Prod.map, withDryRun,
              FileTree.writeDirect, hWrite, resultOf]
        | error cause =>
            right
            refine ⟨text, cause, hWrite, ?_⟩
            simp [Except.map, Prod.map, withDryRun,
              FileTree.writeDirect, hWrite, resultOf]
      · intro path cause hResult
        cases hResult

/- A group whose output has no directory to be in. -/
def homelessGroup : MergeGroup :=
  { sharedGroup with output := "gone/out.go".toList }

/-
  An output that replaces an input, one that cannot be
  written, and a group without a module.
-/
theorem runGroup_dryRun_shared :
    let dry := standardMerger.withDryRun true
    let real := standardMerger.withDryRun false
    (∃ report,
      report.written = false ∧
        ((dry.runGroup sharedGroup).run sharedTree).1.result =
          .ok report ∧
        ((real.runGroup sharedGroup).run sharedTree).1.result =
          .ok { report with written := true }) ∧
      (∃ report cause,
        ((dry.runGroup homelessGroup).run
            sharedTree).1.result =
          .ok report ∧
        ((real.runGroup homelessGroup).run
            sharedTree).1.result =
          .error (.outputWrite homelessGroup.output cause)) ∧
      ((real.runGroup namelessGroup).run
          accentedTree).1.result =
        .error (.moduleUnknown namelessGroup.name) := by
  intro dry real
  have hShared :=
    runGroup_dryRun standardMerger sharedGroup sharedTree
  have hHomeless :=
    runGroup_dryRun standardMerger homelessGroup sharedTree
  have hNameless :=
    runGroup_dryRun standardMerger namelessGroup accentedTree
  refine ⟨?_, ?_, ?_⟩
  · have hWritten :
        ((real.runGroup sharedGroup).run
          sharedTree).1.result.isOk = true := by
      decide +kernel
    rcases hShared.succeeded _ rfl with
      hReal | ⟨text, cause, -, hReal⟩
    · exact ⟨_, rfl, rfl, hReal⟩
    · rw [hReal] at hWritten
      cases hWritten
  · have hRefused :
        ((real.runGroup homelessGroup).run
          sharedTree).1.result.isOk = false := by
      decide +kernel
    rcases hHomeless.succeeded _ rfl with
      hReal | ⟨text, cause, -, hReal⟩
    · rw [hReal] at hRefused
      cases hRefused
    · exact ⟨_, cause, rfl, hReal⟩
  · exact hNameless.failed _ rfl

end Merger

end Collate
