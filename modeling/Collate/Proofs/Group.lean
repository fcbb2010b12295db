import Collate.Group
import Collate.Proofs.File.Job
import Collate.Proofs.Merged

/-
  What the job of a group does, under any way of writing
  files: it reads, and then it writes at most once.

  Key definitions include:
    * `Merger.gatherFrom`
    * `Merger.loadedFrom`
    * `Merger.missingFrom`
    * `Merger.Proceeds`
    * `Merger.planFrom`

  Main declarations:
    * `Merger.runWith_gather`
    * `Merger.gatherFrom_of_proceeds`
    * `Merger.gatherFrom_of_first`
    * `Merger.gatherFrom_of_not_proceeds`
    * `Merger.runWith_runGroup`
    * `Merger.planFrom_of_not_proceeds`
    * `Merger.planFrom_of_proceeds`
    * `Merger.planFrom_eq_ok`
    * `Merger.planFrom_eq_moduleUnknown_iff`
-/

------------------------------------------------------------
-- Gathering Inputs
------------------------------------------------------------

namespace Collate

namespace Merger

variable {m : Merger}
variable {read : Path → Except FileFault Text}
variable
  {put :
    FileTree → Path → Octets →
      Except FileFault Unit × FileTree}

/- What a group gathers from files with given texts. -/
def gatherFrom
    (m : Merger)
    (read : Path → Except FileFault Text)
    (group : Text) :
    List Path → List Notice × Except GroupFault Gathered
  | [] => ([], .ok .none)
  | path :: rest =>
      let others := gatherFrom m read group rest
      match m.sourceAt path (read path), m.options.onMissing with
      | .ok source, _ =>
          (others.1, others.2.map (·.withLoaded path source))
      | .error _, .skip =>
          (⟨group, path⟩ :: others.1,
            others.2.map (·.withMissing path))
      | .error fault, .fail => ([], .error fault)

/- Gathering reads files and leaves them as they are. -/
theorem runWith_gather
    (m : Merger)
    (group : Text)
    (paths : List Path)
    (t : FileTree) :
    (m.gather group paths).runWith put t =
      (m.gatherFrom t.readText group paths, t) := by
  induction paths with
  | nil => rfl
  | cons path rest ih =>
      rw [gather, FileJob.runWith_bind]
      simp only [readSource, FileJob.runWith, gatherFrom]
      cases m.sourceAt path (t.readText path) with
      | ok source =>
          rw [FileJob.runWith_bind, ih]
          rfl
      | error fault =>
          cases m.options.onMissing with
          | skip =>
              rw [FileJob.runWith_bind, ih]
              rfl
          | fail => rfl

/- The sources in the files that can be read. -/
def loadedFrom
    (m : Merger)
    (read : Path → Except FileFault Text)
    (paths : List Path) : List Loaded :=
  paths.filterMap fun path =>
    match read path with
    | .ok text => some ⟨path, m.source text⟩
    | .error _ => none

/- The files that cannot be read. -/
def missingFrom
    (read : Path → Except FileFault Text)
    (paths : List Path) : List Path :=
  paths.filter fun path => !(read path).isOk

/- Every file is read, or those that cannot be are skipped. -/
def Proceeds
    (m : Merger)
    (read : Path → Except FileFault Text)
    (paths : List Path) : Prop :=
  m.options.onMissing = .fail →
    ∀ path ∈ paths, (read path).isOk = true

section Cons

variable {path : Path}
variable {rest : List Path}

theorem loadedFrom_cons_ok
    {text : Text}
    (hRead : read path = .ok text) :
    m.loadedFrom read (path :: rest) =
      ⟨path, m.source text⟩ :: m.loadedFrom read rest := by
  simp [loadedFrom, hRead]

theorem loadedFrom_cons_error
    {cause : FileFault}
    (hRead : read path = .error cause) :
    m.loadedFrom read (path :: rest) =
      m.loadedFrom read rest := by
  simp [loadedFrom, hRead]

theorem missingFrom_cons_ok
    {text : Text}
    (hRead : read path = .ok text) :
    missingFrom read (path :: rest) =
      missingFrom read rest := by
  simp [missingFrom, hRead, Except.isOk, Except.toBool]

theorem missingFrom_cons_error
    {cause : FileFault}
    (hRead : read path = .error cause) :
    missingFrom read (path :: rest) =
      path :: missingFrom read rest := by
  simp [missingFrom, hRead, Except.isOk, Except.toBool]

end Cons

/- Each file counts as read or as missing. -/
theorem length_loadedFrom
    (m : Merger)
    (read : Path → Except FileFault Text)
    (paths : List Path) :
    paths.length =
      (m.loadedFrom read paths).length +
        (missingFrom read paths).length := by
  induction paths with
  | nil => rfl
  | cons path rest ih =>
      cases hRead : read path with
      | ok text =>
          rw [loadedFrom_cons_ok hRead,
            missingFrom_cons_ok hRead, List.length_cons,
            List.length_cons]
          omega
      | error cause =>
          rw [loadedFrom_cons_error hRead,
            missingFrom_cons_error hRead, List.length_cons,
            List.length_cons]
          omega

/- What is gathered if no file ends the gathering. -/
theorem gatherFrom_of_proceeds
    (group : Text)
    {paths : List Path}
    (hProceeds : m.Proceeds read paths) :
    m.gatherFrom read group paths =
      ((missingFrom read paths).map (Notice.mk group),
        .ok
          ⟨m.loadedFrom read paths,
            missingFrom read paths⟩) := by
  induction paths with
  | nil => rfl
  | cons path rest ih =>
      have hRest := ih fun hFail other hMem =>
        hProceeds hFail other (List.mem_cons_of_mem _ hMem)
      rw [gatherFrom, hRest]
      cases hRead : read path with
      | ok text =>
          rw [loadedFrom_cons_ok hRead,
            missingFrom_cons_ok hRead]
          rfl
      | error cause =>
          cases hPolicy : m.options.onMissing with
          | skip =>
              rw [loadedFrom_cons_error hRead,
                missingFrom_cons_error hRead]
              rfl
          | fail =>
              have hOk := hProceeds hPolicy path (by simp)
              rw [hRead] at hOk
              cases hOk

/- If no file is missing, all can be read. -/
theorem isOk_of_missingFrom
    {paths : List Path}
    (hNone : missingFrom read paths = []) :
    ∀ path ∈ paths, (read path).isOk = true := by
  intro path hMem
  simpa using List.filter_eq_nil_iff.mp hNone path hMem

/- Before the first file that is missing all can be read. -/
theorem exists_first_missing
    {paths : List Path}
    {path : Path}
    (hFirst : (missingFrom read paths).head? = some path) :
    ∃ before after cause,
      paths = before ++ path :: after ∧
        (∀ other ∈ before, (read other).isOk = true) ∧
        read path = .error cause := by
  rw [missingFrom, List.head?_filter,
    List.find?_eq_some_iff_append] at hFirst
  rcases hFirst with
    ⟨hMissing, before, after, hSplit, hBefore⟩
  cases hRead : read path with
  | ok text =>
      rw [hRead] at hMissing
      cases hMissing
  | error cause =>
      refine ⟨before, after, cause, hSplit, ?_, rfl⟩
      intro other hMem
      simpa using hBefore other hMem

/-
  Without skipping, a gathering ends at the first file that
  is missing, and gives no notice.
-/
theorem gatherFrom_of_first
    (group : Text)
    (hPolicy : m.options.onMissing = .fail)
    {before : List Path}
    (hBefore : ∀ other ∈ before, (read other).isOk = true)
    {path : Path}
    {cause : FileFault}
    (hRead : read path = .error cause)
    (after : List Path) :
    m.gatherFrom read group (before ++ path :: after) =
      ([], .error (.inputNotFound path cause)) := by
  induction before with
  | nil =>
      simp only [List.nil_append, gatherFrom, hRead, sourceAt,
        hPolicy]
  | cons other before ih =>
      rw [List.forall_mem_cons] at hBefore
      cases hOther : read other with
      | error fault =>
          rw [hOther] at hBefore
          cases hBefore.1
      | ok text =>
          simp only [List.cons_append, gatherFrom, hOther,
            sourceAt, ih hBefore.2]
          rfl

/- A gathering that ends early ends at a missing file. -/
theorem gatherFrom_of_not_proceeds
    (group : Text)
    {paths : List Path}
    (hEnds : ¬ m.Proceeds read paths) :
    ∃ path cause,
      (m.gatherFrom read group paths).2 =
        .error (.inputNotFound path cause) := by
  rw [Proceeds, Classical.not_imp] at hEnds
  rcases hEnds with ⟨hPolicy, hMissing⟩
  cases hFirst : (missingFrom read paths).head? with
  | none =>
      rw [List.head?_eq_none_iff] at hFirst
      exact absurd (isOk_of_missingFrom hFirst) hMissing
  | some path =>
      rcases exists_first_missing hFirst with
        ⟨before, after, cause, rfl, hBefore, hRead⟩
      rw [gatherFrom_of_first group hPolicy hBefore hRead]
      exact ⟨path, cause, rfl⟩

------------------------------------------------------------
-- Groups
------------------------------------------------------------

/-
  The report of a group and the text to be written, from files
  with given texts.
-/
def planFrom
    (m : Merger)
    (read : Path → Except FileFault Text)
    (g : MergeGroup) : Except GroupFault (Report × Text) :=
  match (m.gatherFrom read g.name g.inputs).2 with
  | .error fault => .error fault
  | .ok gathered =>
      match
        MergedFile.ofLoaded?
          (g.moduleName <|> m.options.defaultModule)
          gathered.loaded
      with
      | none => .error (.moduleUnknown g.name)
      | some merged =>
          .ok
            (m.report g gathered merged,
              merged.render m.options.dialect)

/- How a group ends, once its text is or is not written. -/
def resultOf
    (g : MergeGroup)
    (report : Report) :
    Except FileFault Unit → Except GroupFault Report
  | .ok () => .ok report
  | .error cause => .error (.outputWrite g.output cause)

/-
  All that the job of a group does: it plans from the files as
  they are, and then it writes its text or nothing.
-/
theorem runWith_runGroup
    (m : Merger)
    (g : MergeGroup)
    (t : FileTree) :
    (m.runGroup g).runWith put t =
      let notices :=
        (m.gatherFrom t.readText g.name g.inputs).1
      match m.planFrom t.readText g with
      | .error fault => (⟨g.name, notices, .error fault⟩, t)
      | .ok (report, text) =>
          if m.options.dryRun then
            (⟨g.name, notices, .ok report⟩, t)
          else
            let wrote := put t g.output (Utf8.encode text)
            (⟨g.name, notices, resultOf g report wrote.1⟩,
              wrote.2) := by
  rw [runGroup, FileJob.runWith_bind, runWith_gather]
  unfold planFrom
  rcases m.gatherFrom t.readText g.name g.inputs with
    ⟨notices, got⟩
  cases got with
  | error fault => rfl
  | ok gathered =>
      simp only [FileJob.runWith_bind]
      unfold finish
      cases MergedFile.ofLoaded?
          (g.moduleName <|> m.options.defaultModule)
          gathered.loaded with
      | none => rfl
      | some merged =>
          cases m.options.dryRun with
          | true => rfl
          | false =>
              simp only [Bool.false_eq_true, if_false,
                FileJob.runWith]
              cases (put t g.output
                  (Utf8.encode
                    (merged.render m.options.dialect))).1 with
              | ok _ => rfl
              | error cause => rfl

/- No plan is made if the gathering ends early. -/
theorem planFrom_of_not_proceeds
    {g : MergeGroup}
    (hEnds : ¬ m.Proceeds read g.inputs) :
    ∃ path cause,
      m.planFrom read g = .error (.inputNotFound path cause) := by
  rcases gatherFrom_of_not_proceeds g.name hEnds with
    ⟨path, cause, hFault⟩
  exact ⟨path, cause, by rw [planFrom, hFault]⟩

/- What is planned if no file ends the gathering. -/
theorem planFrom_of_proceeds
    {g : MergeGroup}
    (hProceeds : m.Proceeds read g.inputs) :
    m.planFrom read g =
      match
        MergedFile.ofLoaded?
          (g.moduleName <|> m.options.defaultModule)
          (m.loadedFrom read g.inputs)
      with
      | none => .error (.moduleUnknown g.name)
      | some merged =>
          .ok
            (m.report g
                ⟨m.loadedFrom read g.inputs,
                  missingFrom read g.inputs⟩
                merged,
              merged.render m.options.dialect) := by
  unfold planFrom
  rw [gatherFrom_of_proceeds g.name hProceeds]

/- A plan is made from the readable inputs. -/
theorem planFrom_eq_ok
    {g : MergeGroup}
    {report : Report}
    {text : Text}
    (hPlan : m.planFrom read g = .ok (report, text)) :
    ∃ merged,
      MergedFile.ofLoaded?
          (g.moduleName <|> m.options.defaultModule)
          (m.loadedFrom read g.inputs) =
        some merged ∧
      text = merged.render m.options.dialect ∧
      report =
        m.report g
          ⟨m.loadedFrom read g.inputs,
            missingFrom read g.inputs⟩
          merged := by
  by_cases hProceeds : m.Proceeds read g.inputs
  · rw [planFrom_of_proceeds hProceeds] at hPlan
    split at hPlan
    · cases hPlan
    · rename_i merged hMerged
      cases hPlan
      exact ⟨merged, hMerged, rfl, rfl⟩
  · rcases planFrom_of_not_proceeds hProceeds with
      ⟨path, cause, hFault⟩
    rw [hFault] at hPlan
    cases hPlan

/- When no plan is made because the module is not known. -/
theorem planFrom_eq_moduleUnknown_iff
    {g : MergeGroup}
    {name : Text} :
    m.planFrom read g = .error (.moduleUnknown name) ↔
      name = g.name ∧
        m.Proceeds read g.inputs ∧
        MergedFile.ofLoaded?
            (g.moduleName <|> m.options.defaultModule)
            (m.loadedFrom read g.inputs) =
          none := by
  by_cases hProceeds : m.Proceeds read g.inputs
  · rw [planFrom_of_proceeds hProceeds]
    cases MergedFile.ofLoaded?
        (g.moduleName <|> m.options.defaultModule)
        (m.loadedFrom read g.inputs) with
    | none => simp [hProceeds, eq_comm]
    | some merged => simp
  · rcases planFrom_of_not_proceeds hProceeds with
      ⟨path, cause, hFault⟩
    rw [hFault]
    simp [hProceeds]

end Merger

end Collate
