import Collate.Command.Errand
import Collate.Proofs.Config
import Collate.Proofs.Runs

/-
  How the run of a configuration ends: what its exit code
  says, what becomes of the file tree, and what the last line
  counts.

  Key definitions include:
    * `RunCommand.base`
    * `RunCommand.selected`
    * `RunCommand.merger`
    * `RunCommand.merged`
    * `RunCommand.Ready`
    * `RunCommand.Ended`

  Main declarations:
    * `Text.printed_of_shows`
    * `Tally.exitCode_eq_zero_iff`
    * `RunCommand.ready_iff`
    * `RunCommand.run_job_of_ready`
    * `RunCommand.run_job_of_not_ready`
    * `RunCommand.run_job_ended`
-/

------------------------------------------------------------
-- Printed Lines
------------------------------------------------------------

namespace Collate

namespace Sequence

/- A character that is shown begins no sequence. -/
theorem skip_none_of_shows
    {c : Char}
    (hShows : shows c = true) :
    skip .none c = (true, .none) := by
  have hOther :
      c.toNat ≠ 0x1B ∧ c.toNat ≠ 0x18 ∧ c.toNat ≠ 0x1A := by
    refine ⟨?_, ?_, ?_⟩ <;>
      · intro hEq
        simp [shows, isPrintedControl, hEq] at hShows
  simp only [skip, hOther, decide_false, Bool.or_self,
    Bool.false_eq_true, if_false, nextWide, next, hShows]
  split
  · simp
  · split
    · rfl
    · simp

/- Outside of any sequence what is shown stays as it is. -/
theorem printOn_of_shows
    {t : Text}
    (hShows : ∀ c ∈ t, shows c = true)
    (printing : Bool) :
    printOn printing .none t = (t, .none) := by
  induction t generalizing printing with
  | nil => rfl
  | cons c t ih =>
      rw [List.forall_mem_cons] at hShows
      have hSkip := skip_none_of_shows hShows.1
      have hRest := ih hShows.2
      cases printing with
      | true => simp [printOn, hShows.1, hRest]
      | false => simp [printOn, hSkip, hRest]

end Sequence

namespace Text

/- Pieces without control characters are printed as they are. -/
theorem printed_of_shows
    {pieces : List Text}
    (hShows :
      ∀ piece ∈ pieces, ∀ c ∈ piece,
        Sequence.shows c = true) :
    printed pieces = pieces.flatten := by
  unfold printed
  induction pieces with
  | nil => rfl
  | cons piece rest ih =>
      rw [List.forall_mem_cons] at hShows
      rw [List.flatten_cons, ← ih hShows.2,
        Sequence.printPieces, Sequence.printPiece,
        Sequence.printOn_of_shows hShows.1]

/- The digits of a number are printed. -/
theorem shows_of_mem_ofNat
    {n : Nat}
    {c : Char}
    (hMem : c ∈ ofNat n) :
    Sequence.shows c = true := by
  have hDigit : c.isDigit = true :=
    Nat.isDigit_of_mem_toDigits (by decide) (by decide) hMem
  rw [Char.isDigit_iff_toNat] at hDigit
  rcases hDigit with ⟨hLower, hUpper⟩
  have hAbove : 0x20 ≤ c.toNat := by
    exact Nat.le_trans (by decide) hLower
  have hBelow : c.toNat ≠ 0x7F := by
    intro hEq
    rw [hEq] at hUpper
    exact absurd hUpper (by decide)
  simp [Sequence.shows, hAbove, hBelow]

end Text

theorem Finish.printedLines_append
    (before after : List (List Text)) :
    printedLines (before ++ after) =
      printedLines before ++ printedLines after := by
  simp [printedLines]

------------------------------------------------------------
-- Counting Groups
------------------------------------------------------------

theorem Outcome.succeeded_eq
    (o : Outcome) :
    o.succeeded = o.result.isOk := by
  unfold succeeded
  cases o.result with
  | ok report => rfl
  | error fault => rfl

namespace Tally

/- Each group is merged or failed. -/
theorem merged_add_failed
    (outcomes : List Outcome) :
    (ofOutcomes outcomes).merged + (ofOutcomes outcomes).failed =
      outcomes.length := by
  rw [List.length_eq_countP_add_countP Outcome.succeeded]
  simp [ofOutcomes]

/- The exit code tells whether all groups succeeded. -/
theorem exitCode_eq_zero_iff
    {outcomes : List Outcome} :
    (ofOutcomes outcomes).exitCode = 0 ↔
      ∀ o ∈ outcomes, o.result.isOk = true := by
  have hFailed :
      (ofOutcomes outcomes).failed = 0 ↔
        ∀ o ∈ outcomes, o.result.isOk = true := by
    simp [ofOutcomes, List.countP_eq_zero,
      Outcome.succeeded_eq]
  rw [← hFailed, exitCode]
  by_cases hZero : (ofOutcomes outcomes).failed = 0
  · simp [hZero]
  · simp [hZero]

/- The line with both numbers is printed as it is. -/
theorem shows_of_mem_line
    {tally : Tally}
    {c : Char}
    (hMem : c ∈ tally.line) :
    Sequence.shows c = true := by
  have hMerged :
      ∀ c ∈ " group(s) merged".toList,
        Sequence.shows c = true :=
    List.all_eq_true.mp (by decide)
  have hComma :
      ∀ c ∈ ", ".toList, Sequence.shows c = true :=
    List.all_eq_true.mp (by decide)
  have hFailed :
      ∀ c ∈ " failed".toList, Sequence.shows c = true :=
    List.all_eq_true.mp (by decide)
  unfold line at hMem
  rw [List.mem_append, List.mem_append] at hMem
  rcases hMem with (hMem | hMem) | hMem
  · exact Text.shows_of_mem_ofNat hMem
  · exact hMerged c hMem
  · split at hMem
    · cases hMem
    · rw [List.mem_append, List.mem_append] at hMem
      rcases hMem with (hMem | hMem) | hMem
      · exact hComma c hMem
      · exact Text.shows_of_mem_ofNat hMem
      · exact hFailed c hMem

end Tally

------------------------------------------------------------
-- Runs of a Configuration
------------------------------------------------------------

/- There is a merger for options with usable tokens. -/
theorem Options.merger_eq_ok_iff
    {o : Options}
    {m : Merger} :
    o.merger = .ok m ↔
      (∀ token ∈ Token.required,
        (o.dialect.get token).allBlank = false) ∧
      m = ⟨o, o.dialect.grammar⟩ := by
  unfold merger
  cases hAccept : o.dialect.accept with
  | error token =>
      simp only [reduceCtorEq, false_iff]
      rintro ⟨hTokens, -⟩
      rw [Dialect.accept_eq_ok_iff.mpr ⟨hTokens, rfl⟩] at hAccept
      cases hAccept
  | ok grammar =>
      rcases Dialect.accept_eq_ok_iff.mp hAccept with
        ⟨hTokens, rfl⟩
      simp only [Except.ok.injEq]
      exact ⟨fun hEq => ⟨hTokens, hEq.symm⟩,
        fun ⟨_, hEq⟩ => hEq.symm⟩

namespace RunCommand

/-
  The directory that paths are put under: the parent of the
  configuration, or the current one if that names none.
-/
def base
    (c : RunCommand) : Path :=
  ((Path.parent? c.config).filter (· ≠ [])).getD ['.']

/- The groups that are asked for, with their paths. -/
def selected
    (c : RunCommand)
    (config : Config) : List MergeGroup :=
  (config.groups.filter fun g =>
    c.groups.isEmpty || c.groups.contains g.name).map
      (Config.resolveGroup c.base)

/-
  The merger of a configuration.  A strict run fails where an
  input is missing, whatever the configuration says.
-/
def merger
    (c : RunCommand)
    (config : Config) : Merger where
  options :=
    { dialect := config.dialect
      defaultModule := config.moduleName
      onMissing := if c.strict then .fail else config.onMissing
      dryRun := c.dryRun }
  grammar := config.dialect.grammar

/- The end of all groups, when they are merged in order. -/
def merged
    (c : RunCommand)
    (config : Config)
    (t : FileTree) : List Outcome × FileTree :=
  ((c.merger config).runGroups (c.selected config)).run t

/- A configuration with which groups can be merged. -/
structure Ready
    (c : RunCommand)
    (t : FileTree)
    (config : Config) : Prop where
  loads :
    ∃ text entries,
      t.readText c.config = .ok text ∧
        Toml.parse? text = some entries ∧
        Config.ofEntries entries = .ok config
  wellNamed : Config.WellNamed config.groups
  found :
    ∀ name ∈ c.groups, ∃ g ∈ config.groups, g.name = name
  tokens :
    ∀ token ∈ Token.required,
      (config.dialect.get token).allBlank = false

variable {c : RunCommand}
variable {t : FileTree}
variable {config : Config}

theorem directory_config
    (c : RunCommand) :
    Path.directory c.config = c.base := by
  unfold Path.directory base
  cases Path.parent? c.config with
  | none => rfl
  | some parent =>
      cases parent with
      | nil => rfl
      | cons first rest => rfl

/- Every stage before the merging has to succeed. -/
theorem ready_iff :
    c.Ready t config ↔
      Config.ofFile c.config (t.readText c.config) =
          .ok config ∧
        config.resolve (Path.directory c.config) c.groups =
          .ok (c.selected config) ∧
        (c.options config).merger = .ok (c.merger config) := by
  have hMerger :
      (c.options config).merger = .ok (c.merger config) ↔
        ∀ token ∈ Token.required,
          (config.dialect.get token).allBlank = false := by
    rw [Options.merger_eq_ok_iff]
    exact and_iff_left rfl
  rw [Config.ofFile_eq_ok_iff, Config.resolve_eq_ok_iff,
    hMerger, directory_config]
  simp only [Config.ofText_eq_ok_iff]
  constructor
  · rintro ⟨⟨text, entries, hText, hParse, hRead⟩, hNames,
      hFound, hTokens⟩
    exact
      ⟨⟨text, hText, ⟨entries, hParse, hRead⟩, hNames⟩,
        ⟨hFound, rfl⟩, hTokens⟩
  · rintro ⟨⟨text, hText, ⟨entries, hParse, hRead⟩, hNames⟩,
      ⟨hFound, -⟩, hTokens⟩
    exact
      ⟨⟨text, entries, hText, hParse, hRead⟩, hNames, hFound,
        hTokens⟩

/- The stages of a run, from the configuration as it is read. -/
theorem run_job
    (c : RunCommand)
    (t : FileTree) :
    c.job.run t =
      match Config.ofFile c.config (t.readText c.config) with
      | .error fault => (failed fault.message, t)
      | .ok config => (c.runConfig config).run t := by
  rw [job, FileJob.run_bind, Config.load, FileJob.run_read,
    FileJob.run_done]
  dsimp only
  cases Config.ofFile c.config (t.readText c.config) with
  | error fault => rfl
  | ok config => rfl

/- A run that is ready merges all its groups. -/
theorem run_job_of_ready
    (hReady : c.Ready t config) :
    c.job.run t =
      (if c.selected config = [] then c.idle
        else c.finish (c.merged config t).1,
        (c.merged config t).2) := by
  rcases ready_iff.mp hReady with ⟨hFile, hResolve, hMerger⟩
  rw [run_job, hFile]
  simp only [runConfig, hResolve, hMerger]
  by_cases hNone : c.selected config = []
  · rw [if_pos (by simp [hNone]), if_pos hNone, merged, hNone]
    rfl
  · rw [if_neg (by simp [hNone]), if_neg hNone,
      FileJob.run_bind]
    rfl

/- A run that is not ready fails and changes nothing. -/
theorem run_job_of_not_ready
    (hNone : ∀ config, ¬ c.Ready t config) :
    ∃ message, c.job.run t = (failed message, t) := by
  rw [run_job]
  cases hFile :
      Config.ofFile c.config (t.readText c.config) with
  | error fault => exact ⟨fault.message, rfl⟩
  | ok config =>
      dsimp only
      rw [runConfig]
      cases hResolve :
          config.resolve (Path.directory c.config) c.groups with
      | error fault => exact ⟨fault.message, rfl⟩
      | ok groups =>
          cases hMerger : (c.options config).merger with
          | error token => exact ⟨token.blankMessage, rfl⟩
          | ok merger =>
              -- All stages succeeded, so the run was ready.
              refine absurd (ready_iff.mpr ?_) (hNone config)
              rw [hFile, hResolve, hMerger]
              rw [Config.resolve_eq_ok_iff, directory_config] at hResolve
              rw [Options.merger_eq_ok_iff] at hMerger
              exact ⟨rfl, congrArg _ hResolve.2,
                congrArg _ hMerger.2⟩

------------------------------------------------------------
-- Ends of a Run
------------------------------------------------------------

/- How a run on a tree ends, with what it prints. -/
structure Ended
    (c : RunCommand)
    (t : FileTree)
    (ended : Finish × FileTree) : Prop where
  success :
    ended.1.exitCode = 0 ↔
      ∃ config,
        c.Ready t config ∧
          ∀ o ∈ (c.merged config t).1, o.result.isOk = true
  refused :
    (∀ config, ¬ c.Ready t config) → ended.2 = t
  ran :
    ∀ config, c.Ready t config →
      ended.2 = (c.merged config t).2
  -- The last line counts the groups that were merged and
  -- those that failed.
  counted :
    ∀ config, c.Ready t config →
      c.selected config ≠ [] →
        ∃ front tally,
          ended.1.output =
              front ++ '\n' :: (Tally.line tally ++ ['\n']) ∧
            tally.merged =
              (c.merged config t).1.countP (·.result.isOk) ∧
            tally.failed =
              (c.merged config t).1.countP (!·.result.isOk) ∧
            tally.merged + tally.failed =
              (c.selected config).length
  dry : c.dryRun = true → ended.2 = t
  -- A group that lacks an input fails, and those behind it
  -- find the tree as it did.
  strict :
    c.strict = true →
      ∀ config, c.Ready t config →
        ∀ before g after,
          c.selected config = before ++ g :: after →
            let found :=
              ((c.merger config).runGroups before).run t
            (∃ path ∈ g.inputs, ∃ cause,
              found.2.readText path = .error cause) →
              ∃ outcome fault,
                outcome.result = .error fault ∧
                  ((c.merger config).runGroups
                      (before ++ [g])).run t =
                    (found.1 ++ [outcome], found.2)

/- The last two lines of a run with groups. -/
theorem output_finish
    (c : RunCommand)
    (outcomes : List Outcome) :
    ∃ front,
      (c.finish outcomes).output =
        front ++
          '\n' :: ((Tally.ofOutcomes outcomes).line ++ ['\n']) := by
  have hLine :
      Text.printed [(Tally.ofOutcomes outcomes).line, ['\n']] =
        (Tally.ofOutcomes outcomes).line ++ ['\n'] := by
    rw [Text.printed_of_shows]
    · simp
    · intro piece hPiece ch hChar
      rw [List.mem_cons, List.mem_singleton] at hPiece
      rcases hPiece with rfl | rfl
      · exact Tally.shows_of_mem_line hChar
      · rw [List.mem_singleton.mp hChar]
        rfl
  have hFeed : Text.printed [['\n']] = ['\n'] := rfl
  have hLast :
      Finish.printedLines
          [[], [(Tally.ofOutcomes outcomes).line]] =
        '\n' ::
          ((Tally.ofOutcomes outcomes).line ++ ['\n']) := by
    simp only [Finish.printedLines, List.flatMap_cons,
      List.flatMap_nil, List.nil_append, List.append_nil,
      List.singleton_append, hFeed, hLine]
  unfold finish
  rw [Finish.printedLines_append, hLast]
  exact ⟨_, rfl⟩

theorem length_merged
    (c : RunCommand)
    (config : Config)
    (t : FileTree) :
    (c.merged config t).1.length =
      (c.selected config).length := by
  have hNames :=
    congrArg List.length
      ((c.merger config).names_runGroups (c.selected config) t)
  simpa [merged] using hNames

/- The exit code of a run that was ready. -/
theorem exitCode_of_ready
    (hReady : c.Ready t config) :
    (c.job.run t).1.exitCode =
      (Tally.ofOutcomes (c.merged config t).1).exitCode := by
  rw [run_job_of_ready hReady]
  by_cases hNone : c.selected config = []
  · have hMerged : (c.merged config t).1 = [] := by
      rw [← List.length_eq_zero_iff, length_merged, hNone]
      rfl
    rw [if_pos hNone, hMerged]
    rfl
  · rw [if_neg hNone]
    rfl

/- A run succeeds if it is ready and all its groups succeed. -/
theorem exitCode_eq_zero_iff :
    (c.job.run t).1.exitCode = 0 ↔
      ∃ config,
        c.Ready t config ∧
          ∀ o ∈ (c.merged config t).1,
            o.result.isOk = true := by
  constructor
  · intro hCode
    by_cases hSome : ∃ config, c.Ready t config
    · rcases hSome with ⟨config, hReady⟩
      rw [exitCode_of_ready hReady,
        Tally.exitCode_eq_zero_iff] at hCode
      exact ⟨config, hReady, hCode⟩
    · rcases run_job_of_not_ready (not_exists.mp hSome) with
        ⟨message, hRun⟩
      rw [hRun] at hCode
      cases hCode
  · rintro ⟨config, hReady, hAll⟩
    rw [exitCode_of_ready hReady, Tally.exitCode_eq_zero_iff]
    exact hAll

/- The last line of a run that was ready and had groups. -/
theorem output_of_ready
    (hReady : c.Ready t config)
    (hSome : c.selected config ≠ []) :
    ∃ front tally,
      (c.job.run t).1.output =
          front ++ '\n' :: (Tally.line tally ++ ['\n']) ∧
        tally.merged =
          (c.merged config t).1.countP (·.result.isOk) ∧
        tally.failed =
          (c.merged config t).1.countP (!·.result.isOk) ∧
        tally.merged + tally.failed =
          (c.selected config).length := by
  rcases c.output_finish (c.merged config t).1 with
    ⟨front, hOutput⟩
  refine ⟨front, Tally.ofOutcomes (c.merged config t).1, ?_,
    ?_, ?_, ?_⟩
  · rw [run_job_of_ready hReady, if_neg hSome, hOutput]
  · simp [Tally.ofOutcomes, funext Outcome.succeeded_eq]
  · simp [Tally.ofOutcomes, Outcome.succeeded_eq]
  · rw [Tally.merged_add_failed, length_merged]

/- A dry run leaves the tree as it was. -/
theorem tree_job_of_dry
    (hDry : c.dryRun = true) :
    (c.job.run t).2 = t := by
  by_cases hSome : ∃ config, c.Ready t config
  · rcases hSome with ⟨config, hReady⟩
    rw [run_job_of_ready hReady]
    exact Merger.tree_runGroups_of_dry hDry _ t
  · rcases run_job_of_not_ready (not_exists.mp hSome) with
      ⟨message, hRun⟩
    rw [hRun]

/- In a strict run a group that lacks an input does nothing. -/
theorem run_append_of_strict
    (hStrict : c.strict = true)
    (config : Config)
    {before : List MergeGroup}
    {g : MergeGroup}
    {path : Path}
    (hInput : path ∈ g.inputs)
    {cause : FileFault}
    (hMissing :
      (((c.merger config).runGroups before).run t).2.readText
          path =
        .error cause) :
    ∃ outcome fault,
      outcome.result = .error fault ∧
        ((c.merger config).runGroups (before ++ [g])).run t =
          ((((c.merger config).runGroups before).run t).1 ++
              [outcome],
            (((c.merger config).runGroups before).run t).2) := by
  have hPolicy :
      (c.merger config).options.onMissing = .fail := by
    simp [merger, hStrict]
  rcases Merger.failed_of_missing hPolicy hInput hMissing with
    ⟨fault, hFailed⟩
  refine ⟨_, fault, hFailed, ?_⟩
  rw [Merger.run_runGroups_append]
  simp only [Merger.run_runGroups_cons,
    Merger.tree_of_failed hFailed]
  rfl

/-
  A run succeeds if its configuration can be used and all its
  groups succeed.  If the configuration cannot be used, then
  nothing changes.  Otherwise the tree is as the groups left
  it, and the last line counts those that were merged and those
  that failed.  A dry run changes nothing, and in a strict run
  a group that lacks an input changes nothing.
-/
theorem run_job_ended
    (c : RunCommand)
    (t : FileTree) :
    c.Ended t (c.job.run t) where
  success := exitCode_eq_zero_iff
  refused := by
    intro hNone
    rcases run_job_of_not_ready hNone with ⟨message, hRun⟩
    rw [hRun]
  ran := by
    intro config hReady
    rw [run_job_of_ready hReady]
  counted := by
    intro config hReady hSome
    exact output_of_ready hReady hSome
  dry := tree_job_of_dry
  strict := by
    rintro hStrict config - before g after - found
      ⟨path, hInput, cause, hMissing⟩
    exact run_append_of_strict hStrict config hInput hMissing

/- A project of two groups, of which the first lacks an input. -/
def projectTree : FileTree :=
  (((FileTree.empty ["w".toList]).addFile "stitch.toml".toList
    (Utf8.encode
      ("[[group]]\nname = 'a'\ninputs = ['a.go', 'gone.go']\n" ++
        "output = 'out.go'\n[[group]]\nname = 'b'\n" ++
        "inputs = ['b.go']\noutput = 'out.go'\n").toList)).addFile
    "a.go".toList
    (Utf8.encode "package p\nvar a\n".toList)).addFile
    "b.go".toList (Utf8.encode "package q\nvar b\n".toList)

def projectConfig : Config :=
  { Config.standard with
    groups :=
      [ ⟨"a".toList, ["a.go".toList, "gone.go".toList],
          "out.go".toList, none⟩,
        ⟨"b".toList, ["b.go".toList], "out.go".toList,
          none⟩ ] }

def strictRun : RunCommand where
  config := "stitch.toml".toList
  groups := []
  dryRun := false
  strict := true

/-
  The first group fails and leaves the tree alone, and the
  second one is merged all the same.
-/
theorem run_job_ended_strictRun :
    strictRun.Ready projectTree projectConfig ∧
      (∃ g outcome fault,
        (strictRun.selected projectConfig).head? = some g ∧
          outcome.result = .error fault ∧
          ((strictRun.merger projectConfig).runGroups [g]).run
              projectTree =
            ([outcome], projectTree)) ∧
      ∃ front,
        (strictRun.job.run projectTree).1.output =
          front ++ "\n1 group(s) merged, 1 failed\n".toList := by
  have hReady : strictRun.Ready projectTree projectConfig :=
    ready_iff.mpr
      ⟨by decide +kernel, by decide +kernel,
        by decide +kernel⟩
  have hEnded := run_job_ended strictRun projectTree
  refine ⟨hReady, ?_, ?_⟩
  · rcases hEnded.strict rfl projectConfig hReady [] _ _ rfl
        ⟨"./gone.go".toList, by decide +kernel, .noEntry,
          by decide +kernel⟩ with
      ⟨outcome, fault, hFailed, hRun⟩
    exact ⟨_, outcome, fault, rfl, hFailed, hRun⟩
  · rcases hEnded.counted projectConfig hReady
        (by decide +kernel) with
      ⟨front, ⟨done, failed⟩, hOutput, hDone, hFailed, -⟩
    have hOne :
        (strictRun.merged projectConfig projectTree).1.countP
            (·.result.isOk) =
          1 := by
      decide +kernel
    have hOther :
        (strictRun.merged projectConfig projectTree).1.countP
            (!·.result.isOk) =
          1 := by
      decide +kernel
    obtain rfl : done = 1 := hDone.trans hOne
    obtain rfl : failed = 1 := hFailed.trans hOther
    exact ⟨front, hOutput⟩

end RunCommand

end Collate
