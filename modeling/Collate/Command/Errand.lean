import Collate.Command.Help
import Collate.Coverage.Report
import Collate.Coverage.Tool
import Collate.Text.Printed

/-
  What the program does about a request, and what it prints.

  Key definitions include:
    * `Finish`
    * `Errand`
    * `Tally`
    * `MergeCommand.job`
    * `RunCommand.job`
    * `CoverageCommand.errand`
    * `Request.errand`
-/

------------------------------------------------------------
-- Finishes
------------------------------------------------------------

namespace Collate

/- What a run prints, and how it ends. -/
structure Finish where
  exitCode : Nat
  output : Text
  errors : Text
deriving DecidableEq, Repr

namespace Finish

/- Lines of text. -/
def paragraph
    (lines : List Text) : Text :=
  lines.flatMap fun line => line ++ ['\n']

/-
  Lines as they are printed, one after another.  Each line is
  given as the pieces that it is put together from.
-/
def printedLines
    (lines : List (List Text)) : Text :=
  lines.flatMap fun pieces => Text.printed (pieces ++ [['\n']])

/- A message with its lines indented. -/
def indented
    (message : Text) : Text :=
  Text.joinWith ['\n']
    ((Text.splitOn '\n' message).map ("    ".toList ++ ·))

/- A run that failed: what failed, and why. -/
def failure
    (context : String)
    (message : Text) : Finish where
  exitCode := 1
  output := []
  errors :=
    paragraph
      [ "Error: ".toList ++ context.toList, [],
        "Caused by:".toList, indented message ]

end Finish

------------------------------------------------------------
-- Errands
------------------------------------------------------------

/- What has to be done outside for a run to finish. -/
inductive Errand where
  -- A job on files.
  | files (job : FileJob Finish)
  -- Reading the standard input.
  | input (next : Except FileFault Text → Finish)
  -- Running the coverage tool with arguments.
  | tool
      (arguments : List Text)
      (next : Except FileFault CoverTool.Run → Finish)

/- Nothing has to be done. -/
def Errand.none
    (finish : Finish) : Errand :=
  .files (.done finish)

------------------------------------------------------------
-- Merging
------------------------------------------------------------

namespace Notice

/- The line on an input that is skipped, in pieces. -/
def line
    (n : Notice) : List Text :=
  [ "Warning: ".toList, n.group, ": ".toList, n.path,
    " not found, skipping".toList ]

end Notice

namespace Outcome

/- What was done to the files of a group, in words. -/
def headWords
    (dryRun : Bool)
    (r : Report) : Text :=
  "✓ ".toList ++
    (if dryRun then "Would merge ".toList
      else "Merged ".toList) ++
    Text.ofNat r.read ++ '/' :: Text.ofNat r.declared ++
    " files into ".toList

/- The lines on a group that succeeded, in pieces. -/
def reportLines
    (dryRun : Bool)
    (r : Report) : List (List Text) :=
  [ [ headWords dryRun r, r.output, " (".toList, r.name, [')'] ],
    ["   Total imports: ".toList, Text.ofNat r.importCount],
    [ "   Total code blocks: ".toList,
      Text.ofNat r.blockCount ] ] ++
  if r.missing.isEmpty then []
  else
    [ [ "   Skipped ".toList, Text.ofNat r.missing.length,
        " missing input(s)".toList ] ]

/- The lines on the end of a group, in pieces. -/
def lines
    (dryRun : Bool)
    (o : Outcome) : List (List Text) :=
  match o.result with
  | .ok report => reportLines dryRun report
  | .error fault =>
      [["✗ ".toList, o.name, ": ".toList, fault.message]]

/- Whether a group succeeded. -/
def succeeded
    (o : Outcome) : Bool :=
  match o.result with
  | .ok _ => true
  | .error _ => false

/- The lines on groups: first all notices, then all ends. -/
def allLines
    (dryRun : Bool)
    (outcomes : List Outcome) : List (List Text) :=
  (outcomes.flatMap fun o => o.notices.map Notice.line) ++
    outcomes.flatMap (lines dryRun)

end Outcome

/- How many groups were merged, and how many failed. -/
structure Tally where
  merged : Nat
  failed : Nat
deriving DecidableEq, Repr

namespace Tally

/- The numbers of groups that ended one way or the other. -/
def ofOutcomes
    (outcomes : List Outcome) : Tally where
  merged := outcomes.countP Outcome.succeeded
  failed := outcomes.countP fun o => !o.succeeded

/- The line with both numbers. -/
def line
    (t : Tally) : Text :=
  Text.ofNat t.merged ++ " group(s) merged".toList ++
    if t.failed = 0 then []
    else ", ".toList ++ Text.ofNat t.failed ++ " failed".toList

/- The exit code of a run, which fails if any group does. -/
def exitCode
    (t : Tally) : Nat :=
  if t.failed = 0 then 0 else 1

end Tally

/- The policy that a command asks for over another one. -/
def MissingPolicy.orStrict
    (policy : MissingPolicy)
    (strict : Bool) : MissingPolicy :=
  if strict then .fail else policy

namespace MergeCommand

/- The options of a merge. -/
def options
    (c : MergeCommand) : Options :=
  { Options.standard with
    onMissing := MissingPolicy.skip.orStrict c.strict
    dryRun := c.dryRun }

/- The group of a merge, named after its output. -/
def group
    (c : MergeCommand) : MergeGroup where
  name := (Path.stem? c.output).getD "merge".toList
  inputs := c.inputs
  output := c.output
  moduleName := c.moduleName

/- What is printed after a merge. -/
def finish
    (c : MergeCommand)
    (outcome : Outcome) : Finish where
  exitCode := (Tally.ofOutcomes [outcome]).exitCode
  output :=
    Finish.printedLines
      (Outcome.allLines c.dryRun [outcome])
  errors := []

/- Merge the files. -/
def job
    (c : MergeCommand) : FileJob Finish :=
  match c.options.merger with
  | .error token =>
      .done (.failure "merge failed" token.blankMessage)
  | .ok merger => do
      let outcome ← merger.runGroup c.group
      return c.finish outcome

end MergeCommand

------------------------------------------------------------
-- Running
------------------------------------------------------------

namespace RunCommand

/- The options of a run. -/
def options
    (c : RunCommand)
    (config : Config) : Options :=
  { config.options c.dryRun with
    onMissing := config.onMissing.orStrict c.strict }

/- A run that failed. -/
def failed
    (message : Text) : Finish :=
  .failure "run failed" message

/- A run without groups. -/
def idle
    (c : RunCommand) : Finish where
  exitCode := 0
  output :=
    Finish.printedLines
      [["No groups defined in ".toList ++ c.config]]
  errors := []

/- What is printed after a run. -/
def finish
    (c : RunCommand)
    (outcomes : List Outcome) : Finish where
  exitCode := (Tally.ofOutcomes outcomes).exitCode
  output :=
    Finish.printedLines
      ([ "Merging ".toList, Text.ofNat outcomes.length,
          " group(s) from ".toList, c.config ] ::
        Outcome.allLines c.dryRun outcomes ++
        [[], [(Tally.ofOutcomes outcomes).line]])
  errors := []

/-
  Merge the groups of a configuration.  Paths are under the
  directory of the configuration.
-/
def runConfig
    (c : RunCommand)
    (config : Config) : FileJob Finish :=
  match config.resolve (Path.directory c.config) c.groups with
  | .error fault => .done (failed fault.message)
  | .ok groups =>
      match (c.options config).merger with
      | .error token => .done (failed token.blankMessage)
      | .ok merger =>
          if groups.isEmpty then .done c.idle
          else do
            let outcomes ← merger.runGroups groups
            return c.finish outcomes

/- Read the configuration and merge its groups. -/
def job
    (c : RunCommand) : FileJob Finish := do
  let loaded ← Config.load c.config
  match loaded with
  | .error fault => return failed fault.message
  | .ok config => c.runConfig config

end RunCommand

------------------------------------------------------------
-- Coverage
------------------------------------------------------------

namespace CoverageCommand

/- What is printed on a report. -/
def finish
    (report : CoverageReport) : Finish where
  exitCode := 0
  output := Text.printed (report.lines.map (· ++ ['\n']))
  errors :=
    if report.files.isEmpty then
      Finish.paragraph
        ["No function coverage lines found".toList]
    else []

/- What is printed on a table, or on its absence. -/
def finishText
    (c : CoverageCommand) : Except Text Text → Finish
  | .ok text => finish (CoverageReport.ofText c.start text)
  | .error message => .failure "coverage report failed" message

/- Get the table, and report on it. -/
def errand
    (c : CoverageCommand) : Errand :=
  match c.source with
  | .file path =>
      .files
        (.read path fun got =>
          .done (c.finishText (got.mapError FileFault.message)))
  | .input =>
      .input fun got =>
        c.finishText (got.mapError FileFault.message)
  | .profile path =>
      match CoverTool.call path with
      | .error fault => .none (c.finishText (.error fault.message))
      | .ok arguments =>
          .tool arguments fun got =>
            c.finishText
              ((CoverTool.table got).mapError
                CoverTool.Fault.message)

end CoverageCommand

------------------------------------------------------------
-- Requests
------------------------------------------------------------

/- What has to be done about a request. -/
def Request.errand : Request → Errand
  | .usage => .none ⟨2, [], Topic.usageText⟩
  | .version topic => .none ⟨0, topic.versionText, []⟩
  | .help topic => .none ⟨0, topic.helpText, []⟩
  | .command _ (.merge c) => .files c.job
  | .command _ (.run c) => .files c.job
  | .command _ (.coverage c) => c.errand

end Collate
