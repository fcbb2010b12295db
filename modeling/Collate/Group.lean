import Collate.File.Job
import Collate.Merged

/-
  Groups of files to be merged, and the job that merges them.

  Key definitions include:
    * `MergeGroup`
    * `Options`
    * `Merger`
    * `Merger.gather`
    * `Merger.runGroup`
    * `Merger.runGroups`
    * `Report`
-/

------------------------------------------------------------
-- Groups and Options
------------------------------------------------------------

namespace Collate

/- Files that are merged into one. -/
structure MergeGroup where
  name : Text
  -- The files to be read, in the order of merging.
  inputs : List Path
  -- The file to be written.
  output : Path
  -- The module of the merged file, if it is configured.
  moduleName : Option Text
deriving DecidableEq, Repr

/- What happens when an input cannot be read. -/
inductive MissingPolicy where
  -- The group goes on without it.
  | skip
  -- The group fails.
  | fail
deriving DecidableEq, Repr

namespace MissingPolicy

/- The name under which a policy is configured. -/
def key : MissingPolicy → Text
  | .skip => "skip".toList
  | .fail => "fail".toList

/- The policy with a name. -/
def ofKey?
    (k : Text) : Option MissingPolicy :=
  [skip, fail].find? fun policy => policy.key = k

end MissingPolicy

/- How groups are merged. -/
structure Options where
  dialect : Dialect
  -- The module of groups that configure none.
  defaultModule : Option Text
  onMissing : MissingPolicy
  -- Whether outputs are left unwritten.
  dryRun : Bool
deriving DecidableEq, Repr

/- Go files, with unreadable inputs skipped. -/
def Options.standard : Options where
  dialect := .go
  defaultModule := none
  onMissing := .skip
  dryRun := false

/- Options whose dialect is accepted. -/
structure Merger where
  options : Options
  grammar : LineGrammar
deriving DecidableEq, Repr

/- The merger for options, unless a required token is blank. -/
def Options.merger
    (o : Options) : Except Token Merger :=
  match o.dialect.accept with
  | .error token => .error token
  | .ok grammar => .ok ⟨o, grammar⟩

------------------------------------------------------------
-- Outcomes
------------------------------------------------------------

/- Why a group failed. -/
inductive GroupFault where
  | inputNotFound (path : Path) (cause : FileFault)
  | outputWrite (path : Path) (cause : FileFault)
  | moduleUnknown (group : Text)
deriving DecidableEq, Repr

/- What is wrong, as users read it. -/
def GroupFault.message : GroupFault → Text
  | .inputNotFound path _ => "input not found: ".toList ++ path
  | .outputWrite path cause =>
      "failed to write ".toList ++ path ++ ": ".toList ++
        cause.message
  | .moduleUnknown group =>
      "cannot determine module name for group '".toList ++
        group ++ ['\'']

/- The news that a group goes on without an input. -/
structure Notice where
  group : Text
  path : Path
deriving DecidableEq, Repr

/- The inputs of a group after reading. -/
structure Gathered where
  -- The inputs that were read.
  loaded : List Loaded
  -- The inputs that were not.
  missing : List Path
deriving DecidableEq

/- What a group that succeeded has done. -/
structure Report where
  name : Text
  output : Path
  -- How many inputs the group has.
  declared : Nat
  -- How many of them were read.
  read : Nat
  missing : List Path
  importCount : Nat
  blockCount : Nat
  -- Whether the output was written.
  written : Bool
deriving DecidableEq, Repr

/- A report on one line. -/
def Report.summary
    (r : Report) : Text :=
  r.name ++ ": merged ".toList ++ Text.ofNat r.read ++
    '/' :: Text.ofNat r.declared ++ " files into ".toList ++
    r.output ++ " (".toList ++ Text.ofNat r.importCount ++
    " imports, ".toList ++ Text.ofNat r.blockCount ++
    " blocks)".toList

/- How a group ended, with the notices given on the way. -/
structure Outcome where
  name : Text
  notices : List Notice
  result : Except GroupFault Report

------------------------------------------------------------
-- Gathering Inputs
------------------------------------------------------------

namespace Gathered

/- Nothing read and nothing missing. -/
def none : Gathered :=
  ⟨[], []⟩

/- One more input read, before the others. -/
def withLoaded
    (path : Path)
    (source : Source)
    (g : Gathered) : Gathered :=
  { g with loaded := ⟨path, source⟩ :: g.loaded }

/- One more input missing, before the others. -/
def withMissing
    (path : Path)
    (g : Gathered) : Gathered :=
  { g with missing := path :: g.missing }

end Gathered

namespace Merger

/- The source with a text. -/
def source
    (m : Merger)
    (text : Text) : Source :=
  Source.read m.grammar m.options.dialect.commentMark text

/- The source in a file that was or was not read. -/
def sourceAt
    (m : Merger)
    (path : Path) :
    Except FileFault Text → Except GroupFault Source
  | .ok text => .ok (m.source text)
  | .error cause => .error (.inputNotFound path cause)

/- Read the source in a file. -/
def readSource
    (m : Merger)
    (path : Path) : FileJob (Except GroupFault Source) :=
  .read path fun got => .done (m.sourceAt path got)

/-
  Read the inputs of a group in order.  An input that cannot
  be read is skipped with a notice, or ends the group.
-/
def gather
    (m : Merger)
    (group : Text) :
    List Path → FileJob (List Notice × Except GroupFault Gathered)
  | [] => .done ([], .ok .none)
  | path :: rest => do
      let got ← m.readSource path
      match got, m.options.onMissing with
      | .ok source, _ => do
          let (notices, others) ← gather m group rest
          pure (notices, others.map (·.withLoaded path source))
      | .error _, .skip => do
          let (notices, others) ← gather m group rest
          pure
            (⟨group, path⟩ :: notices,
              others.map (·.withMissing path))
      | .error fault, .fail => pure ([], .error fault)

------------------------------------------------------------
-- Running Groups
------------------------------------------------------------

/- The report on a group that is merged. -/
def report
    (m : Merger)
    (g : MergeGroup)
    (gathered : Gathered)
    (merged : MergedFile) : Report where
  name := g.name
  output := g.output
  declared := g.inputs.length
  read := gathered.loaded.length
  missing := gathered.missing
  importCount := merged.imports.size
  blockCount := merged.blocks.length
  written := !m.options.dryRun

/- Merge the inputs that were read, and write the output. -/
def finish
    (m : Merger)
    (g : MergeGroup)
    (gathered : Gathered) : FileJob (Except GroupFault Report) :=
  match
    MergedFile.ofLoaded?
      (g.moduleName <|> m.options.defaultModule)
      gathered.loaded
  with
  | none => .done (.error (.moduleUnknown g.name))
  | some merged =>
      let report := m.report g gathered merged
      if m.options.dryRun then .done (.ok report)
      else
        .write g.output (merged.render m.options.dialect) fun
          | .ok () => .done (.ok report)
          | .error cause =>
              .done (.error (.outputWrite g.output cause))

/- Merge one group. -/
def runGroup
    (m : Merger)
    (g : MergeGroup) : FileJob Outcome := do
  let (notices, got) ← m.gather g.name g.inputs
  match got with
  | .error fault => return ⟨g.name, notices, .error fault⟩
  | .ok gathered =>
      let result ← m.finish g gathered
      return ⟨g.name, notices, result⟩

/-
  Merge groups one after another.  A group that fails does
  not stop the others.
-/
def runGroups
    (m : Merger) : List MergeGroup → FileJob (List Outcome)
  | [] => .done []
  | g :: rest => do
      let outcome ← m.runGroup g
      let outcomes ← runGroups m rest
      return outcome :: outcomes

end Merger

end Collate
