import Collate.Command.Given
import Collate.Config.Basic

/-
  What a command line asks for.

  Key definitions include:
    * `Command`
    * `Request`
    * `Request.ofWords`
-/

------------------------------------------------------------
-- Commands
------------------------------------------------------------

namespace Collate

/- Merge the files that are named. -/
structure MergeCommand where
  inputs : List Path
  output : Path
  moduleName : Option Text
  dryRun : Bool
  -- Whether an input that cannot be read is a failure.
  strict : Bool
deriving DecidableEq, Repr

/- Merge the groups of a configuration. -/
structure RunCommand where
  config : Path
  -- The names of the groups, or none for all groups.
  groups : List Text
  dryRun : Bool
  -- Whether an input that cannot be read is a failure.
  strict : Bool
deriving DecidableEq, Repr

/- Where a coverage table comes from. -/
inductive CoverageSource where
  | file (path : Path)
  -- The standard input.
  | input
  -- The coverage tool, given a profile.
  | profile (path : Path)
deriving DecidableEq, Repr

/- Report on the coverage of files. -/
structure CoverageCommand where
  source : CoverageSource
  -- How the lines of functions that count begin.
  start : Option Text
deriving DecidableEq, Repr

/- What the program can do. -/
inductive Command where
  | merge (c : MergeCommand)
  | run (c : RunCommand)
  | coverage (c : CoverageCommand)
deriving DecidableEq, Repr

/- What a command line asks for. -/
inductive Request where
  -- Nothing that makes sense.
  | usage
  | version (topic : Topic)
  | help (topic : Topic)
  | command (verbose : Bool) (c : Command)
deriving DecidableEq, Repr

------------------------------------------------------------
-- Commands From Options
------------------------------------------------------------

namespace Command

/- The command to merge files, if it is complete. -/
def merge?
    (g : Given) : Option Command :=
  match g.operands, g.value? .output with
  | [], _ => none
  | _, none => none
  | inputs, some output =>
      some
        (.merge
          { inputs := inputs
            output := output
            moduleName := g.value? .moduleName
            dryRun := g.has .dryRun
            strict := g.has .strict })

/-
  The command to merge groups.  They are merged one after
  another, also when they are allowed to run side by side.
-/
def runOf
    (g : Given) : Command :=
  .run
    { config := (g.value? .config).getD Config.standardPath
      groups := g.valuesOf .group
      dryRun := g.has .dryRun
      strict := g.has .strict }

/- The source of a coverage table.  A dash is the input. -/
def coverageSource? : Option Text → List Text → Option CoverageSource
  | some profile, [] => some (.profile profile)
  | some _, _ :: _ => none
  | none, [] => some .input
  | none, path :: _ =>
      some (if path = ['-'] then .input else .file path)

/- The command to report on coverage, if it makes sense. -/
def coverage?
    (g : Given) : Option Command :=
  (coverageSource? (g.value? .profile) g.operands).map
    fun source => .coverage ⟨source, g.value? .start⟩

/- The command of a verb with its options. -/
def ofGiven? : Verb → Given → Option Command
  | .merge, g => merge? g
  | .run, g => some (runOf g)
  | .coverage, g => coverage? g

end Command

------------------------------------------------------------
-- Requests
------------------------------------------------------------

namespace Request

/- What is asked for when reading ends early. -/
def ofStop : Stop → Request
  | .usage => .usage
  | .announce topic .version => .version topic
  | .announce topic _ => .help topic

/- What a command line asks for. -/
def ofWords
    (words : List Text) : Request :=
  match Given.readVerb .none words with
  | .error stop => ofStop stop
  | .ok (verb, before, rest) =>
      match Given.read (.verb verb) none .none rest with
      | .error stop => ofStop stop
      | .ok given =>
          match Command.ofGiven? verb given with
          | none => .usage
          | some c =>
              .command
                (before.has .verbose || given.has .verbose) c

end Request

end Collate
