import Collate.File.Fault
import Collate.Text.Blank
import Collate.Text.Utf8

/-
  The coverage tool of Go, which turns a profile into a table
  with the coverage of functions.

  Key definitions include:
    * `CoverTool.arguments`
    * `CoverTool.call`
    * `CoverTool.Run`
    * `CoverTool.Fault`
    * `CoverTool.table`
-/

------------------------------------------------------------
-- The Coverage Tool
------------------------------------------------------------

namespace Collate

namespace CoverTool

/- The arguments that ask for the table of a profile. -/
def arguments
    (profile : Text) : List Text :=
  [ "tool".toList, "cover".toList,
    "-func=".toList ++ profile ]

/- What the program wrote and how it ended. -/
structure Run where
  output : Octets
  errors : Octets
  exitCode : Nat
deriving DecidableEq, Repr

/- Why there is no table. -/
inductive Fault where
  -- The profile holds a zero character, which no argument
  -- can hold.
  | zeroInArgument
  -- The program could not be started.
  | notStarted (cause : FileFault)
  -- The program failed.
  | failed (exitCode : Nat) (errors : Text)
deriving DecidableEq, Repr

/- What is wrong, as users read it. -/
def Fault.message : Fault → Text
  | .zeroInArgument =>
      "coverage error: failed to run go tool cover: ".toList ++
        "nul byte found in provided data".toList
  | .notStarted cause =>
      "coverage error: failed to run go tool cover: ".toList ++
        cause.message
  | .failed exitCode errors =>
      "coverage error: go tool cover exited with ".toList ++
        "exit status: ".toList ++ Text.ofNat exitCode ++
        ": ".toList ++ errors

/- The arguments for a profile, if they can be handed over. -/
def call
    (profile : Text) : Except Fault (List Text) :=
  if profile.contains (Char.ofNat 0) then .error .zeroInArgument
  else .ok (arguments profile)

/- The table in what the program wrote. -/
def table : Except FileFault Run → Except Fault Text
  | .error cause => .error (.notStarted cause)
  | .ok run =>
      if run.exitCode = 0 then .ok (Utf8.decodeLossy run.output)
      else
        .error
          (.failed run.exitCode
            (Text.trim (Utf8.decodeLossy run.errors)))

end CoverTool

end Collate
