import Collate.Line
import Collate.Text.Lines
import Std.Data.ExtTreeSet

/-
  A source file taken apart: the module it declares, its
  imports, and the lines of code between them.

  Key definitions include:
    * `ImportSet`
    * `Source`
    * `Source.read`
-/

------------------------------------------------------------
-- Sources
------------------------------------------------------------

namespace Collate

/- Import entries without repetition, in ascending order. -/
abbrev ImportSet := Std.ExtTreeSet Text

/- The parts of a source file. -/
structure Source where
  -- The declared module, if there is a declaration.
  moduleName : Option Text
  -- The entries of all imports.
  imports : ImportSet
  -- The other lines after the declaration.
  body : List Text
deriving DecidableEq

namespace Source

------------------------------------------------------------
-- Reading
------------------------------------------------------------

/-
  Whether an entry counts.  Empty entries do not, and
  neither do comments within a block of imports.  The
  comment mark is compared as it is configured.
-/
def counts
    (commentMark : Text)
    (entry : Text) : Bool :=
  !entry.isEmpty &&
    (commentMark.isEmpty || !entry.startsWith commentMark)

/- Add an entry to the imports if it counts. -/
def addImport
    (commentMark : Text)
    (s : Source)
    (entry : Text) : Source :=
  if counts commentMark entry then
    { s with imports := s.imports.insert entry }
  else s

/- Add a line at the start of the body. -/
def addLine
    (s : Source)
    (line : Text) : Source :=
  { s with body := line.trimEnd :: s.body }

/-
  Everything that lines contribute, after the module that is
  declared so far.  Nothing reaches the body before the
  module is declared.
-/
def contribute
    (commentMark : Text) :
    Option Text → List (Text × LineRole) → Source
  | name, [] => ⟨name, ∅, []⟩
  | name, (line, role) :: rest =>
      match role with
      | .moduleDeclaration declared =>
          contribute commentMark (some declared) rest
      | .blockOpen | .blockClose | .headerComment =>
          contribute commentMark name rest
      | .blockEntry entry | .singleImport entry =>
          (contribute commentMark name rest).addImport
            commentMark entry
      | .code | .blank =>
          let s := contribute commentMark name rest
          if name.isNone then s else s.addLine line

/- Everything the lines of a file contribute. -/
def collect
    (g : LineGrammar)
    (commentMark : Text)
    (lines : List Text) : Source :=
  contribute commentMark none (g.roles .header lines)

/-
  Take a source file apart.  The blank lines around its body
  are dropped.
-/
def read
    (g : LineGrammar)
    (commentMark : Text)
    (text : Text) : Source :=
  let s := collect g commentMark text.lines
  { s with body := Text.trimBlankEdges s.body }

end Source

end Collate
