import Collate.Text.Blank

/-
  Texts as lists of lines.

  Key definitions include:
    * `Text.lines`
    * `Text.firstFilled?`
    * `Text.lastFilled?`
    * `Text.trimBlankEdges`
-/

------------------------------------------------------------
-- Lines
------------------------------------------------------------

namespace Collate

namespace Text

/-
  The lines of a text.  A line ends at a line feed, and one
  carriage return directly before that line feed belongs to
  the ending.  A final line needs no line feed, and a text
  that ends in one has no further empty line.
-/
def lines : Text → List Text
  | [] => []
  | '\n' :: t => [] :: lines t
  | '\r' :: '\n' :: t => [] :: lines t
  | c :: t =>
      match lines t with
      | [] => [[c]]
      | line :: rest => (c :: line) :: rest

------------------------------------------------------------
-- Blank Edges
------------------------------------------------------------

/- The position of the first line that is not blank. -/
def firstFilled?
    (lines : List Text) : Option Nat :=
  lines.findIdx? (!·.allBlank)

/- The position of the last line that is not blank. -/
def lastFilled?
    (lines : List Text) : Option Nat :=
  (firstFilled? lines.reverse).map (lines.length - 1 - ·)

/- Drop the blank lines at the start and at the end. -/
def trimBlankEdges
    (lines : List Text) : List Text :=
  match firstFilled? lines with
  | none => []
  | some first =>
      -- With a first line that is not blank there is a last one.
      let last := (lastFilled? lines).getD first
      (lines.take (last + 1)).drop first

end Text

end Collate
