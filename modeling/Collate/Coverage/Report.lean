import Collate.Coverage.Percent
import Collate.Text.Lines

/-
  Coverage of files, from a table with the coverage of their
  functions.

  Key definitions include:
    * `Tier`
    * `FileCoverage`
    * `CoverageReport`
    * `CoverLine.read`
    * `CoverageReport.ofLines`
    * `CoverageReport.render`
-/

------------------------------------------------------------
-- Tiers
------------------------------------------------------------

namespace Collate

/- How well a file is covered. -/
inductive Tier where
  | high
  | medium
  | low
deriving DecidableEq, Repr

namespace Tier

/- The least average of the high tier. -/
def highThreshold : Float := 70.0

/- The least average of the medium tier. -/
def mediumThreshold : Float := 40.0

/- The tier of an average.  An undefined average is low. -/
def ofAverage : Percent → Tier
  | .undefined _ => .low
  | .number x =>
      if highThreshold ≤ x then .high
      else if mediumThreshold ≤ x then .medium
      else .low

/- The name of a tier. -/
def name : Tier → Text
  | .high => "high".toList
  | .medium => "medium".toList
  | .low => "low".toList

end Tier

------------------------------------------------------------
-- Reports
------------------------------------------------------------

/- The average coverage of one file. -/
structure FileCoverage where
  file : Text
  -- How many functions were counted.
  functions : Nat
  average : Percent

/- The tier of a file. -/
def FileCoverage.tier
    (f : FileCoverage) : Tier :=
  Tier.ofAverage f.average

/- The coverage of all files. -/
structure CoverageReport where
  -- The overall coverage, as the table writes it.
  total : Option Text
  files : List FileCoverage

namespace CoverageReport

/- How many files are in a tier. -/
def countOf
    (r : CoverageReport)
    (tier : Tier) : Nat :=
  r.files.countP fun f => f.tier = tier

/- The files in the low tier, in the order of the report. -/
def lowFiles
    (r : CoverageReport) : List FileCoverage :=
  r.files.filter fun f => f.tier = .low

end CoverageReport

------------------------------------------------------------
-- Lines of the Table
------------------------------------------------------------

/- What a line of the table says. -/
inductive CoverLine where
  -- The overall coverage.
  | total (word : Option Text)
  -- The coverage of one function of a file.
  | function (file : Text) (percent : Percent)
  -- Nothing of interest.
  | other

namespace CoverLine

/- The mark of the line with the overall coverage. -/
def totalMark : Text :=
  "total:".toList

/-
  The file of a function: what stands before the first colon
  and after the last slash before it.
-/
def fileOf
    (word : Text) : Text :=
  let path := word.takeWhile (· != ':')
  (path.reverse.takeWhile (· != '/')).reverse

/- What the words of a line on a function say. -/
def ofWords : List Text → CoverLine
  | first :: second :: third :: rest =>
      if first.contains ':' then
        let last := (second :: third :: rest).getLast?.getD []
        match Percent.read? last with
        | some percent => .function (fileOf first) percent
        | none => .other
      else .other
  | _ => .other

/-
  What a line says.  A function counts only if its line
  begins with `start`, when that is given.
-/
def read
    (start : Option Text)
    (line : Text) : CoverLine :=
  if Text.holds line totalMark then .total line.words.getLast?
  else
    match start with
    | some part =>
        if line.startsWith part then ofWords line.words else .other
    | none => ofWords line.words

/- The overall coverage on a line, if it is there. -/
def total? : CoverLine → Option (Option Text)
  | .total word => some word
  | _ => none

/- The function on a line, if there is one. -/
def function? : CoverLine → Option (Text × Percent)
  | .function file percent => some (file, percent)
  | _ => none

end CoverLine

------------------------------------------------------------
-- Ranking
------------------------------------------------------------

namespace CoverageReport

variable [Percent.UndefinedSign]

/- The coverage of one file, from all functions counted. -/
def coverageOf
    (counted : List (Text × Percent))
    (file : Text) : FileCoverage :=
  let percents :=
    (counted.filter fun item => item.1 = file).map (·.2)
  ⟨file, percents.length, Percent.mean percents⟩

/-
  Whether a file may stand before another: higher averages
  come first, and names decide between equal ones.
-/
def ranksBefore
    (a b : FileCoverage) : Bool :=
  let x := a.average.rank
  let y := b.average.rank
  decide (y < x) || (decide (x = y) && Text.before a.file b.file)

/- The files of counted functions, by rank. -/
def rankedFiles
    (counted : List (Text × Percent)) : List FileCoverage :=
  let names := (counted.map (·.1)).eraseDups
  (names.map (coverageOf counted)).mergeSort ranksBefore

/- The report on the lines of a table. -/
def ofLines
    (start : Option Text)
    (lines : List Text) : CoverageReport :=
  let read := lines.map (CoverLine.read start)
  { total :=
      match (read.filterMap CoverLine.total?).getLast? with
      | some word => word
      | none => none
    files := rankedFiles (read.filterMap CoverLine.function?) }

/- The report on the text of a table. -/
def ofText
    (start : Option Text)
    (text : Text) : CoverageReport :=
  ofLines start text.lines

------------------------------------------------------------
-- Layout
------------------------------------------------------------

/- A line across the report. -/
def rule
    (c : Char) : Text :=
  List.replicate 80 c

/- The width of the column with the names of files. -/
def fileWidth : Nat := 42

/- An average with its percent sign. -/
def percentCell
    (average : Percent) : Text :=
  Text.padLeft 8 average.fixed ++ ['%']

/- The line on a file in the table of all files. -/
def fileLine
    (f : FileCoverage) : Text :=
  Text.padRight 6 f.tier.name ++
    ' ' :: Text.padRight fileWidth f.file ++
    ' ' :: percentCell f.average

/- The line on a file in the table of low coverage. -/
def lowLine
    (f : FileCoverage) : Text :=
  "  ".toList ++ Text.padRight fileWidth f.file ++
    ' ' :: percentCell f.average

/- The line with the number of files in a tier. -/
def countLine
    (label : String)
    (count : Nat) : Text :=
  label.toList ++ Text.ofNat count ++ " file(s)".toList

/- The heading of the table of all files. -/
def heading : Text :=
  Text.padRight 6 "tier".toList ++
    ' ' :: Text.padRight fileWidth "file".toList ++
    ' ' :: Text.padLeft 9 "coverage".toList

/- The lines of a report. -/
def lines
    (r : CoverageReport) : List Text :=
  [ rule '=', "Coverage report".toList, rule '=', [],
    "Total coverage: ".toList ++
      r.total.getD "unknown".toList,
    [], "Per-file coverage:".toList, rule '-', heading,
    rule '-' ] ++
  r.files.map fileLine ++
  [ rule '-', [], "Distribution:".toList,
    countLine "  high   (>=70%):  " (r.countOf .high),
    countLine "  medium (40-70%): " (r.countOf .medium),
    countLine "  low    (<40%):   " (r.countOf .low),
    [], "Low coverage files (<40%):".toList, rule '-' ] ++
  if r.lowFiles.isEmpty then ["  none".toList]
  else r.lowFiles.map lowLine

/- The text of a report. -/
def render
    (r : CoverageReport) : Text :=
  r.lines.flatMap fun line => line ++ ['\n']

end CoverageReport

end Collate
