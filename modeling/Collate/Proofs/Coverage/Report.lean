import Collate.Proofs.Coverage.Lines
import Collate.Proofs.Coverage.Ranking

/-
  The report on a coverage table.  Every line that counts is
  counted for one file, with the percentages of a file in the
  order of its lines, and the files are ranked.  Lines that do
  not count, and the way in which the lines of different files
  are mixed, do not show in the report.

  Key definitions include:
    * `CoverageReport.countedIn`
    * `CoverageReport.Summarizes`

  Main declarations:
    * `CoverageReport.total_ofLines`
    * `CoverageReport.ofText_summarizes`
    * `CoverageReport.ofLines_eq_of_filters`
    * `CoverageReport.ofLines_some`
    * `CoverageReport.ofText_eq_of_filters`
-/

------------------------------------------------------------
-- Counted Functions
------------------------------------------------------------

namespace Collate

namespace CoverageReport

open CoverLine

/- The functions that are counted, in the order of lines. -/
def countedIn
    (start : Option Text)
    (lines : List Text) : List (Text × Percent) :=
  lines.filterMap fun line => (CoverLine.read start line).function?

theorem files_ofLines
    [Percent.UndefinedSign]
    (start : Option Text)
    (lines : List Text) :
    (ofLines start lines).files =
      rankedFiles (countedIn start lines) := by
  unfold countedIn
  exact congrArg rankedFiles List.filterMap_map

theorem mem_countedIn
    {start : Option Text}
    {lines : List Text}
    {file : Text} :
    file ∈ (countedIn start lines).map (·.1) ↔
      ∃ line ∈ lines, CountsFor start file line := by
  simp only [countedIn, List.mem_map, List.mem_filterMap]
  constructor
  · rintro ⟨item, ⟨line, hLine, hItem⟩, rfl⟩
    exact
      ⟨line, hLine, item.2,
        function?_read_eq_some_iff.mp hItem⟩
  · rintro ⟨line, hLine, percent, hCounts⟩
    exact
      ⟨(file, percent),
        ⟨line, hLine, function?_read_eq_some_iff.mpr hCounts⟩,
        rfl⟩

theorem length_countedIn
    (start : Option Text)
    (lines : List Text) :
    (countedIn start lines).length =
      (lines.filter (IsCounted start)).length := by
  unfold countedIn
  rw [List.length_filterMap_eq_countP,
    List.countP_eq_length_filter]
  congr 2
  funext line
  rw [Bool.eq_iff_iff, isSome_function?_read_iff,
    decide_eq_true_iff]

/- The functions of a file come from the lines of that file. -/
theorem filter_countedIn
    (start : Option Text)
    (lines : List Text)
    (file : Text) :
    ((countedIn start lines).filter fun item =>
        item.1 = file) =
      countedIn start (lines.filter (CountsFor start file)) := by
  unfold countedIn
  rw [List.filter_filterMap, List.filterMap_filter]
  congr 1
  funext line
  cases hRead : (CoverLine.read start line).function? with
  | none => simp
  | some item =>
      have hCounts :
          CountsFor start file line ↔ item.1 = file := by
        rw [← map_function?_read_eq_iff, hRead]
        simp
      by_cases hFile : item.1 = file <;> simp [hCounts, hFile]

/- Lines of one file each have a percentage, in their order. -/
theorem forall₂_countedIn
    {start : Option Text}
    {lines : List Text}
    {file : Text}
    (hLines : ∀ line ∈ lines, CountsFor start file line) :
    List.Forall₂
      (fun line percent => Counts start line file percent)
      lines ((countedIn start lines).map (·.2)) := by
  induction lines with
  | nil => exact .nil
  | cons line rest ih =>
      rw [List.forall_mem_cons] at hLines
      rcases hLines.1 with ⟨percent, hCounts⟩
      have hFound := function?_read_eq_some_iff.mpr hCounts
      have hRest := ih hLines.2
      simp only [countedIn, List.filterMap_cons, hFound,
        List.map_cons] at hRest ⊢
      exact .cons hCounts hRest

------------------------------------------------------------
-- The Overall Coverage
------------------------------------------------------------

/- A line with the mark of the overall coverage has words. -/
theorem exists_word_of_holdsTotal
    {line : Text}
    (hTotal : HoldsTotal line) :
    ∃ word, line.words.getLast? = some word := by
  cases hLast : line.words.getLast? with
  | some word => exact ⟨word, rfl⟩
  | none =>
      rw [List.getLast?_eq_none_iff, Text.words_eq_nil_iff,
        Text.allBlank_iff] at hLast
      have hMem : 't' ∈ line := hTotal.subset (by decide)
      exact absurd (hLast 't' hMem) (by decide)

/- The overall coverage is the last word of its last line. -/
theorem total_ofLines
    [Percent.UndefinedSign]
    (start : Option Text)
    (lines : List Text) :
    (ofLines start lines).total =
      (lines.filter HoldsTotal).getLast?.bind
        (·.words.getLast?) := by
  have hTotals :
      (lines.map (CoverLine.read start)).filterMap total? =
        (lines.filter HoldsTotal).map (·.words.getLast?) := by
    rw [List.filterMap_map, ← List.filterMap_eq_map,
      List.filterMap_filter]
    congr 1
    funext line
    cases hRead : CoverLine.read start line with
    | total word =>
        rcases read_eq_total_iff.mp hRead with ⟨hTotal, rfl⟩
        simp [hRead, total?, hTotal]
    | function file percent =>
        have hOther := (read_eq_function_iff.mp hRead).noTotal
        simp [hRead, total?, hOther]
    | other =>
        have hOther : ¬ HoldsTotal line := by
          intro hTotal
          have hFound :
              CoverLine.read start line =
                .total line.words.getLast? :=
            read_eq_total_iff.mpr ⟨hTotal, rfl⟩
          rw [hRead] at hFound
          cases hFound
        simp [hRead, total?, hOther]
  unfold ofLines
  simp only [hTotals, List.getLast?_map]
  cases (lines.filter HoldsTotal).getLast? with
  | none => rfl
  | some line => rfl

theorem total_ofLines_eq_none_iff
    [Percent.UndefinedSign]
    {start : Option Text}
    {lines : List Text} :
    (ofLines start lines).total = none ↔
      ∀ line ∈ lines, ¬ HoldsTotal line := by
  rw [total_ofLines, Option.bind_eq_none_iff]
  constructor
  · intro hNone line hMem hTotal
    cases hLast : (lines.filter HoldsTotal).getLast? with
    | none =>
        rw [List.getLast?_eq_none_iff, List.filter_eq_nil_iff]
          at hLast
        exact hLast line hMem (by simpa using hTotal)
    | some last =>
        have hFound := List.mem_of_getLast? hLast
        rcases exists_word_of_holdsTotal
            (by simpa using (List.mem_filter.mp hFound).2) with
          ⟨word, hWord⟩
        rw [hNone last hLast] at hWord
        cases hWord
  · intro hNone last hLast
    have hFound := List.mem_filter.mp (List.mem_of_getLast? hLast)
    exact absurd (by simpa using hFound.2) (hNone last hFound.1)

/- Lines behind the last one with the mark do not matter. -/
theorem total_ofLines_of_last
    [Percent.UndefinedSign]
    {start : Option Text}
    {before after : List Text}
    {line : Text}
    (hTotal : HoldsTotal line)
    (hAfter : ∀ later ∈ after, ¬ HoldsTotal later) :
    (ofLines start (before ++ line :: after)).total =
      line.words.getLast? := by
  have hNone : after.filter HoldsTotal = [] := by
    rw [List.filter_eq_nil_iff]
    simpa using hAfter
  rw [total_ofLines, List.filter_append,
    List.filter_cons_of_pos (by simpa using hTotal), hNone]
  simp

------------------------------------------------------------
-- Reports
------------------------------------------------------------

/- What a report has to say about the lines of a table. -/
structure Summarizes
    [Percent.UndefinedSign]
    (start : Option Text)
    (lines : List Text)
    (r : CoverageReport) : Prop where
  -- Every file is there once if a line counts towards it.
  distinct : (r.files.map (·.file)).Nodup
  covers :
    ∀ file,
      file ∈ r.files.map (·.file) ↔
        ∃ line ∈ lines, CountsFor start file line
  -- The functions of a file are its lines, at least one.
  functions :
    ∀ f ∈ r.files,
      f.functions =
        (lines.filter (CountsFor start f.file)).length
  positive : ∀ f ∈ r.files, 1 ≤ f.functions
  complete :
    (r.files.map (·.functions)).sum =
      (lines.filter (IsCounted start)).length
  -- The percentages are added in the order of the lines.
  average :
    ∀ f ∈ r.files,
      ∃ percents,
        List.Forall₂
            (fun line percent => Counts start line f.file percent)
            (lines.filter (CountsFor start f.file)) percents ∧
          f.average =
            (percents.foldl Percent.add (.number (-0.0))).divide
              f.functions
  ranked : r.files.Pairwise FileCoverage.Above
  -- The overall coverage stands on the last of its lines.
  total :
    ∀ before line after,
      lines = before ++ line :: after →
        HoldsTotal line → (∀ later ∈ after, ¬ HoldsTotal later) →
          ∃ word,
            line.words.getLast? = some word ∧
              r.total = some word
  noTotal :
    r.total = none ↔ ∀ line ∈ lines, ¬ HoldsTotal line

/- What a report says about one of its files. -/
theorem mem_files_ofLines
    [Percent.UndefinedSign]
    {start : Option Text}
    {lines : List Text}
    {f : FileCoverage}
    (hMem : f ∈ (ofLines start lines).files) :
    let counted :=
      countedIn start (lines.filter (CountsFor start f.file))
    counted ≠ [] ∧ f.functions = counted.length ∧
      f.average = Percent.mean (counted.map (·.2)) := by
  rw [files_ofLines] at hMem
  rcases mem_rankedFiles.mp hMem with ⟨hName, hFile⟩
  rw [← filter_countedIn]
  refine ⟨?_, ?_, ?_⟩
  · rw [ne_eq, List.filter_eq_nil_iff]
    rcases List.mem_map.mp hName with ⟨item, hItem, hSame⟩
    intro hNone
    exact hNone item hItem (by simpa using hSame)
  · conv_lhs => rw [hFile]
    simp [coverageOf]
  · conv_lhs => rw [hFile]
    rfl

/-
  The report on a table counts every line that counts once,
  for the file that it names, and ranks the files.
-/
theorem ofText_summarizes
    [Percent.UndefinedSign]
    (start : Option Text)
    (text : Text) :
    (ofText start text).Summarizes start text.lines := by
  have hOwn :
      ∀ file,
        ∀ line ∈ text.lines.filter (CountsFor start file),
          CountsFor start file line := by
    intro file line hMem
    simpa using (List.mem_filter.mp hMem).2
  have hLength :
      ∀ file,
        (countedIn start
            (text.lines.filter (CountsFor start file))).length =
          (text.lines.filter (CountsFor start file)).length := by
    intro file
    have hSame := (forall₂_countedIn (hOwn file)).length_eq
    rw [List.length_map] at hSame
    exact hSame.symm
  unfold ofText
  refine
    { distinct := ?_
      covers := ?_
      functions := ?_
      positive := ?_
      complete := ?_
      average := ?_
      ranked := ?_
      total := ?_
      noTotal := total_ofLines_eq_none_iff }
  · rw [files_ofLines]
    exact nodup_rankedFiles _
  · intro file
    rw [← mem_countedIn, files_ofLines, List.mem_map]
    constructor
    · rintro ⟨f, hMem, rfl⟩
      exact (mem_rankedFiles.mp hMem).1
    · intro hName
      exact
        ⟨coverageOf (countedIn start text.lines) file,
          mem_rankedFiles.mpr ⟨hName, rfl⟩, rfl⟩
  · intro f hMem
    rw [(mem_files_ofLines hMem).2.1, hLength]
  · intro f hMem
    rcases mem_files_ofLines hMem with ⟨hSome, hFunctions, -⟩
    rw [hFunctions]
    exact List.length_pos_of_ne_nil hSome
  · rw [files_ofLines, sum_rankedFiles, length_countedIn]
  · intro f hMem
    rcases mem_files_ofLines hMem with
      ⟨-, hFunctions, hAverage⟩
    refine ⟨_, forall₂_countedIn (hOwn f.file), ?_⟩
    rw [hAverage, Percent.mean, hFunctions, List.length_map]
  · rw [files_ofLines]
    have hSound :
        ∀ f ∈ rankedFiles (countedIn start text.lines),
          f.average.Sound := by
      intro f hMem
      rw [(mem_rankedFiles.mp hMem).2]
      exact Percent.sound_mean _
    exact (rankedFiles_leads _).imp_of_mem
      fun hA hB hLeads =>
        hLeads.above (hSound _ hA) (hSound _ hB)
  · intro before line after hLines hTotal hAfter
    rcases exists_word_of_holdsTotal hTotal with ⟨word, hWord⟩
    refine ⟨word, hWord, ?_⟩
    rw [hLines, total_ofLines_of_last hTotal hAfter, hWord]

/- A file with functions in two folders, and another one. -/
def pairedTable : Text :=
  "p/a: F .1%\nb: G 2\nq/a: H .2\ntotal: 9%\n".toList

theorem ofText_summarizes_pairedTable :
    let r := ofText none pairedTable
    r.Summarizes none pairedTable.lines ∧
      ∃ f ∈ r.files, f.file = "a".toList ∧ f.functions = 2 := by
  intro r
  have hSummarizes : r.Summarizes none pairedTable.lines :=
    ofText_summarizes none pairedTable
  have hLine :
      ∃ line ∈ pairedTable.lines,
        CountsFor none "a".toList line := by
    decide +kernel
  refine ⟨hSummarizes, ?_⟩
  rcases List.mem_map.mp ((hSummarizes.covers _).mpr hLine) with
    ⟨f, hMem, hFile⟩
  refine ⟨f, hMem, hFile, ?_⟩
  rw [hSummarizes.functions f hMem, hFile]
  decide +kernel

------------------------------------------------------------
-- Mixed Lines
------------------------------------------------------------

/-
  A report is known from the lines with the overall coverage
  and from the lines of each file.
-/
theorem ofLines_eq_of_filters
    [Percent.UndefinedSign]
    {start : Option Text}
    {lines other : List Text}
    (hTotals :
      lines.filter HoldsTotal = other.filter HoldsTotal)
    (hFiles :
      ∀ file,
        lines.filter (CountsFor start file) =
          other.filter (CountsFor start file)) :
    ofLines start lines = ofLines start other := by
  have hTotal :
      (ofLines start lines).total =
        (ofLines start other).total := by
    rw [total_ofLines, total_ofLines, hTotals]
  have hRanked :
      (ofLines start lines).files =
        (ofLines start other).files := by
    rw [files_ofLines, files_ofLines]
    apply rankedFiles_congr
    intro file
    rw [filter_countedIn, filter_countedIn, hFiles]
  exact congrArg₂ CoverageReport.mk hTotal hRanked

/- A start only keeps lines that do not have it from counting. -/
theorem counts_some_iff
    {part line file : Text}
    {percent : Percent} :
    Counts (some part) line file percent ↔
      part <+: line ∧ Counts none line file percent := by
  constructor
  · intro hCounts
    exact
      ⟨hCounts.starts part rfl, hCounts.noTotal, by simp,
        hCounts.tells⟩
  · rintro ⟨hStarts, hCounts⟩
    refine ⟨hCounts.noTotal, ?_, hCounts.tells⟩
    intro other hOther
    cases hOther
    exact hStarts

/-
  With a start, the report is that on the lines that begin
  with it and on those with the overall coverage.
-/
theorem ofLines_some
    [Percent.UndefinedSign]
    (part : Text)
    (lines : List Text) :
    ofLines (some part) lines =
      ofLines none
        (lines.filter fun line =>
          HoldsTotal line ∨ part <+: line) := by
  have hTotal :
      (ofLines (some part) lines).total =
        (ofLines none
          (lines.filter fun line =>
            HoldsTotal line ∨ part <+: line)).total := by
    rw [total_ofLines, total_ofLines, List.filter_filter]
    congr 3
    funext line
    by_cases hTotal : HoldsTotal line <;> simp [hTotal]
  have hCounted :
      countedIn (some part) lines =
        countedIn none
          (lines.filter fun line =>
            HoldsTotal line ∨ part <+: line) := by
    unfold countedIn
    rw [List.filterMap_filter]
    congr 1
    funext line
    apply Option.ext
    rintro ⟨file, percent⟩
    rw [function?_read_eq_some_iff, counts_some_iff]
    by_cases hStarts : part <+: line
    · simp [hStarts, function?_read_eq_some_iff]
    · -- A line with the overall coverage never counts.
      have hNone :
          HoldsTotal line →
            ¬ Counts none line file percent :=
        fun hTotal hCounts => hCounts.noTotal hTotal
      simpa [hStarts, function?_read_eq_some_iff] using hNone
  have hRanked :
      (ofLines (some part) lines).files =
        (ofLines none
          (lines.filter fun line =>
            HoldsTotal line ∨ part <+: line)).files := by
    rw [files_ofLines, files_ofLines, hCounted]
  exact congrArg₂ CoverageReport.mk hTotal hRanked

/-
  Tables with the same lines for the overall coverage and the
  same lines for each file have the same report, whatever
  other lines they have and however the lines are mixed.  A
  start only selects lines, and never those with the overall
  coverage.
-/
theorem ofText_eq_of_filters
    [Percent.UndefinedSign]
    (start : Option Text)
    (text : Text) :
    (∀ other : Text,
        text.lines.filter HoldsTotal =
            other.lines.filter HoldsTotal →
          (∀ file,
            text.lines.filter (CountsFor start file) =
              other.lines.filter (CountsFor start file)) →
            ofText start text = ofText start other) ∧
      (∀ part,
        ofText (some part) text =
          ofLines none
            (text.lines.filter fun line =>
              HoldsTotal line ∨ part <+: line)) ∧
      (ofText start text).total = (ofText none text).total := by
  refine ⟨?_, ?_, ?_⟩
  · intro other hTotals hFiles
    exact ofLines_eq_of_filters hTotals hFiles
  · intro part
    exact ofLines_some part text.lines
  · unfold ofText
    rw [total_ofLines, total_ofLines]

/- The same lines in another order, with one that says nothing. -/
def mixedTable : Text :=
  "p/a: F .1%\ntotal: 9%\nx\nq/a: H .2\r\nb: G 2".toList

theorem ofText_eq_of_filters_mixedTable :
    pairedTable.lines ≠ mixedTable.lines ∧
      ofText none pairedTable = ofText none mixedTable ∧
      ofText (some "q".toList) pairedTable =
        ofLines none
          ["q/a: H .2".toList, "total: 9%".toList] := by
  rcases ofText_eq_of_filters none pairedTable with
    ⟨hMixed, hStarted, -⟩
  -- Only two files have lines in either table.
  have hNames :
      ∀ line ∈ pairedTable.lines ++ mixedTable.lines,
        (CoverLine.read none line).function?.map (·.1) ∈
          [none, some "a".toList, some "b".toList] := by
    decide +kernel
  have hFiles :
      ∀ file,
        pairedTable.lines.filter (CountsFor none file) =
          mixedTable.lines.filter (CountsFor none file) := by
    intro file
    by_cases hA : file = "a".toList
    · subst hA
      decide +kernel
    · by_cases hB : file = "b".toList
      · subst hB
        decide +kernel
      · have hNone :
            ∀ line ∈ pairedTable.lines ++ mixedTable.lines,
              ¬ CountsFor none file line := by
          intro line hMem hCounts
          have hName := hNames line hMem
          rw [map_function?_read_eq_iff.mpr hCounts] at hName
          simp only [List.mem_cons, reduceCtorEq, false_or,
            Option.some.injEq, List.not_mem_nil, or_false]
            at hName
          exact hName.elim hA hB
        rw [List.filter_eq_nil_iff.mpr, List.filter_eq_nil_iff.mpr]
        · intro line hMem
          simpa using hNone line (List.mem_append_right _ hMem)
        · intro line hMem
          simpa using hNone line (List.mem_append_left _ hMem)
  refine ⟨by decide +kernel, ?_, ?_⟩
  · exact hMixed mixedTable (by decide +kernel) hFiles
  · rw [hStarted]
    congr 1

end CoverageReport

end Collate
