import Collate.Proofs.Coverage.Means
import Collate.Proofs.Coverage.Report

/-
  Tiers along the ranking of files.  A higher rank never goes
  with a worse tier, as long as the average is a number or is
  ranked below all numbers.  An undefined average that is
  ranked above all numbers is in the low tier all the same, so
  the files with such averages stand before all others.

  Key definitions include:
    * `Tier.place`
    * `CoverageReport.Runs`
    * `CoverageReport.FallsByTier`
    * `CoverageReport.NoClash`

  Main declarations:
    * `Tier.place_le_of_rank_le`
    * `CoverageReport.fallsByTier_iff`
    * `CoverageReport.average_ne_undefined`
    * `CoverageReport.ofText_fallsByTier_iff`
-/

------------------------------------------------------------
-- Tiers by Rank
------------------------------------------------------------

namespace Collate

namespace Tier

/- The place of a tier, the best one first. -/
def place : Tier → Nat
  | .high => 0
  | .medium => 1
  | .low => 2

theorem place_le_low
    (tier : Tier) :
    tier.place ≤ low.place := by
  cases tier <;> decide

theorem eq_low_of_le
    {tier : Tier}
    (hLow : low.place ≤ tier.place) :
    tier = .low := by
  cases tier with
  | low => rfl
  | high => exact absurd hLow (by decide)
  | medium => exact absurd hLow (by decide)

/- Whether a threshold is reached shows in the rank. -/
theorem le_iff_rank_le
    {threshold x : Float}
    (hThreshold : Binary64.view threshold ≠ .undefined)
    (hPositive : 0 < Binary64.rank threshold)
    (hX : Binary64.view x ≠ .undefined) :
    threshold ≤ x ↔
      Binary64.rank threshold ≤ Binary64.rank x := by
  rw [Binary64.le_iff_rank hThreshold hX]
  omega

theorem highThreshold_le_iff
    {x : Float}
    (hX : Binary64.view x ≠ .undefined) :
    highThreshold ≤ x ↔
      Binary64.rank highThreshold ≤ Binary64.rank x :=
  le_iff_rank_le (by decide +kernel) (by decide +kernel) hX

theorem mediumThreshold_le_iff
    {x : Float}
    (hX : Binary64.view x ≠ .undefined) :
    mediumThreshold ≤ x ↔
      Binary64.rank mediumThreshold ≤ Binary64.rank x :=
  le_iff_rank_le (by decide +kernel) (by decide +kernel) hX

/- The tier of a number shows in its rank. -/
theorem ofAverage_number
    {x : Float}
    (hX : Binary64.view x ≠ .undefined) :
    ofAverage (.number x) =
      if Binary64.rank highThreshold ≤ Binary64.rank x then .high
      else if Binary64.rank mediumThreshold ≤ Binary64.rank x then
        .medium
      else .low := by
  simp only [ofAverage, highThreshold_le_iff hX,
    mediumThreshold_le_iff hX]

/-
  An average that ranks higher is in no worse tier, unless it
  is undefined and ranks above all numbers.
-/
theorem place_le_of_rank_le
    {p q : Percent}
    (hP : p.Sound)
    (hQ : q.Sound)
    (hDefined : p ≠ .undefined false)
    (hRank : q.rank ≤ p.rank) :
    (ofAverage p).place ≤ (ofAverage q).place := by
  have hMedium : 0 < Binary64.rank mediumThreshold := by
    decide +kernel
  have hHigh :
      Binary64.rank mediumThreshold <
        Binary64.rank highThreshold := by
    decide +kernel
  cases q with
  | undefined negative => exact place_le_low _
  | number y =>
      rw [ofAverage_number hQ]
      change Binary64.rank y ≤ _ at hRank
      cases p with
      | number x =>
          rw [ofAverage_number hP]
          change _ ≤ Binary64.rank x at hRank
          split_ifs <;> simp only [place] <;> omega
      | undefined negative =>
          -- Such a value ranks below all thresholds.
          cases negative with
          | false => exact absurd rfl hDefined
          | true =>
              have hLow : Percent.rank (.undefined true) < 0 := by
                decide
              rw [if_neg (by omega), if_neg (by omega)]
              exact place_le_low _

end Tier

------------------------------------------------------------
-- Runs of Files
------------------------------------------------------------

namespace CoverageReport

variable {r : CoverageReport}

/-
  The files of a report as three runs, one for each tier, with
  the counts of the report as their lengths.
-/
structure Runs
    (r : CoverageReport)
    (high medium low : List FileCoverage) : Prop where
  files : r.files = high ++ (medium ++ low)
  allHigh : ∀ f ∈ high, f.tier = .high
  allMedium : ∀ f ∈ medium, f.tier = .medium
  allLow : ∀ f ∈ low, f.tier = .low
  highCount : r.countOf .high = high.length
  mediumCount : r.countOf .medium = medium.length
  lowCount : r.countOf .low = low.length
  -- The files with low coverage end the ranking.
  lowFiles : r.lowFiles = low

/- Along the ranking, tiers never improve. -/
structure FallsByTier
    (r : CoverageReport) : Prop where
  falls :
    r.files.Pairwise fun a b => a.tier.place ≤ b.tier.place
  runs : ∃ high medium low, r.Runs high medium low

/- What satisfies a test first is what satisfies it at all. -/
theorem filter_append_filter_not
    {α : Type}
    {p : α → Bool}
    {l : List α}
    (hFirst : l.Pairwise fun a b => p b = true → p a = true) :
    l = l.filter p ++ l.filter fun a => !p a := by
  induction l with
  | nil => rfl
  | cons a l ih =>
      rw [List.pairwise_cons] at hFirst
      by_cases hA : p a = true
      · simp only [List.filter_cons, hA, if_true, Bool.not_true,
          Bool.false_eq_true, if_false, List.cons_append]
        exact congrArg _ (ih hFirst.2)
      · have hNone : ∀ b ∈ a :: l, ¬ p b = true := by
          rw [List.forall_mem_cons]
          exact ⟨hA, fun b hMem hB => hA (hFirst.1 b hMem hB)⟩
        rw [List.filter_eq_nil_iff.mpr hNone,
          List.filter_eq_self.mpr (by simpa using hNone)]
        rfl

/- Tiers that never improve come in runs. -/
theorem fallsByTier_iff :
    r.FallsByTier ↔
      r.files.Pairwise fun a b =>
        a.tier.place ≤ b.tier.place := by
  refine ⟨fun h => h.falls, fun hFalls => ⟨hFalls, ?_⟩⟩
  have hPlace :
      ∀ tier : Tier,
        (tier.place ≤ Tier.high.place ↔ tier = .high) ∧
          (tier.place ≤ Tier.medium.place ↔ tier ≠ .low) := by
    intro tier
    cases tier <;> decide
  let others := r.files.filter fun f => !decide (f.tier = .high)
  have hHigh :
      r.files =
        (r.files.filter fun f => f.tier = .high) ++ others := by
    refine filter_append_filter_not (hFalls.imp ?_)
    intro a b hLE hB
    rw [decide_eq_true_iff] at hB ⊢
    rw [hB] at hLE
    exact (hPlace _).1.mp hLE
  have hMedium :
      others =
        (others.filter fun f => f.tier = .medium) ++
          others.filter fun f => !decide (f.tier = .medium) := by
    refine
      filter_append_filter_not ((hFalls.filter _).imp_of_mem ?_)
    intro a b hA _ hLE hB
    have hNotHigh := (List.mem_filter.mp hA).2
    rw [decide_eq_true_iff] at hB ⊢
    rw [hB] at hLE
    have hNotLow := (hPlace _).2.mp hLE
    cases hTier : a.tier with
    | high => simp [hTier] at hNotHigh
    | medium => rfl
    | low => exact absurd hTier hNotLow
  have hMediumOnly :
      (others.filter fun f => f.tier = .medium) =
        r.files.filter fun f => f.tier = .medium := by
    rw [List.filter_filter]
    congr 1
    funext f
    cases f.tier <;> rfl
  have hLowOnly :
      (others.filter fun f => !decide (f.tier = .medium)) =
        r.lowFiles := by
    unfold lowFiles
    rw [List.filter_filter]
    congr 1
    funext f
    cases f.tier <;> rfl
  rw [hMediumOnly, hLowOnly] at hMedium
  refine
    ⟨r.files.filter fun f => f.tier = .high,
      r.files.filter fun f => f.tier = .medium, r.lowFiles,
      { files := hHigh.trans (congrArg _ hMedium)
        allHigh := ?_
        allMedium := ?_
        allLow := ?_
        highCount := List.countP_eq_length_filter
        mediumCount := List.countP_eq_length_filter
        lowCount := List.countP_eq_length_filter
        lowFiles := rfl }⟩ <;>
    intro f hMem <;> simpa using (List.mem_filter.mp hMem).2

------------------------------------------------------------
-- Topmost Averages
------------------------------------------------------------

/- Whether a value is undefined and above all numbers. -/
def isTopmost : Percent → Bool
  | .undefined false => true
  | _ => false

theorem isTopmost_iff
    {p : Percent} :
    isTopmost p = true ↔ p = .undefined false := by
  cases p with
  | undefined negative => cases negative <;> simp [isTopmost]
  | number x => simp [isTopmost]

/- Nothing ranks as high as such a value but another one. -/
theorem isTopmost_of_rank_le
    {p q : Percent}
    (hQ : isTopmost q = true)
    (hRank : q.rank ≤ p.rank) :
    isTopmost p = true := by
  rw [isTopmost_iff] at hQ ⊢
  have hTop : q.rank = 2 ^ 63 := by
    rw [hQ]
    rfl
  cases p with
  | undefined negative =>
      cases negative with
      | false => rfl
      | true =>
          have hLow : Percent.rank (.undefined true) < 0 := by
            decide
          omega
  | number x =>
      have hBelow := Binary64.rank_lt x
      change q.rank ≤ Binary64.rank x at hRank
      omega

------------------------------------------------------------
-- Tiers of a Report
------------------------------------------------------------

theorem sound_of_mem_files
    [Percent.UndefinedSign]
    {start : Option Text}
    {lines : List Text}
    {f : FileCoverage}
    (hMem : f ∈ (ofLines start lines).files) :
    f.average.Sound := by
  rw [(mem_files_ofLines hMem).2.2]
  exact Percent.sound_mean _

theorem coverageOf_mem_files
    [Percent.UndefinedSign]
    {start : Option Text}
    {lines : List Text}
    {file : Text}
    (hFile : file ∈ (countedIn start lines).map (·.1)) :
    coverageOf (countedIn start lines) file ∈
      (ofLines start lines).files := by
  rw [files_ofLines]
  exact mem_rankedFiles.mpr ⟨hFile, rfl⟩

/- Files are ranked by their averages, the highest first. -/
theorem ranks_ofLines
    [Percent.UndefinedSign]
    (start : Option Text)
    (lines : List Text) :
    (ofLines start lines).files.Pairwise fun a b =>
      b.average.rank ≤ a.average.rank := by
  rw [files_ofLines]
  refine (rankedFiles_leads _).imp ?_
  rintro a b (hRank | ⟨hRank, -⟩) <;> omega

/- Files whose averages are not topmost are ranked by tier. -/
theorem pairwise_place
    [Percent.UndefinedSign]
    {start : Option Text}
    {lines : List Text}
    {files : List FileCoverage}
    (hFiles : files.Sublist (ofLines start lines).files)
    (hDefined : ∀ f ∈ files, f.average ≠ .undefined false) :
    files.Pairwise fun a b => a.tier.place ≤ b.tier.place := by
  refine ((ranks_ofLines start lines).sublist hFiles).imp_of_mem ?_
  intro a b hA hB hRank
  exact
    Tier.place_le_of_rank_le
      (sound_of_mem_files (hFiles.subset hA))
      (sound_of_mem_files (hFiles.subset hB)) (hDefined a hA)
      hRank

/-
  Infinities of both signs do not meet in the lines of a file,
  which are fewer than there are numbers to count them.
-/
structure NoClash
    [Percent.UndefinedSign]
    (start : Option Text)
    (lines : List Text) : Prop where
  few : lines.length < 2 ^ 64
  apart :
    ∀ file percents,
      List.Forall₂
          (fun line percent =>
            CoverLine.Counts start line file percent)
          (lines.filter (CoverLine.CountsFor start file))
          percents →
        ¬ Percent.Clash percents

/- The percentages of a file, one for each of its lines. -/
theorem exists_percents
    [Percent.UndefinedSign]
    {start : Option Text}
    {lines : List Text}
    {f : FileCoverage}
    (hMem : f ∈ (ofLines start lines).files) :
    ∃ percents,
      percents ≠ [] ∧
        List.Forall₂
          (fun line percent =>
            CoverLine.Counts start line f.file percent)
          (lines.filter (CoverLine.CountsFor start f.file))
          percents ∧
        f.average = Percent.mean percents := by
  rcases mem_files_ofLines hMem with ⟨hNonempty, -, hAverage⟩
  refine ⟨_, by simpa using hNonempty, ?_, hAverage⟩
  apply forall₂_countedIn
  intro line hLine
  simpa using (List.mem_filter.mp hLine).2

/- An average is topmost if a line is, or if infinities meet. -/
theorem average_ne_undefined
    [Percent.UndefinedSign]
    {start : Option Text}
    {lines : List Text}
    (hLines :
      ∀ line ∈ lines, ∀ file,
        ¬ CoverLine.Counts start line file (.undefined false))
    (hClash :
      Percent.UndefinedSign.negative = true ∨
        NoClash start lines)
    {f : FileCoverage}
    (hMem : f ∈ (ofLines start lines).files) :
    f.average ≠ .undefined false := by
  rcases exists_percents hMem with
    ⟨percents, hNonempty, hCounts, hAverage⟩
  have hFrom :
      ∀ p ∈ percents, ∃ line ∈ lines,
        CoverLine.Counts start line f.file p := by
    intro p hP
    rcases List.mem_iff_getElem.mp hP with ⟨i, hI, rfl⟩
    have hLength := hCounts.length_eq
    exact
      ⟨_, List.mem_of_mem_filter (List.getElem_mem (hLength ▸ hI)),
        hCounts.get (hLength ▸ hI) hI⟩
  rw [hAverage]
  intro hUndefined
  have hSound : ∀ p ∈ percents, p.Sound := by
    intro p hP
    rcases hFrom p hP with ⟨line, -, hLine⟩
    exact hLine.sound
  rcases Percent.mean_eq_undefined hSound hUndefined with
    hTopmost | ⟨hSign, hWhy⟩
  · rcases hFrom _ hTopmost with ⟨line, hLine, hCount⟩
    exact hLines line hLine f.file hCount
  · rcases hClash with hNegative | hApart
    · rw [hNegative] at hSign
      cases hSign
    · have hFew : percents.length < 2 ^ 64 := by
        rw [← hCounts.length_eq]
        exact (List.length_filter_le _ _).trans_lt hApart.few
      rcases hWhy with hNil | hMany | hMeet
      · exact hNonempty hNil
      · omega
      · exact hApart.apart f.file percents hCounts hMeet

/- Files whose averages are topmost come before the others. -/
theorem exists_topmost_first
    [Percent.UndefinedSign]
    (start : Option Text)
    (lines : List Text) :
    ∃ first rest,
      (ofLines start lines).files = first ++ rest ∧
        (∀ f ∈ first, f.average = .undefined false) ∧
        (∀ f ∈ rest, f.average ≠ .undefined false) := by
  refine
    ⟨_, _,
      filter_append_filter_not
        ((ranks_ofLines start lines).imp_of_mem
          (S := fun a b =>
            isTopmost b.average = true →
              isTopmost a.average = true) ?_),
      ?_, ?_⟩
  · intro a b _ _ hRank hB
    exact isTopmost_of_rank_le hB hRank
  · intro f hMem
    exact isTopmost_iff.mp (List.mem_filter.mp hMem).2
  · intro f hMem hUndefined
    have hNot := (List.mem_filter.mp hMem).2
    simp [isTopmost_iff.mpr hUndefined] at hNot

/- Such an average is in the low tier all the same. -/
theorem tier_of_topmost
    {files : List FileCoverage}
    (hTopmost : ∀ f ∈ files, f.average = .undefined false) :
    ∀ f ∈ files, f.tier = .low := by
  intro f hMem
  unfold FileCoverage.tier
  rw [hTopmost f hMem]
  rfl

/- Behind a file in the low tier no tier is better. -/
theorem pairwise_place_append_iff
    {first rest : List FileCoverage}
    (hFirst : ∀ f ∈ first, f.tier = .low)
    (hRest :
      rest.Pairwise fun a b => a.tier.place ≤ b.tier.place) :
    ((first ++ rest).Pairwise fun a b =>
        a.tier.place ≤ b.tier.place) ↔
      first = [] ∨ ∀ f ∈ rest, f.tier = .low := by
  rw [List.pairwise_append]
  constructor
  · rintro ⟨-, -, hAcross⟩
    rw [or_iff_not_imp_left]
    intro hSome f hMem
    rcases List.exists_mem_of_ne_nil _ hSome with ⟨a, hA⟩
    have hPlace := hAcross a hA f hMem
    rw [hFirst a hA] at hPlace
    exact Tier.eq_low_of_le hPlace
  · intro hCase
    refine ⟨?_, hRest, ?_⟩
    · refine List.pairwise_of_forall_mem_list ?_
      intro a hA b hB
      rw [hFirst a hA, hFirst b hB]
    · intro a hA b hB
      rcases hCase with rfl | hAll
      · cases hA
      · rw [hAll b hB]
        exact Tier.place_le_low _

/- One such file and one in a better tier are in the wrong order. -/
theorem not_fallsByTier_of_mem
    [Percent.UndefinedSign]
    {start : Option Text}
    {lines : List Text}
    {a b : FileCoverage}
    (hA : a ∈ (ofLines start lines).files)
    (hTopmost : a.average = .undefined false)
    (hB : b ∈ (ofLines start lines).files)
    (hTier : b.tier ≠ .low) :
    ¬ (ofLines start lines).FallsByTier := by
  rcases exists_topmost_first start lines with
    ⟨first, rest, hFiles, hFirst, hRest⟩
  rw [fallsByTier_iff]
  rw [hFiles] at hA hB ⊢
  have hLow := tier_of_topmost hFirst
  have hMemA : a ∈ first := by
    rcases List.mem_append.mp hA with hMem | hMem
    · exact hMem
    · exact absurd hTopmost (hRest a hMem)
  have hMemB : b ∈ rest := by
    rcases List.mem_append.mp hB with hMem | hMem
    · exact absurd (hLow b hMem) hTier
    · exact hMem
  intro hFalls
  have hRestFalls := (List.pairwise_append.mp hFalls).2.1
  rcases (pairwise_place_append_iff hLow hRestFalls).mp hFalls with
    rfl | hAll
  · cases hMemA
  · exact hTier (hAll b hMemB)

/-
  Files whose averages are undefined and rank above all
  numbers come first.  The others are ranked by tier.  So the
  whole report is ranked by tier if there are no such files,
  and otherwise only if all files are in the low tier.  There
  are none if no line reads as such a value and what is
  computed does not become one: where an undefined result is
  negative, or where infinities of both signs do not meet in
  the lines of a file.
-/
theorem ofText_fallsByTier_iff
    [Percent.UndefinedSign]
    (start : Option Text)
    (text : Text) :
    let r := ofText start text
    ∃ first rest,
      r.files = first ++ rest ∧
        (∀ f ∈ first, f.average = .undefined false) ∧
        (∀ f ∈ rest, f.average ≠ .undefined false) ∧
        FallsByTier { r with files := rest } ∧
        (r.FallsByTier ↔
          first = [] ∨ ∀ f ∈ rest, f.tier = .low) ∧
        ((∀ line ∈ text.lines, ∀ file,
            ¬ CoverLine.Counts start line file
              (.undefined false)) →
          (Percent.UndefinedSign.negative = true ∨
            NoClash start text.lines) →
          r.FallsByTier) := by
  intro r
  rcases exists_topmost_first start text.lines with
    ⟨first, rest, hFiles, hFirst, hRest⟩
  have hSplit : r.files = first ++ rest := hFiles
  have hLow := tier_of_topmost hFirst
  have hPart : rest.Sublist r.files := by
    rw [hSplit]
    exact List.sublist_append_right first rest
  have hFalls := pairwise_place hPart hRest
  refine
    ⟨first, rest, hSplit, hFirst, hRest,
      fallsByTier_iff.mpr hFalls, ?_, ?_⟩
  · rw [fallsByTier_iff, hSplit]
    exact pairwise_place_append_iff hLow hFalls
  · intro hLines hClash
    rw [fallsByTier_iff]
    exact
      pairwise_place (List.Sublist.refl _) fun f hMem =>
        average_ne_undefined hLines hClash hMem

/- Infinite and overflowing values, and one below all numbers. -/
def boundlessTable : Text :=
  "a: F -nan\nb: F 1e999\nc: F 69.9\nb: F -1\n".toList

theorem ofText_fallsByTier_iff_boundlessTable :
    (∀ line ∈ boundlessTable.lines, ∀ file,
        ¬ CoverLine.Counts none line file (.undefined false)) ∧
      (ofText none boundlessTable).FallsByTier := by
  have hRead :
      ∀ line ∈ boundlessTable.lines,
        ((CoverLine.read none line).function?.map fun item =>
          isTopmost item.2) ≠ some true := by
    decide +kernel
  have hLines :
      ∀ line ∈ boundlessTable.lines, ∀ file,
        ¬ CoverLine.Counts none line file (.undefined false) := by
    intro line hMem file hCounts
    have hFound := CoverLine.function?_read_eq_some_iff.mpr hCounts
    exact hRead line hMem (by rw [hFound]; rfl)
  rcases ofText_fallsByTier_iff none boundlessTable with
    ⟨first, rest, -, -, -, -, -, hFalls⟩
  exact ⟨hLines, hFalls hLines (.inl rfl)⟩

/- An undefined value, written without a sign, beside a number. -/
def undefinedTable : Text :=
  "x/a.go:1:\tF\tnan%\nx/b.go:1:\tF\t80.0%\n".toList

/-
  The file without an average ranks above the one in the high
  tier, and is in the low tier.
-/
theorem not_fallsByTier_undefinedTable :
    ¬ (ofText none undefinedTable).FallsByTier := by
  let counted := countedIn none undefinedTable.lines
  have hTopmost :
      isTopmost (coverageOf counted "a.go".toList).average =
        true := by
    decide +kernel
  have hTier :
      (coverageOf counted "b.go".toList).tier ≠ .low := by
    decide +kernel
  exact
    not_fallsByTier_of_mem
      (coverageOf_mem_files (by decide +kernel))
      (isTopmost_iff.mp hTopmost)
      (coverageOf_mem_files (by decide +kernel)) hTier

end CoverageReport

end Collate
