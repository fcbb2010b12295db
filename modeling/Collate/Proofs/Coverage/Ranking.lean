import Collate.Coverage.Report
import Collate.Proofs.Binary64
import Collate.Proofs.Text.Utf8
import Mathlib.Algebra.BigOperators.Group.List.Lemmas
import Mathlib.Algebra.GroupWithZero.Nat
import Mathlib.Data.List.Dedup

/-
  The ranking of files.  Each file of the counted functions is
  ranked once, and the order of two files is never open: it is
  the total order of their averages, the highest first, and
  then that of their names.  So a ranking is known from the
  functions of each file alone.

  Key definitions include:
    * `Binary64.Below`
    * `Percent.bits`
    * `FileCoverage.Leads`
    * `FileCoverage.Above`

  Main declarations:
    * `Percent.rank_lt_iff`
    * `CoverageReport.mem_rankedFiles`
    * `CoverageReport.rankedFiles_leads`
    * `CoverageReport.sum_rankedFiles`
    * `CoverageReport.rankedFiles_congr`
-/

------------------------------------------------------------
-- The Total Order of Averages
------------------------------------------------------------

namespace Collate

namespace Binary64

/-
  The total order of numbers by their bits.  The first bit is
  the sign and the others are the magnitude, which descends
  among negative numbers.
-/
def Below
    (a b : Nat) : Prop :=
  (2 ^ 63 ≤ a ∧ b < 2 ^ 63) ∨
    (a < b ∧ b < 2 ^ 63) ∨
    (b < a ∧ 2 ^ 63 ≤ b)

end Binary64

namespace Percent

/- The bits of a value.  One that is no number is quiet. -/
def bits : Percent → Nat
  | .number x => x.toBits.toNat
  | .undefined false => 0x7FF8000000000000
  | .undefined true => 0xFFF8000000000000

/- A value that counts as a number is one. -/
def Sound : Percent → Prop
  | .number x => Binary64.view x ≠ .undefined
  | .undefined _ => True

theorem sound_ofResult
    [UndefinedSign]
    (x : Float) :
    (ofResult x).Sound := by
  unfold ofResult
  split
  · trivial
  · rename_i hView
    exact hView

/- A mean is never a number that is none. -/
theorem sound_mean
    [UndefinedSign]
    (values : List Percent) :
    (mean values).Sound := by
  unfold mean
  cases values.foldl add (.number (-0.0)) with
  | undefined negative => trivial
  | number x => exact sound_ofResult _

/- Where a value stands, by its sign and its magnitude. -/
theorem rank_cases
    {p : Percent}
    (hSound : p.Sound) :
    (p.bits < 2 ^ 63 ∧ 0 ≤ p.rank ∧
        (p.rank = p.bits ∧ p.bits ≤ 0x7FF0000000000000 ∨
          p.rank = 2 ^ 63 ∧ p.bits = 0x7FF8000000000000)) ∨
      (2 ^ 63 ≤ p.bits ∧ p.rank < 0 ∧
        (p.rank = 2 ^ 63 - 1 - (p.bits : Int) ∧
            p.bits ≤ 0xFFF0000000000000 ∨
          p.rank = -2 ^ 63 - 1 ∧
            p.bits = 0xFFF8000000000000)) := by
  have hHalf : Nat.pow 2 63 = 9223372036854775808 := rfl
  cases p with
  | undefined negative =>
      cases negative <;> simp [bits, rank]
  | number x =>
      have hWidth := x.toBits.toNat_lt
      have hMagnitude := Binary64.view_eq_undefined_iff.not.mp hSound
      unfold Binary64.infinityBits at hMagnitude
      simp only [bits, rank, Binary64.rank, hHalf]
      split <;> omega

/- The rank of a value is its place in the total order. -/
theorem rank_lt_iff
    {p q : Percent}
    (hP : p.Sound)
    (hQ : q.Sound) :
    p.rank < q.rank ↔ Binary64.Below p.bits q.bits := by
  unfold Binary64.Below
  rcases rank_cases hP with hP | hP <;>
    rcases rank_cases hQ with hQ | hQ <;> omega

theorem rank_eq_iff
    {p q : Percent}
    (hP : p.Sound)
    (hQ : q.Sound) :
    p.rank = q.rank ↔ p.bits = q.bits := by
  rcases rank_cases hP with hP | hP <;>
    rcases rank_cases hQ with hQ | hQ <;> omega

end Percent

------------------------------------------------------------
-- The Order of Files
------------------------------------------------------------

namespace FileCoverage

/- A file comes before another, by ranks and by names. -/
def Leads
    (a b : FileCoverage) : Prop :=
  b.average.rank < a.average.rank ∨
    (a.average.rank = b.average.rank ∧
      compare a.file b.file = .lt)

/-
  A file stands above another: its average is greater in the
  total order, or the averages are the same and the octets of
  its name are less.
-/
def Above
    (a b : FileCoverage) : Prop :=
  Binary64.Below b.average.bits a.average.bits ∨
    (a.average.bits = b.average.bits ∧
      Utf8.encode a.file < Utf8.encode b.file)

theorem Leads.above
    {a b : FileCoverage}
    (hA : a.average.Sound)
    (hB : b.average.Sound)
    (hLeads : a.Leads b) :
    a.Above b := by
  rcases hLeads with hRank | ⟨hRank, hName⟩
  · exact .inl ((Percent.rank_lt_iff hB hA).mp hRank)
  · exact
      .inr
        ⟨(Percent.rank_eq_iff hA hB).mp hRank,
          Utf8.encode_lt_of_compare hName⟩

/- Two files do not come before each other. -/
theorem Leads.asymm
    {a b : FileCoverage}
    (hLeads : a.Leads b) :
    ¬ b.Leads a := by
  rintro (hRank | ⟨hRank, hName⟩)
  · rcases hLeads with hOther | ⟨hOther, -⟩ <;> omega
  · rcases hLeads with hOther | ⟨-, hOther⟩
    · omega
    · exact Std.OrientedCmp.not_lt_of_lt hName hOther

end FileCoverage

namespace CoverageReport

theorem ranksBefore_iff
    {a b : FileCoverage} :
    ranksBefore a b = true ↔
      b.average.rank < a.average.rank ∨
        (a.average.rank = b.average.rank ∧
          (compare a.file b.file).isLE = true) := by
  have hName :
      Text.before a.file b.file =
        (compare a.file b.file).isLE := by
    unfold Text.before
    cases compare a.file b.file <;> rfl
  simp [ranksBefore, hName]

theorem ranksBefore_trans
    (a b c : FileCoverage)
    (hAB : ranksBefore a b = true)
    (hBC : ranksBefore b c = true) :
    ranksBefore a c = true := by
  rw [ranksBefore_iff] at *
  rcases hAB with hAB | ⟨hAB, hName⟩
  · rcases hBC with hBC | ⟨hBC, -⟩ <;> exact .inl (by omega)
  · rcases hBC with hBC | ⟨hBC, hOther⟩
    · exact .inl (by omega)
    · exact
        .inr
          ⟨hAB.trans hBC, Std.TransCmp.isLE_trans hName hOther⟩

theorem ranksBefore_total
    (a b : FileCoverage) :
    (ranksBefore a b || ranksBefore b a) = true := by
  rw [Bool.or_eq_true, ranksBefore_iff, ranksBefore_iff]
  rcases Int.lt_trichotomy a.average.rank b.average.rank with
    hLess | hSame | hLess
  · exact .inr (.inl hLess)
  · -- Names decide, and of two names one comes first.
    cases hName : compare a.file b.file with
    | lt => exact .inl (.inr ⟨hSame, rfl⟩)
    | eq => exact .inl (.inr ⟨hSame, rfl⟩)
    | gt =>
        have hOther : compare b.file a.file = .lt :=
          Std.OrientedCmp.lt_of_gt hName
        exact .inr (.inr ⟨hSame.symm, by rw [hOther]; rfl⟩)
  · exact .inl (.inl hLess)

/- Files with different names are never level. -/
theorem leads_of_ranksBefore
    {a b : FileCoverage}
    (hName : a.file ≠ b.file)
    (hBefore : ranksBefore a b = true) :
    a.Leads b := by
  rcases ranksBefore_iff.mp hBefore with hRank | ⟨hRank, hLE⟩
  · exact .inl hRank
  · refine .inr ⟨hRank, ?_⟩
    cases hCompare : compare a.file b.file with
    | lt => rfl
    | eq =>
        exact absurd (Std.LawfulEqCmp.compare_eq_iff_eq.mp hCompare)
          hName
    | gt =>
        rw [hCompare] at hLE
        cases hLE

------------------------------------------------------------
-- Ranked Files
------------------------------------------------------------

/- Without repetitions every element is left once. -/
theorem nodup_eraseDups
    (names : List Text) :
    names.eraseDups.Nodup := by
  induction hLength : names.length using Nat.strong_induction_on
    generalizing names with
  | _ n ih =>
      cases names with
      | nil => simp
      | cons name rest =>
          rw [List.eraseDups_cons, List.nodup_cons]
          constructor
          · simp [List.mem_eraseDups]
          · have hShorter :=
              List.length_filter_le (fun other => !other == name)
                rest
            rw [List.length_cons] at hLength
            exact ih _ (by omega) _ rfl

variable [Percent.UndefinedSign]
variable {counted other : List (Text × Percent)}

theorem perm_rankedFiles
    (counted : List (Text × Percent)) :
    (rankedFiles counted).Perm
      ((counted.map (·.1)).eraseDups.map
        (coverageOf counted)) :=
  List.mergeSort_perm _ _

theorem map_file_coverageOf
    (names : List Text) :
    (names.map (coverageOf counted)).map (·.file) = names := by
  rw [List.map_map]
  exact List.map_id names

/- The files of counted functions, as they are ranked. -/
theorem mem_rankedFiles
    {f : FileCoverage} :
    f ∈ rankedFiles counted ↔
      f.file ∈ counted.map (·.1) ∧
        f = coverageOf counted f.file := by
  rw [(perm_rankedFiles counted).mem_iff]
  constructor
  · intro hMem
    rcases List.mem_map.mp hMem with ⟨name, hName, rfl⟩
    exact ⟨List.mem_eraseDups.mp hName, rfl⟩
  · rintro ⟨hName, hFile⟩
    rw [hFile]
    exact List.mem_map_of_mem (List.mem_eraseDups.mpr hName)

/- No file is ranked twice. -/
theorem nodup_rankedFiles
    (counted : List (Text × Percent)) :
    ((rankedFiles counted).map (·.file)).Nodup := by
  have hPerm := (perm_rankedFiles counted).map (·.file)
  rw [hPerm.nodup_iff, map_file_coverageOf]
  exact nodup_eraseDups _

/- Each file comes before those that are ranked behind it. -/
theorem rankedFiles_leads
    (counted : List (Text × Percent)) :
    (rankedFiles counted).Pairwise FileCoverage.Leads := by
  have hBefore :
      (rankedFiles counted).Pairwise
        fun a b => ranksBefore a b = true :=
    List.pairwise_mergeSort ranksBefore_trans ranksBefore_total _
  have hNames := nodup_rankedFiles counted
  rw [List.Nodup, List.pairwise_map] at hNames
  exact
    (hBefore.and hNames).imp fun h =>
      leads_of_ranksBefore h.2 h.1

/- A file has as many functions as its name was counted. -/
theorem functions_coverageOf
    (file : Text) :
    (coverageOf counted file).functions =
      (counted.map (·.1)).countP fun name => name = file := by
  rw [List.countP_map, List.countP_eq_length_filter]
  simp only [coverageOf, List.length_map]
  rfl

/- Each function is counted for one file. -/
theorem sum_rankedFiles
    (counted : List (Text × Percent)) :
    ((rankedFiles counted).map (·.functions)).sum =
      counted.length := by
  have hNames :
      (counted.map (·.1)).eraseDups.Perm
        (counted.map (·.1)).dedup := by
    rw [List.perm_ext_iff_of_nodup (nodup_eraseDups _)
      (List.nodup_dedup _)]
    simp [List.mem_eraseDups]
  calc
    ((rankedFiles counted).map (·.functions)).sum =
        (((counted.map (·.1)).eraseDups.map
          (coverageOf counted)).map (·.functions)).sum :=
      ((perm_rankedFiles counted).map _).sum_eq
    _ = ((counted.map (·.1)).eraseDups.map fun file =>
          (counted.map (·.1)).countP fun name => name = file).sum := by
      rw [List.map_map]
      congr 1
      exact List.map_congr_left fun file _ =>
        functions_coverageOf file
    _ = ((counted.map (·.1)).dedup.map fun file =>
          (counted.map (·.1)).countP fun name => name = file).sum :=
      (hNames.map _).sum_eq
    _ = (counted.map (·.1)).length :=
      List.sum_map_count_dedup_eq_length _
    _ = counted.length := List.length_map _

/-
  A ranking is known from the functions of each file in
  their order, however those of different files are mixed.
-/
theorem rankedFiles_congr
    (hFiles :
      ∀ file,
        (counted.filter fun item => item.1 = file) =
          other.filter fun item => item.1 = file) :
    rankedFiles counted = rankedFiles other := by
  have hNames :
      ∀ file,
        file ∈ counted.map (·.1) ↔ file ∈ other.map (·.1) := by
    have hMem :
        ∀ (items : List (Text × Percent)) (file : Text),
          file ∈ items.map (·.1) ↔
            (items.filter fun item => item.1 = file) ≠ [] := by
      intro items file
      simp [List.filter_eq_nil_iff]
    intro file
    rw [hMem, hMem, hFiles]
  have hCoverage : coverageOf counted = coverageOf other := by
    funext file
    unfold coverageOf
    rw [hFiles]
  have hPerm :
      (rankedFiles counted).Perm (rankedFiles other) := by
    have hDistinct :
        (counted.map (·.1)).eraseDups.Perm
          (other.map (·.1)).eraseDups := by
      rw [List.perm_ext_iff_of_nodup (nodup_eraseDups _)
        (nodup_eraseDups _)]
      intro file
      rw [List.mem_eraseDups, List.mem_eraseDups, hNames]
    refine (perm_rankedFiles counted).trans ?_
    rw [hCoverage]
    exact (hDistinct.map _).trans (perm_rankedFiles other).symm
  refine
    hPerm.eq_of_pairwise ?_ (rankedFiles_leads counted)
      (rankedFiles_leads other)
  intro a b _ _ hLeads hBack
  exact absurd hBack hLeads.asymm

end CoverageReport

end Collate
