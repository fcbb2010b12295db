import Collate.Proofs.Arithmetic
import Collate.Proofs.Coverage.Lines
import Collate.Proofs.Coverage.Ranking

/-
  Means that are no numbers.  A mean of values that are read is
  undefined only if one of them is, or if infinities of both
  signs meet in their sum.

  Key definitions include:
    * `Percent.Clash`

  Main declarations:
    * `Percent.sound_of_number?`
    * `Percent.add_eq_undefined`
    * `Percent.sum_eq_undefined`
    * `Percent.mean_eq_undefined`
-/

------------------------------------------------------------
-- Values that are Read
------------------------------------------------------------

namespace Collate

namespace Percent

theorem sound_of_decimal?
    {negative : Bool}
    {t : Text}
    {p : Percent}
    (hRead : decimal? negative t = some p) :
    p.Sound := by
  unfold decimal? at hRead
  dsimp only at hRead
  split_ifs at hRead
  rcases Option.map_eq_some_iff.mp hRead with ⟨power, -, rfl⟩
  exact
    Binary64.view_ofBits_ne_undefined negative
      (Binary64.bitsOfDecimal_le _ _)

/- What is read as a number is one. -/
theorem sound_of_number?
    {t : Text}
    {p : Percent}
    (hRead : number? t = some p) :
    p.Sound := by
  unfold number? at hRead
  dsimp only at hRead
  split_ifs at hRead
  · cases hRead
    exact Binary64.view_ofBits_ne_undefined _ le_rfl
  · cases hRead
    trivial
  · exact sound_of_decimal? hRead

end Percent

/- So is every percentage that counts. -/
theorem CoverLine.Counts.sound
    {start : Option Text}
    {line file : Text}
    {percent : Percent}
    (hCounts : Counts start line file percent) :
    percent.Sound := by
  rcases hCounts.tells with
    ⟨first, between, last, -, -, -, hWrites⟩
  rcases hWrites with ⟨number, signs, -, -, -, hNumber⟩
  exact Percent.sound_of_number? hNumber

------------------------------------------------------------
-- Sums
------------------------------------------------------------

namespace Percent

variable [UndefinedSign]

/-
  Infinities of both signs meet in a sum: a value is infinite,
  and the sum of the values before it is so with the other
  sign, as it also is when finite values overflow.
-/
def Clash
    (values : List Percent) : Prop :=
  ∃ before x y after s,
    values = before ++ .number y :: after ∧
      before.foldl add (.number (-0.0)) = .number x ∧
      Binary64.view x = .infinite s ∧
      Binary64.view y = .infinite (!s)

/- What clashes goes on to do so. -/
theorem Clash.append
    {values : List Percent}
    (hClash : Clash values)
    (others : List Percent) :
    Clash (values ++ others) := by
  rcases hClash with ⟨before, x, y, after, s, rfl, hClash⟩
  exact
    ⟨before, x, y, after ++ others, s, by simp, hClash⟩

theorem ofResult_eq_undefined_iff
    {x : Float}
    {negative : Bool} :
    ofResult x = .undefined negative ↔
      Binary64.view x = .undefined ∧
        negative = UndefinedSign.negative := by
  unfold ofResult
  cases hView : Binary64.view x with
  | undefined => simp [eq_comm]
  | infinite s => simp
  | finite s m e => simp

theorem sound_add
    {p q : Percent}
    (hP : p.Sound)
    (hQ : q.Sound) :
    (p.add q).Sound := by
  cases p with
  | undefined negative => exact hP
  | number x =>
      cases q with
      | undefined negative => exact hQ
      | number y => exact sound_ofResult _

/- A sum is undefined if a value is, or if infinities meet. -/
theorem add_eq_undefined
    {p q : Percent}
    (hP : p.Sound)
    (hQ : q.Sound)
    {negative : Bool}
    (hAdd : p.add q = .undefined negative) :
    p = .undefined negative ∨ q = .undefined negative ∨
      (negative = UndefinedSign.negative ∧
        ∃ x y s, p = .number x ∧ q = .number y ∧
          Binary64.view x = .infinite s ∧
          Binary64.view y = .infinite (!s)) := by
  cases p with
  | undefined found => exact .inl hAdd
  | number x =>
      cases q with
      | undefined found => exact .inr (.inl hAdd)
      | number y =>
          rcases ofResult_eq_undefined_iff.mp hAdd with
            ⟨hView, hSign⟩
          rcases (Binary64.view_add_eq_undefined_iff hP hQ).mp
              hView with
            ⟨s, hX, hY⟩
          exact
            .inr (.inr ⟨hSign, x, y, s, rfl, rfl, hX, hY⟩)

theorem sound_sum
    {values : List Percent}
    (hValues : ∀ p ∈ values, p.Sound) :
    (values.foldl add (.number (-0.0))).Sound := by
  induction values using List.reverseRecOn with
  | nil =>
      have hZero : Binary64.view (-0.0) ≠ .undefined := by
        decide +kernel
      exact hZero
  | append_singleton values p ih =>
      rw [List.foldl_append]
      exact
        sound_add (ih fun q hMem => hValues q (by simp [hMem]))
          (hValues p (by simp))

/- The sum of values, by adding one value after the other. -/
theorem sum_eq_undefined
    {values : List Percent}
    (hValues : ∀ p ∈ values, p.Sound)
    {negative : Bool}
    (hSum :
      values.foldl add (.number (-0.0)) = .undefined negative) :
    .undefined negative ∈ values ∨
      (negative = UndefinedSign.negative ∧ Clash values) := by
  induction values using List.reverseRecOn with
  | nil => cases hSum
  | append_singleton values p ih =>
      have hBefore : ∀ q ∈ values, q.Sound :=
        fun q hMem => hValues q (by simp [hMem])
      rw [List.foldl_append] at hSum
      rcases add_eq_undefined (sound_sum hBefore)
          (hValues p (by simp)) hSum with
        hFound | hFound | ⟨hSign, x, y, s, hX, rfl, hView⟩
      · rcases ih hBefore hFound with hMem | ⟨hSign, hClash⟩
        · exact .inl (by simp [hMem])
        · exact .inr ⟨hSign, hClash.append [p]⟩
      · exact .inl (by simp [hFound])
      · exact
          .inr ⟨hSign, values, x, y, [], s, rfl, hX, hView⟩

/-
  A mean is undefined if a value is, or if infinities meet.
  Nothing else comes of dividing by a count.
-/
theorem mean_eq_undefined
    {values : List Percent}
    (hValues : ∀ p ∈ values, p.Sound)
    {negative : Bool}
    (hMean : mean values = .undefined negative) :
    .undefined negative ∈ values ∨
      (negative = UndefinedSign.negative ∧
        (values = [] ∨ 2 ^ 64 ≤ values.length ∨
          Clash values)) := by
  unfold mean at hMean
  have hSound := sound_sum hValues
  cases hSum : values.foldl add (.number (-0.0)) with
  | undefined found =>
      rw [hSum] at hMean
      have hFound := hSum.trans hMean
      rcases sum_eq_undefined hValues hFound with
        hMem | ⟨hSign, hClash⟩
      · exact .inl hMem
      · exact .inr ⟨hSign, .inr (.inr hClash)⟩
  | number x =>
      rw [hSum] at hMean hSound
      rcases ofResult_eq_undefined_iff.mp hMean with
        ⟨hView, hSign⟩
      refine .inr ⟨hSign, ?_⟩
      by_contra hNot
      simp only [not_or, not_le] at hNot
      rcases hNot with ⟨hNonempty, hBound, -⟩
      rcases Binary64.exists_view_ofDecimal
          (List.length_pos_iff.mpr hNonempty) hBound with
        ⟨s, m, e, hM, hCount⟩
      exact
        Binary64.view_div_ne_undefined hSound hM hCount hView

end Percent

end Collate
