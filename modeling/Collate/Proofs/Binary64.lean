import Collate.Binary64.Basic
import Mathlib.Algebra.Group.Int.Defs
import Mathlib.Algebra.Group.Nat.Defs
import Mathlib.Logic.Basic

/-
  The order of numbers.  Two numbers that are defined compare
  as their ranks do, except that a zero is no less than a
  negative zero, which ranks below it.

  Key definitions include:
    * `Binary64.signOf`
    * `Binary64.View.unpacked`
    * `Binary64.Scaled`
    * `Binary64.placeOf`

  Main declarations:
    * `Binary64.unpack_eq_view`
    * `Binary64.view_cases`
    * `Binary64.Scaled.isLE_iff`
    * `Binary64.finite_le_finite`
    * `Binary64.le_iff_rank`
-/

------------------------------------------------------------
-- Unpacked Numbers
------------------------------------------------------------

namespace Collate

namespace Binary64

open Float.Model Float.Model.UnpackedFloat

/- The sign of a number. -/
def signOf
    (negative : Bool) : Sign :=
  if negative then .negative else .positive

/- What a number stands for, with zeros told apart. -/
def View.unpacked : View → UnpackedFloat
  | .undefined => .notANumber
  | .infinite negative => .infinity (signOf negative)
  | .finite negative significand exponent =>
      if hPositive : 0 < significand then
        .finite (signOf negative) significand exponent hPositive
      else .zero (signOf negative)

theorem toNat_unpackMantissa
    (b : BitVec 64) :
    (@unpackMantissa .binary64 b).toNat =
      b.toNat % Nat.pow 2 52 := by
  simp [unpackMantissa]

theorem toNat_unpackExponent
    (b : BitVec 64) :
    (@unpackExponent .binary64 b).toNat =
      b.toNat / Nat.pow 2 52 % Nat.pow 2 11 := by
  simp [unpackExponent, Nat.shiftRight_eq_div_pow]

theorem ofBitVec_unpackSign
    (b : BitVec 64) :
    Sign.ofBitVec (@unpackSign .binary64 b) =
      signOf (decide (Nat.pow 2 63 ≤ b.toNat)) := by
  have hWidth := b.isLt
  have hHalf : Nat.pow 2 63 = 9223372036854775808 := rfl
  have hSign :
      (@unpackSign .binary64 b).toNat =
        b.toNat / Nat.pow 2 63 := by
    delta unpackSign
    simp only [BitVec.toNat_cast, BitVec.extractLsb_toNat,
      Nat.shiftRight_eq_div_pow, hHalf]
    omega
  have hZero :
      @unpackSign .binary64 b = 0#1 ↔
        b.toNat < Nat.pow 2 63 := by
    rw [← BitVec.toNat_inj, hSign, hHalf]
    simp
  unfold Sign.ofBitVec signOf
  by_cases hLow : b.toNat < Nat.pow 2 63
  · rw [if_pos (hZero.mpr hLow), if_neg (by simpa using hLow)]
  · rw [if_neg (hZero.not.mpr hLow), if_pos (by simpa using hLow)]

/- The bit before the significand of a number is not stored. -/
theorem toNat_leading
    (b : BitVec 64) :
    (1#1 ++ @unpackMantissa .binary64 b).toNat =
      Nat.pow 2 52 + b.toNat % Nat.pow 2 52 := by
  rw [BitVec.toNat_append,
    ← Nat.shiftLeft_add_eq_or_of_lt (BitVec.isLt _),
    toNat_unpackMantissa]
  rfl

theorem finite_congr
    {s t : Sign}
    {a b : Nat}
    {e f : Int}
    {hA : 0 < a}
    {hB : 0 < b}
    (hSign : s = t)
    (hSignificand : a = b)
    (hExponent : e = f) :
    UnpackedFloat.finite s a e hA =
      .finite t b f hB := by
  subst hSign hSignificand hExponent
  rfl

/- A number stands for what it is computed with. -/
theorem unpack_eq_view
    (x : Float) :
    x.toModel.unpack = (view x).unpacked := by
  let b : BitVec 64 := x.toModel.toBits.toBitVec
  let field : Nat := x.toBits.toNat / Nat.pow 2 52 % Nat.pow 2 11
  let fraction : Nat := x.toBits.toNat % Nat.pow 2 52
  have hField : (@unpackExponent .binary64 b).toNat = field :=
    toNat_unpackExponent b
  have hFraction :
      (@unpackMantissa .binary64 b).toNat = fraction :=
    toNat_unpackMantissa b
  have hSign := ofBitVec_unpackSign b
  have hTop :
      @unpackExponent .binary64 b = -1#11 ↔ field = 2047 := by
    rw [← BitVec.toNat_inj, hField]
    rfl
  have hBottom :
      @unpackExponent .binary64 b = 0#11 ↔ field = 0 := by
    rw [← BitVec.toNat_inj, hField]
    rfl
  have hNone :
      @unpackMantissa .binary64 b = 0#52 ↔ fraction = 0 := by
    rw [← BitVec.toNat_inj, hFraction]
    rfl
  have hLeading : 0 < Nat.pow 2 52 := by decide
  delta Float.Model.unpack UnpackedFloat.unpack view
  change (if @unpackExponent .binary64 b = -1#11 then _ else _) = _
  by_cases hSpecial : field = 2047
  · rw [if_pos (hTop.mpr hSpecial)]
    change _ = (if field = 2047 then _ else _ : View).unpacked
    rw [if_pos hSpecial]
    by_cases hZero : fraction = 0
    · rw [if_pos (hNone.mpr hZero), if_pos hZero]
      exact congrArg _ hSign
    · rw [if_neg (hNone.not.mpr hZero), if_neg hZero]
      rfl
  rw [if_neg (hTop.not.mpr hSpecial)]
  change _ = (if field = 2047 then _ else _ : View).unpacked
  rw [if_neg hSpecial]
  by_cases hLow : field = 0
  · rw [if_pos (hBottom.mpr hLow), if_pos hLow]
    change _ = dite (0 < fraction) _ _
    by_cases hZero : fraction = 0
    · rw [dif_pos (hNone.mpr hZero), dif_neg (by omega)]
      exact congrArg _ hSign
    · rw [dif_neg (hNone.not.mpr hZero), dif_pos (by omega)]
      refine finite_congr hSign hFraction ?_
      change ((@unpackExponent .binary64 b).toNat : Int) - _ + 1 = _
      rw [hField, hLow]
      rfl
  · rw [if_neg (hBottom.not.mpr hLow), if_neg hLow]
    change _ = dite (0 < Nat.pow 2 52 + fraction) _ _
    rw [dif_pos (by omega)]
    refine finite_congr hSign (toNat_leading b) ?_
    change ((@unpackExponent .binary64 b).toNat : Int) - _ = _
    rw [hField]
    rfl

theorem unpacked_of_pos
    {m : Nat}
    (hPositive : 0 < m)
    (s : Bool)
    (e : Int) :
    (View.finite s m e).unpacked =
      .finite (signOf s) m e hPositive :=
  dif_pos hPositive

theorem le_iff_view
    {x y : Float} :
    x ≤ y ↔ (view x).unpacked.le (view y).unpacked = true := by
  rw [← unpack_eq_view, ← unpack_eq_view]
  change decide (x.toModel ≤ y.toModel) = true ↔ _
  rw [decide_eq_true_iff]
  rfl

------------------------------------------------------------
-- Magnitudes
------------------------------------------------------------

/-
  A magnitude, as a significand and an exponent.  Only at the
  least exponent may the significand have few digits, so that
  exponents decide before significands do.
-/
structure Scaled
    (magnitude significand : Nat)
    (exponent : Int) : Prop where
  value :
    (magnitude : Int) = (exponent + 1074) * 2 ^ 52 + significand
  least : -1074 ≤ exponent
  below : significand < 2 ^ 53
  full : exponent = -1074 ∨ 2 ^ 52 ≤ significand

/- What a number stands for, by its sign and its magnitude. -/
theorem view_cases
    (x : Float) :
    let magnitude := x.toBits.toNat % 2 ^ 63
    let negative := decide (2 ^ 63 ≤ x.toBits.toNat)
    (view x = .undefined ∧ infinityBits < magnitude) ∨
      (view x = .infinite negative ∧
        magnitude = infinityBits) ∨
      ∃ significand exponent,
        view x = .finite negative significand exponent ∧
          Scaled magnitude significand exponent ∧
          magnitude < infinityBits := by
  intro magnitude negative
  have hWidth := x.toBits.toNat_lt
  have hField : Nat.pow 2 52 = 4503599627370496 := rfl
  have hFields : Nat.pow 2 11 = 2048 := rfl
  unfold view infinityBits
  simp only [hField, hFields]
  by_cases hTop :
      x.toBits.toNat / 4503599627370496 % 2048 = 2047
  · rw [if_pos hTop]
    by_cases hNone : x.toBits.toNat % 4503599627370496 = 0
    · rw [if_pos hNone]
      exact .inr (.inl ⟨rfl, by omega⟩)
    · rw [if_neg hNone]
      exact .inl ⟨rfl, by omega⟩
  rw [if_neg hTop]
  by_cases hBottom :
      x.toBits.toNat / 4503599627370496 % 2048 = 0
  · rw [if_pos hBottom]
    exact
      .inr (.inr ⟨_, _, rfl,
        ⟨by omega, by omega, by omega, by omega⟩, by omega⟩)
  · rw [if_neg hBottom]
    exact
      .inr (.inr ⟨_, _, rfl,
        ⟨by omega, by omega, by omega, by omega⟩, by omega⟩)

/- Only what is beyond infinity is undefined. -/
theorem view_eq_undefined_iff
    {x : Float} :
    view x = .undefined ↔
      infinityBits < x.toBits.toNat % 2 ^ 63 := by
  rcases view_cases x with
    ⟨hView, hBeyond⟩ | ⟨hView, hSame⟩ | ⟨m, e, hView, -, hBelow⟩
  · exact iff_of_true hView hBeyond
  · rw [hView]
    exact iff_of_false (by simp) (by omega)
  · rw [hView]
    exact iff_of_false (by simp) (by omega)

namespace Scaled

variable {a b m n : Nat}
variable {e f : Int}

/- Exponents and then significands compare as magnitudes do. -/
theorem isLE_iff
    (hA : Scaled a m e)
    (hB : Scaled b n f) :
    ((compare e f).then (compare m n)).isLE = true ↔ a ≤ b := by
  rcases hA with ⟨hValueA, hLeastA, hBelowA, hFullA⟩
  rcases hB with ⟨hValueB, hLeastB, hBelowB, hFullB⟩
  rcases Int.lt_trichotomy e f with hLess | hSame | hLess
  · have hCompare : compare e f = .lt := Int.compare_eq_lt.mpr hLess
    simp only [hCompare, Ordering.then, Ordering.isLE, true_iff]
    omega
  · have hCompare : compare e f = .eq := Int.compare_eq_eq.mpr hSame
    simp only [hCompare, Ordering.then, Nat.isLE_compare]
    omega
  · have hCompare : compare e f = .gt := Int.compare_eq_gt.mpr hLess
    simp only [hCompare, Ordering.then, Ordering.isLE,
      Bool.false_eq_true, false_iff]
    omega

theorem isGE_iff
    (hA : Scaled a m e)
    (hB : Scaled b n f) :
    ((compare e f).then (compare m n)).isGE = true ↔ b ≤ a := by
  rw [← hB.isLE_iff hA, ← Ordering.isLE_swap, Ordering.swap_then,
    ← Std.OrientedCmp.eq_swap, ← Std.OrientedCmp.eq_swap]

theorem eq_zero_iff
    (hA : Scaled a m e) :
    a = 0 ↔ ¬ 0 < m := by
  rcases hA with ⟨hValue, hLeast, hBelow, hFull⟩
  omega

end Scaled

------------------------------------------------------------
-- The Order by Rank
------------------------------------------------------------

/- The place of a magnitude in the total order. -/
def placeOf
    (negative : Bool)
    (magnitude : Nat) : Int :=
  if negative then -(magnitude : Int) - 1 else magnitude

theorem rank_eq_placeOf
    (x : Float) :
    rank x =
      placeOf (decide (2 ^ 63 ≤ x.toBits.toNat))
        (x.toBits.toNat % 2 ^ 63) := by
  have hHalf : Nat.pow 2 63 = 9223372036854775808 := rfl
  have hWidth := x.toBits.toNat_lt
  unfold rank placeOf
  simp only [hHalf, decide_eq_true_iff]
  split <;> split <;> omega

/- No number ranks beyond the bits that it has. -/
theorem rank_lt
    (x : Float) :
    rank x < 2 ^ 63 := by
  have hHalf : Nat.pow 2 63 = 9223372036854775808 := rfl
  unfold rank
  simp only [hHalf]
  split <;> omega

section Comparison

variable {m n : Nat}
variable (s t : Bool)
variable (e f : Int)

/- Infinities are beyond all other numbers. -/
theorem infinite_le_finite :
    (View.infinite s).unpacked.le (View.finite t n f).unpacked =
      s := by
  rcases Nat.eq_zero_or_pos n with rfl | hN
  · cases s <;> cases t <;> rfl
  · rw [unpacked_of_pos hN]
    cases s <;> cases t <;> rfl

theorem finite_le_infinite :
    (View.finite s m e).unpacked.le (View.infinite t).unpacked =
      !t := by
  rcases Nat.eq_zero_or_pos m with rfl | hM
  · cases s <;> cases t <;> rfl
  · rw [unpacked_of_pos hM]
    cases s <;> cases t <;> rfl

/- Zeros are equal, and between negative and positive numbers. -/
theorem zero_le_zero :
    (View.finite s 0 e).unpacked.le (View.finite t 0 f).unpacked =
      true :=
  rfl

theorem zero_le_finite
    (hN : 0 < n) :
    (View.finite s 0 e).unpacked.le (View.finite t n f).unpacked =
      !t := by
  rw [unpacked_of_pos hN]
  cases t <;> rfl

theorem finite_le_zero
    (hM : 0 < m) :
    (View.finite s m e).unpacked.le (View.finite t 0 f).unpacked =
      s := by
  rw [unpacked_of_pos hM]
  cases s <;> rfl

/- Other numbers compare by sign, then exponent, then digits. -/
theorem finite_le_finite
    (hM : 0 < m)
    (hN : 0 < n) :
    (View.finite s m e).unpacked.le (View.finite t n f).unpacked =
      match s, t with
      | true, true => ((compare e f).then (compare m n)).isGE
      | true, false => true
      | false, true => false
      | false, false =>
          ((compare e f).then (compare m n)).isLE := by
  rw [unpacked_of_pos hM, unpacked_of_pos hN]
  cases s <;> cases t
  · rfl
  · rfl
  · rfl
  · exact Ordering.isLE_swap

end Comparison

/-
  Numbers compare as their ranks do, but a zero is also no
  less than a negative zero.
-/
theorem le_iff_rank
    {x y : Float}
    (hX : view x ≠ .undefined)
    (hY : view y ≠ .undefined) :
    x ≤ y ↔
      rank x ≤ rank y ∨ (rank x = 0 ∧ rank y = -1) := by
  have hCasesX := (view_cases x).resolve_left (hX ·.1)
  have hCasesY := (view_cases y).resolve_left (hY ·.1)
  rw [le_iff_view, rank_eq_placeOf, rank_eq_placeOf]
  generalize x.toBits.toNat % 2 ^ 63 = a at *
  generalize y.toBits.toNat % 2 ^ 63 = b at *
  generalize decide (2 ^ 63 ≤ x.toBits.toNat) = s at *
  generalize decide (2 ^ 63 ≤ y.toBits.toNat) = t at *
  -- Signs decide first, then infinities, then magnitudes.
  rcases hCasesX with
    ⟨hViewX, rfl⟩ | ⟨m, e, hViewX, hA, hFiniteA⟩ <;>
    rcases hCasesY with
      ⟨hViewY, rfl⟩ | ⟨n, f, hViewY, hB, hFiniteB⟩ <;>
    rw [hViewX, hViewY]
  · cases s <;> cases t <;> decide
  · rw [infinite_le_finite]
    cases s <;> cases t <;> simp [placeOf] <;> omega
  · rw [finite_le_infinite]
    cases s <;> cases t <;> simp [placeOf] <;> omega
  · have hZeroA := hA.eq_zero_iff
    have hZeroB := hB.eq_zero_iff
    rcases Nat.eq_zero_or_pos m with rfl | hM <;>
      rcases Nat.eq_zero_or_pos n with rfl | hN
    · rw [zero_le_zero]
      cases s <;> cases t <;> simp [placeOf] <;> omega
    · rw [zero_le_finite s t e f hN]
      cases s <;> cases t <;> simp [placeOf] <;> omega
    · rw [finite_le_zero s t e f hM]
      cases s <;> cases t <;> simp [placeOf] <;> omega
    · rw [finite_le_finite s t e f hM hN]
      cases s <;> cases t <;>
        simp [placeOf, hA.isLE_iff hB, hA.isGE_iff hB] <;> omega

end Binary64

end Collate
