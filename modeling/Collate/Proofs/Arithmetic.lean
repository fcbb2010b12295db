import Collate.Proofs.Binary64
import Mathlib

/-
  Results of arithmetic that are no numbers.  A sum is no
  number only if infinities of both signs are added, and what
  is divided by a finite number other than zero is one.

  Main declarations:
    * `Binary64.view_pack_eq_undefined_iff`
    * `Binary64.view_add_eq_undefined_iff`
    * `Binary64.view_div_ne_undefined`
    * `Binary64.toNat_toBits_ofBits`
-/

------------------------------------------------------------
-- Packed Numbers
------------------------------------------------------------

namespace Collate

namespace Binary64

open Float.Model Float.Model.UnpackedFloat

theorem unpacked_eq_notANumber_iff
    {v : View} :
    v.unpacked = .notANumber ↔ v = .undefined := by
  cases v with
  | undefined => simp [View.unpacked]
  | infinite s => simp [View.unpacked]
  | finite s m e =>
      rcases Nat.eq_zero_or_pos m with rfl | hM
      · simp [View.unpacked]
      · simp [unpacked_of_pos hM]

theorem unpacked_eq_infinity_iff
    {v : View}
    {s : Bool} :
    v.unpacked = .infinity (signOf s) ↔ v = .infinite s := by
  cases v with
  | undefined => simp [View.unpacked]
  | infinite t =>
      cases s <;> cases t <;> simp [View.unpacked, signOf]
  | finite t m e =>
      rcases Nat.eq_zero_or_pos m with rfl | hM
      · simp [View.unpacked]
      · simp [unpacked_of_pos hM]

/- The bits of an undefined number are those of no other. -/
theorem pack_eq_packedNaN_iff
    {u : UnpackedFloat} :
    u.pack .binary64 = packedNaN .binary64 ↔
      u = .notANumber := by
  constructor
  · intro hPack
    have hExponent :=
      congrArg (@unpackExponent .binary64) hPack
    have hMantissa :=
      congrArg (@unpackMantissa .binary64) hPack
    unfold packedNaN at hExponent hMantissa
    rw [unpackExponent_packComponents] at hExponent
    rw [unpackMantissa_packComponents] at hMantissa
    revert hExponent hMantissa
    -- Infinities have no fraction, and of other numbers the
    -- field of the exponent is not all ones.
    fun_cases UnpackedFloat.pack Format.binary64 u with
    | case1 => simp
    | case2 s => simp [packedInfinity]
    | case3 s => simp [packedZero]
    | case4 => simp [packedInfinity]
    | case5 s m e hM digits field hField hDigits =>
        rw [unpackExponent_packComponents]
        intro hOnes
        have hTop : field % 2048 = 2047 :=
          congrArg BitVec.toNat hOnes
        change ¬ 2048 ≤ field + 1 at hField
        omega
    | case6 => simp
  · rintro rfl
    rfl

/- Packing never makes a number undefined. -/
theorem view_pack_eq_undefined_iff
    {u : UnpackedFloat} :
    view ⟨Float.Model.pack u⟩ = .undefined ↔
      u = .notANumber := by
  rw [← unpacked_eq_notANumber_iff, ← unpack_eq_view,
    ← @pack_eq_packedNaN_iff u]
  exact
    @unpack_eq_notANumber_iff_of_valid .binary64 _ valid_pack
      (by decide)

------------------------------------------------------------
-- Rounded Numbers
------------------------------------------------------------

/- Nor does rounding. -/
theorem roundWithAccuracy_ne_notANumber
    (s : Sign)
    (m : Nat)
    (e : Int)
    (accuracy : Accuracy) :
    roundWithAccuracy .binary64 s m e accuracy ≠
      .notANumber := by
  unfold roundWithAccuracy
  dsimp only
  split <;> simp

theorem normalize_ne_notANumber
    (n e : Int)
    (s : Sign) :
    UnpackedFloat.normalize .binary64 n e s ≠ .notANumber := by
  unfold UnpackedFloat.normalize
  split
  · exact roundWithAccuracy_ne_notANumber _ _ _ _
  · simp
  · exact roundWithAccuracy_ne_notANumber _ _ _ _

------------------------------------------------------------
-- Sums and Quotients
------------------------------------------------------------

/- Only infinities of both signs have no sum. -/
theorem add_eq_notANumber_iff
    {u v : UnpackedFloat}
    (hU : u ≠ .notANumber)
    (hV : v ≠ .notANumber) :
    u.add .binary64 v = .notANumber ↔
      ∃ s,
        u = .infinity (signOf s) ∧
          v = .infinity (signOf !s) := by
  cases u with
  | notANumber => exact absurd rfl hU
  | infinity s =>
      cases v with
      | notANumber => exact absurd rfl hV
      | infinity t =>
          cases s <;> cases t <;>
            simp [UnpackedFloat.add, signOf]
      | zero t => simp [UnpackedFloat.add]
      | finite t n f hN => simp [UnpackedFloat.add]
  | zero s =>
      cases v with
      | notANumber => exact absurd rfl hV
      | infinity t => simp [UnpackedFloat.add]
      | zero t =>
          cases s <;> cases t <;> simp [UnpackedFloat.add]
      | finite t n f hN => simp [UnpackedFloat.add]
  | finite s m e hM =>
      cases v with
      | notANumber => exact absurd rfl hV
      | infinity t => simp [UnpackedFloat.add]
      | zero t => simp [UnpackedFloat.add]
      | finite t n f hN =>
          refine iff_of_false ?_ (by simp)
          exact normalize_ne_notANumber _ _ _

/- What is divided by a finite number other than zero is one. -/
theorem div_ne_notANumber
    {u : UnpackedFloat}
    (hU : u ≠ .notANumber)
    (s : Sign)
    {m : Nat}
    (e : Int)
    (hM : 0 < m) :
    u.div .binary64 (.finite s m e hM) ≠ .notANumber := by
  cases u with
  | notANumber => exact absurd rfl hU
  | infinity t => simp [UnpackedFloat.div]
  | zero t => simp [UnpackedFloat.div]
  | finite t n f hN =>
      exact roundWithAccuracy_ne_notANumber _ _ _ _

theorem view_add_eq_undefined_iff
    {x y : Float}
    (hX : view x ≠ .undefined)
    (hY : view y ≠ .undefined) :
    view (x + y) = .undefined ↔
      ∃ s, view x = .infinite s ∧ view y = .infinite (!s) := by
  rw [ne_eq, ← unpacked_eq_notANumber_iff] at hX hY
  simp only [← unpacked_eq_infinity_iff]
  rw [← unpack_eq_view x, ← unpack_eq_view y] at *
  exact view_pack_eq_undefined_iff.trans
    (add_eq_notANumber_iff hX hY)

theorem view_div_ne_undefined
    {x y : Float}
    (hX : view x ≠ .undefined)
    {s : Bool}
    {m : Nat}
    {e : Int}
    (hM : 0 < m)
    (hY : view y = .finite s m e) :
    view (x / y) ≠ .undefined := by
  rw [ne_eq, ← unpacked_eq_notANumber_iff, ← unpack_eq_view] at hX
  have hUnpack := unpack_eq_view y
  rw [hY, unpacked_of_pos hM] at hUnpack
  change
    view
        ⟨Float.Model.pack
          (x.toModel.unpack.div .binary64 y.toModel.unpack)⟩ ≠
      .undefined
  rw [ne_eq, view_pack_eq_undefined_iff, hUnpack]
  exact div_ne_notANumber hX _ _ hM

------------------------------------------------------------
-- Numbers by their Bits
------------------------------------------------------------

/- A number with given bits has them, unless it is undefined. -/
theorem toBits_ofBits
    {bits : UInt64}
    (hBits :
      bits.toNat / Nat.pow 2 52 % Nat.pow 2 11 = 2047 →
        bits.toNat % Nat.pow 2 52 = 0) :
    (Float.ofBits bits).toBits = bits := by
  have hNumber : ¬ @isNaNBits .binary64 bits.toBitVec = true := by
    simp only [isNaNBits, decide_eq_true_eq]
    rintro ⟨hField, hFraction⟩
    apply hFraction
    rw [← BitVec.toNat_inj] at hField ⊢
    rw [toNat_unpackMantissa]
    rw [toNat_unpackExponent] at hField
    exact hBits hField
  apply UInt64.toBitVec_inj.mp
  calc
    (Float.ofBits bits).toBits.toBitVec =
        (UnpackedFloat.unpack .binary64 bits.toBitVec).pack
          .binary64 :=
      rfl
    _ = bits.toBitVec := by
      rw [@pack_unpack .binary64 _ (by decide), if_neg hNumber]

theorem toNat_toBits_ofBits
    (negative : Bool)
    {bits : Nat}
    (hBits : bits ≤ infinityBits) :
    (ofBits negative bits).toBits.toNat =
      if negative then 2 ^ 63 + bits else bits := by
  unfold infinityBits at hBits
  unfold ofBits
  rw [toBits_ofBits]
  · cases negative <;> simp <;> omega
  · cases negative <;> simp <;> omega

theorem view_ofBits_ne_undefined
    (negative : Bool)
    {bits : Nat}
    (hBits : bits ≤ infinityBits) :
    view (ofBits negative bits) ≠ .undefined := by
  rw [ne_eq, view_eq_undefined_iff,
    toNat_toBits_ofBits negative hBits]
  unfold infinityBits at *
  cases negative <;> simp <;> omega

/- Between zero and infinity there are finite numbers. -/
theorem exists_view_ofBits
    {bits : Nat}
    (hPositive : 0 < bits)
    (hBits : bits < infinityBits) :
    ∃ s m e,
      0 < m ∧ view (ofBits false bits) = .finite s m e := by
  have hValue : (ofBits false bits).toBits.toNat = bits :=
    toNat_toBits_ofBits false hBits.le
  have hCases := view_cases (ofBits false bits)
  have hSame : bits % 2 ^ 63 = bits := by
    unfold infinityBits at hBits
    omega
  rw [hValue, hSame] at hCases
  rcases hCases with
    ⟨-, hBeyond⟩ | ⟨-, hInfinite⟩ | ⟨m, e, hView, hScaled, -⟩
  · omega
  · omega
  · refine ⟨_, m, e, ?_, hView⟩
    by_contra hZero
    exact hPositive.ne' (hScaled.eq_zero_iff.mpr hZero)

------------------------------------------------------------
-- Counts
------------------------------------------------------------

theorem roundDiv_le
    (n d : Nat) :
    roundDiv n d ≤ n / d + 1 := by
  unfold roundDiv
  dsimp only
  split_ifs <;> omega

/- The exponent of a whole number follows its length. -/
theorem exponentOf_one
    (n : Nat) :
    (n.log2 : Int) - 53 ≤ exponentOf n 1 ∧
      exponentOf n 1 ≤ (n.log2 : Int) - 52 := by
  have hOne : Nat.log2 1 = 0 := rfl
  unfold exponentOf
  dsimp only
  rw [hOne]
  split_ifs <;> omega

/- And its significand has few digits. -/
theorem significand_le
    {n : Nat}
    {e : Int}
    (hExponent : (n.log2 : Int) - 53 ≤ e) :
    (if 0 ≤ e then roundDiv n (1 * Nat.pow 2 e.toNat)
      else roundDiv (n * Nat.pow 2 (-e).toNat) 1) ≤
      2 ^ 54 := by
  have hLength : n < 2 ^ (n.log2 + 1) := Nat.lt_log2_self
  split_ifs with hSign
  · have hQuotient : n / (1 * 2 ^ e.toNat) < 2 ^ 54 := by
      rw [one_mul]
      apply Nat.div_lt_of_lt_mul
      rw [← pow_add]
      exact hLength.trans_le
        (Nat.pow_le_pow_right (by decide) (by omega))
    exact (roundDiv_le _ _).trans hQuotient
  · have hProduct : n * 2 ^ (-e).toNat < 2 ^ 54 := by
      calc
        n * 2 ^ (-e).toNat <
            2 ^ (n.log2 + 1) * 2 ^ (-e).toNat :=
          Nat.mul_lt_mul_of_pos_right hLength (Nat.two_pow_pos _)
        _ = 2 ^ (n.log2 + 1 + (-e).toNat) :=
          (pow_add 2 _ _).symm
        _ ≤ 2 ^ 54 :=
          Nat.pow_le_pow_right (by decide) (by omega)
    have hRounded := roundDiv_le (n * 2 ^ (-e).toNat) 1
    rw [Nat.div_one] at hRounded
    exact hRounded.trans hProduct

theorem bitsOfRatio_one
    {n : Nat}
    (hPositive : 0 < n)
    (hBound : n < 2 ^ 64) :
    0 < bitsOfRatio n 1 ∧ bitsOfRatio n 1 < infinityBits := by
  have hLog : n.log2 < 64 :=
    (Nat.log2_lt hPositive.ne').mpr hBound
  have hField : Nat.pow 2 52 = 4503599627370496 := rfl
  rcases exponentOf_one n with ⟨hLow, hHigh⟩
  have hDigits := significand_le hLow
  unfold bitsOfRatio infinityBits
  dsimp only
  rw [hField]
  generalize (if 0 ≤ exponentOf n 1 then _ else _) =
    significand at *
  omega

/- The number nearest to a count is finite and not zero. -/
theorem exists_view_ofDecimal
    {n : Nat}
    (hPositive : 0 < n)
    (hBound : n < 2 ^ 64) :
    ∃ s m e,
      0 < m ∧ view (ofDecimal false n 0) = .finite s m e := by
  have hLength : (Text.ofNat n).length ≤ 20 := by
    unfold Text.ofNat
    rw [Nat.length_toDigits_le_iff (by decide) (by decide)]
    omega
  have hBits : bitsOfDecimal n 0 = bitsOfRatio n 1 := by
    unfold bitsOfDecimal
    dsimp only
    rw [if_neg hPositive.ne', if_neg (by omega), if_neg (by omega),
      if_pos (by omega)]
    simp
  unfold ofDecimal
  rw [hBits]
  rcases bitsOfRatio_one hPositive hBound with ⟨hLow, hHigh⟩
  exact exists_view_ofBits hLow hHigh

/- A number that is written in digits is never undefined. -/
theorem bitsOfDecimal_le
    (m : Nat)
    (x : Int) :
    bitsOfDecimal m x ≤ infinityBits := by
  have hRatio : ∀ n d, bitsOfRatio n d ≤ infinityBits := by
    intro n d
    exact Nat.min_le_right _ _
  unfold bitsOfDecimal
  dsimp only
  split_ifs
  · exact Nat.zero_le _
  · exact Nat.le_refl _
  · exact Nat.zero_le _
  · exact hRatio _ _
  · exact hRatio _ _

end Binary64

end Collate
