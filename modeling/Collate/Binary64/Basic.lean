import Collate.Text.Basic

/-
  Binary floating point numbers of 64 bits as exact
  quantities: the number nearest to a decimal, the quantity
  that a number stands for, and the total order of numbers.

  Key definitions include:
    * `Binary64.roundDiv`
    * `Binary64.ofDecimal`
    * `Binary64.View`
    * `Binary64.view`
    * `Binary64.rank`
-/

------------------------------------------------------------
-- Rounding
------------------------------------------------------------

namespace Collate

namespace Binary64

/-
  The whole number nearest to a quotient.  A half goes to the
  even neighbour.
-/
def roundDiv
    (n d : Nat) : Nat :=
  let quotient := n / d
  let twice := 2 * (n % d)
  if twice < d then quotient
  else if d < twice then quotient + 1
  else if quotient % 2 = 0 then quotient
  else quotient + 1

------------------------------------------------------------
-- Nearest Numbers
------------------------------------------------------------

/- The bits of positive infinity. -/
def infinityBits : Nat :=
  0x7FF0000000000000

/-
  The exponent `e` for which a positive quotient, divided by
  `2 ^ e`, lies between `2 ^ 52` and `2 ^ 53`.  It is no less
  than that of the smallest numbers.
-/
def exponentOf
    (n d : Nat) : Int :=
  let e : Int := (n.log2 : Int) - (d.log2 : Int) - 52
  let fits :=
    if 0 ≤ e then d * Nat.pow 2 (52 + e.toNat) ≤ n
    else d * Nat.pow 2 52 ≤ n * Nat.pow 2 (-e).toNat
  max (if fits then e else e - 1) (-1074)

/-
  The bits of the number nearest to a positive quotient, of
  infinity if the quotient is too large.
-/
def bitsOfRatio
    (n d : Nat) : Nat :=
  let e := exponentOf n d
  let significand :=
    if 0 ≤ e then roundDiv n (d * Nat.pow 2 e.toNat)
    else roundDiv (n * Nat.pow 2 (-e).toNat) d
  min
    ((e + 1074).toNat * Nat.pow 2 52 + significand)
    infinityBits

/-
  The bits of the number nearest to `m * 10 ^ x`.  Beyond the
  powers of ten that any number reaches, the answer is known
  without computing the quotient.
-/
def bitsOfDecimal
    (m : Nat)
    (x : Int) : Nat :=
  if m = 0 then 0
  else
    let top : Int := (Text.ofNat m).length + x
    if 310 ≤ top then infinityBits
    else if top ≤ -324 then 0
    else if 0 ≤ x then
      bitsOfRatio (m * Nat.pow 10 x.toNat) 1
    else bitsOfRatio m (Nat.pow 10 (-x).toNat)

/- The number with these bits and this sign. -/
def ofBits
    (negative : Bool)
    (bits : Nat) : Float :=
  Float.ofBits
    (UInt64.ofNat
      (if negative then Nat.pow 2 63 + bits else bits))

/- The number nearest to a decimal `m * 10 ^ x`. -/
def ofDecimal
    (negative : Bool)
    (m : Nat)
    (x : Int) : Float :=
  ofBits negative (bitsOfDecimal m x)

/- The value of decimal digits. -/
def valueOfDigits
    (digits : Text) : Nat :=
  digits.foldl (fun n c => 10 * n + (c.toNat - 48)) 0

------------------------------------------------------------
-- Views
------------------------------------------------------------

/-
  What a number stands for.  A finite number is its
  significand times two to the exponent.
-/
inductive View where
  | undefined
  | infinite (negative : Bool)
  | finite (negative : Bool) (significand : Nat) (exponent : Int)
deriving DecidableEq, Repr

/- The exact quantity of a number. -/
def view
    (x : Float) : View :=
  let bits := x.toBits.toNat
  let negative := decide (Nat.pow 2 63 ≤ bits)
  let field : Nat := bits / Nat.pow 2 52 % Nat.pow 2 11
  let fraction : Nat := bits % Nat.pow 2 52
  if field = 2047 then
    if fraction = 0 then .infinite negative else .undefined
  else if field = 0 then .finite negative fraction (-1074)
  else
    .finite negative (Nat.pow 2 52 + fraction)
      ((field : Int) - 1075)

------------------------------------------------------------
-- Total Order
------------------------------------------------------------

/-
  The place of a number in the total order: negative numbers
  before positive ones, each by magnitude, negative zero
  before zero, and undefined values beyond the infinities.
-/
def rank
    (x : Float) : Int :=
  let bits := x.toBits.toNat
  if bits < Nat.pow 2 63 then bits
  else -((bits - Nat.pow 2 63 : Nat) : Int) - 1

end Binary64

end Collate
