import Collate.Binary64.Written

/-
  Percentages: how a coverage table writes them, how they are
  averaged, and how they are ranked.

  Key definitions include:
    * `Percent`
    * `Percent.number?`
    * `Percent.read?`
    * `Percent.UndefinedSign`
    * `Percent.mean`
    * `Percent.rank`
-/

------------------------------------------------------------
-- Percentages
------------------------------------------------------------

namespace Collate

/-
  A percentage, or a value that is no number.  Such a value
  has a sign, which only shows in its rank.
-/
inductive Percent where
  | number (x : Float)
  | undefined (negative : Bool)

namespace Percent

------------------------------------------------------------
-- Reading
------------------------------------------------------------

/- A capital letter of ASCII as its small letter. -/
def lower
    (c : Char) : Char :=
  if 'A' ≤ c ∧ c ≤ 'Z' then Char.ofNat (c.toNat + 32) else c

/- The power of ten after the digits, which ends the number. -/
def power? : Text → Option Int
  | [] => some 0
  | c :: t =>
      if lower c = 'e' then
        let (negative, digits) := Text.sign t
        if digits.isEmpty || !digits.all Char.isDigit then none
        else
          let n : Int := Binary64.valueOfDigits digits
          some (if negative then -n else n)
      else none

/- The digits behind a point, and what follows them. -/
def behindPoint : Text → Text × Text
  | '.' :: t => (t.takeWhile Char.isDigit, t.dropWhile Char.isDigit)
  | t => ([], t)

/-
  A decimal number without its sign: digits with a point
  anywhere among them or none, and a power of ten or none.
-/
def decimal?
    (negative : Bool)
    (t : Text) : Option Percent :=
  let whole := t.takeWhile Char.isDigit
  let (part, rest) := behindPoint (t.dropWhile Char.isDigit)
  if whole.isEmpty && part.isEmpty then none
  else
    (power? rest).map fun power =>
      .number
        (Binary64.ofDecimal negative
          (Binary64.valueOfDigits (whole ++ part))
          (power - part.length))

/- A number, also infinite or undefined ones by name. -/
def number?
    (t : Text) : Option Percent :=
  let (negative, t) := Text.sign t
  let word := t.map lower
  if word = "inf".toList ∨ word = "infinity".toList then
    some
      (.number (Binary64.ofBits negative Binary64.infinityBits))
  else if word = "nan".toList then some (.undefined negative)
  else decimal? negative t

/- A percentage: a number with any percent signs behind it. -/
def read?
    (t : Text) : Option Percent :=
  number? (Text.dropTrailing '%' t)

------------------------------------------------------------
-- Averages
------------------------------------------------------------

/-
  The sign of a result that is no number, as when infinities
  of both signs are added.  The format of numbers leaves it
  open, so it is a parameter of what is computed.
-/
class UndefinedSign where
  negative : Bool

/- On x86-64 such a result is negative. -/
instance : UndefinedSign where
  negative := true

variable [UndefinedSign]

/- The result of adding or dividing numbers. -/
def ofResult
    (x : Float) : Percent :=
  match Binary64.view x with
  | .undefined => .undefined UndefinedSign.negative
  | _ => .number x

/-
  The sum of two values.  The first undefined one stays as it
  is, again as on x86-64.
-/
def add : Percent → Percent → Percent
  | .undefined negative, _ => .undefined negative
  | .number _, .undefined negative => .undefined negative
  | .number x, .number y => ofResult (x + y)

/- A value divided by the number nearest to a count. -/
def divide : Percent → Nat → Percent
  | .undefined negative, _ => .undefined negative
  | .number x, count =>
      ofResult (x / Binary64.ofDecimal false count 0)

/-
  The mean of values.  They are added in order to a negative
  zero.
-/
def mean
    (values : List Percent) : Percent :=
  (values.foldl add (.number (-0.0))).divide values.length

------------------------------------------------------------
-- Rank and Text
------------------------------------------------------------

/-
  The place of a value in the total order.  Undefined values
  are beyond the infinities of their sign.
-/
def rank : Percent → Int
  | .number x => Binary64.rank x
  | .undefined false => Int.pow 2 63
  | .undefined true => -(Int.pow 2 63) - 1

/- A value with one decimal place. -/
def fixed : Percent → Text
  | .number x => Binary64.fixedTenths x
  | .undefined _ => "NaN".toList

end Percent

end Collate
