import Collate.Binary64.Basic

/-
  Numbers written in decimal digits, never with an exponent.

  Key definitions include:
    * `Binary64.fixedTenths`
    * `Binary64.shortest`
    * `Binary64.positional`
-/

------------------------------------------------------------
-- One Decimal Place
------------------------------------------------------------

namespace Collate

namespace Binary64

/- A sign in front of a text. -/
def signed
    (negative : Bool)
    (t : Text) : Text :=
  if negative then '-' :: t else t

/- The tenths nearest to a finite number. -/
def tenths
    (significand : Nat)
    (exponent : Int) : Nat :=
  if 0 ≤ exponent then
    significand * Nat.pow 2 exponent.toNat * 10
  else
    roundDiv (significand * 10)
      (Nat.pow 2 (-exponent).toNat)

/-
  A number with one decimal place.  The exact value is
  rounded, a half to the even neighbour, and the sign stays
  on a result of zero.
-/
def fixedTenths
    (x : Float) : Text :=
  match view x with
  | .undefined => "NaN".toList
  | .infinite negative => signed negative "inf".toList
  | .finite negative significand exponent =>
      let n := tenths significand exponent
      signed negative
        (Text.ofNat (n / 10) ++ '.' :: Text.ofNat (n % 10))

------------------------------------------------------------
-- Fewest Digits
------------------------------------------------------------

/-
  The least `t` up to a bound for which `n * 10 ^ t` reaches
  `d`.
-/
def decadesBelow : Nat → Nat → Nat → Nat
  | 0, _, _ => 0
  | fuel + 1, n, d =>
      if d ≤ n then 0 else decadesBelow fuel (n * 10) d + 1

/- The exponent of the leading decimal digit of a quotient. -/
def decade
    (n d : Nat) : Int :=
  if d ≤ n then (Text.ofNat (n / d)).length - 1
  else -(decadesBelow 400 n d : Int)

/-
  The quantities that read back as one number, in quarters
  of its last place: from `low` to `high` around `mid`, the
  ends included or not.
-/
structure Interval where
  low : Nat
  mid : Nat
  high : Nat
  closed : Bool
deriving DecidableEq, Repr

/- The interval around a positive finite number. -/
def Interval.around
    (significand : Nat)
    (exponent : Int) : Interval where
  low :=
    if significand = Nat.pow 2 52 ∧ -1074 < exponent then
      4 * significand - 1
    else 4 * significand - 2
  mid := 4 * significand
  high := 4 * significand + 2
  closed := significand % 2 = 0

/-
  Whether a decimal lies in an interval.  Both sides are
  given in a common unit: the decimal counts `a` each, and a
  quarter counts `b`.
-/
def Interval.holds
    (i : Interval)
    (a b c : Nat) : Bool :=
  if i.closed then i.low * b ≤ c * a && c * a ≤ i.high * b
  else i.low * b < c * a && c * a < i.high * b

/-
  The decimal of a given number of digits that reads back as
  the number, if there is one: the nearer of the two
  neighbours, and at equal distance the greater one.
-/
def ofLength?
    (i : Interval)
    (exponent top : Int)
    (count : Nat) : Option (Nat × Int) :=
  let place := top - (count - 1)
  let quarter := exponent - 2
  let a :=
    Nat.pow 10 place.toNat * Nat.pow 2 (-quarter).toNat
  let b :=
    Nat.pow 2 quarter.toNat * Nat.pow 10 (-place).toNat
  let below := i.mid * b / a
  let above := below + 1
  let left := i.mid * b - below * a
  let right := above * a - i.mid * b
  let nearer := if left < right then below else above
  let further := if nearer = below then above else below
  if i.holds a b nearer then some (nearer, place)
  else if i.holds a b further then some (further, place)
  else none

/-
  A decimal without a zero at its end.  Ten of one place are
  one of the next.
-/
def carried : Nat × Int → Nat × Int
  | (n, place) =>
      if n % 10 = 0 then (n / 10, place + 1) else (n, place)

/-
  The fewest digits that read back as a positive finite
  number, as a whole number and a power of ten.
-/
def shortest
    (significand : Nat)
    (exponent : Int) : Nat × Int :=
  let i := Interval.around significand exponent
  let top :=
    if 0 ≤ exponent then
      decade (significand * Nat.pow 2 exponent.toNat) 1
    else decade significand (Nat.pow 2 (-exponent).toNat)
  carried
    (((List.range 17).findSome? fun n =>
      ofLength? i exponent top (n + 1)).getD (significand, 0))

/-
  A whole number times a power of ten, written with a point
  and at least one digit on either side of it.
-/
def pointed
    (n : Nat)
    (place : Int) : Text :=
  let digits := Text.ofNat n
  if 0 ≤ place then
    digits ++ List.replicate place.toNat '0' ++ ".0".toList
  else
    let behind := (-place).toNat
    let padded :=
      List.replicate (behind + 1 - digits.length) '0' ++ digits
    padded.take (padded.length - behind) ++
      '.' :: padded.drop (padded.length - behind)

/-
  A number in the fewest digits that read back as it, always
  with a point when it is finite.
-/
def positional
    (x : Float) : Text :=
  match view x with
  | .undefined => "NaN".toList
  | .infinite negative => signed negative "inf".toList
  | .finite negative significand exponent =>
      signed negative
        (if significand = 0 then "0.0".toList
        else
          let (n, place) := shortest significand exponent
          pointed n place)

end Binary64

end Collate
