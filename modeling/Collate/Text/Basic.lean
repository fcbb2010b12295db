/-
  Texts and the small operations every other module is
  built from.  A text is its list of characters, so that
  each rule about a text is a recursion on that list.

  Key definitions include:
    * `Text`
    * `Text.after?`
    * `Text.splitOn`
    * `Text.joinWith`
    * `Text.holds`
    * `Text.ofNat`
    * `Text.padRight`
    * `Text.padLeft`
-/

------------------------------------------------------------
-- Texts
------------------------------------------------------------

namespace Collate

/- A text is the list of its characters. -/
abbrev Text := List Char

namespace Text

------------------------------------------------------------
-- Order
------------------------------------------------------------

/-
  Texts are ordered by code point, character by character.
  This is also the byte order of their UTF-8 forms.
-/
def before
    (a b : Text) : Bool :=
  compare a b != .gt

------------------------------------------------------------
-- Beginnings and Ends
------------------------------------------------------------

/- What follows `start` in a text that begins with it. -/
def after? : Text → Text → Option Text
  | [], t => some t
  | _ :: _, [] => none
  | c :: start, d :: t =>
      if c = d then after? start t else none

/- Whether a text begins with `start`. -/
def startsWith
    (t start : Text) : Bool :=
  (after? start t).isSome

/- Whether `part` stands somewhere in a text. -/
def holds : Text → Text → Bool
  | [], part => part.isEmpty
  | c :: t, part => startsWith (c :: t) part || holds t part

/- A sign, if there is one: whether it is a minus. -/
def sign : Text → Bool × Text
  | '+' :: t => (false, t)
  | '-' :: t => (true, t)
  | t => (false, t)

/- Remove every occurrence of `c` at the end of a text. -/
def dropTrailing
    (c : Char)
    (t : Text) : Text :=
  (t.reverse.dropWhile (· == c)).reverse

------------------------------------------------------------
-- Splitting and Joining
------------------------------------------------------------

/-
  The pieces between the occurrences of `mark`.  There is
  always one piece more than there are marks.
-/
def splitOn
    (mark : Char) : Text → List Text
  | [] => [[]]
  | c :: t =>
      if c = mark then [] :: splitOn mark t
      else
        match splitOn mark t with
        | [] => [[c]]
        | piece :: pieces => (c :: piece) :: pieces

/- Put `mark` between neighbouring pieces. -/
def joinWith
    (mark : Text)
    (pieces : List Text) : Text :=
  List.intercalate mark pieces

------------------------------------------------------------
-- Numbers and Columns
------------------------------------------------------------

/- A natural number in decimal digits. -/
def ofNat
    (n : Nat) : Text :=
  Nat.toDigits 10 n

/- An integer in decimal digits, `-` before a negative one. -/
def ofInt : Int → Text
  | .ofNat n => ofNat n
  | .negSucc n => '-' :: ofNat (n + 1)

/- Fill a text with spaces on its right up to `width`. -/
def padRight
    (width : Nat)
    (t : Text) : Text :=
  t ++ List.replicate (width - t.length) ' '

/- Fill a text with spaces on its left up to `width`. -/
def padLeft
    (width : Nat)
    (t : Text) : Text :=
  List.replicate (width - t.length) ' ' ++ t

end Text

end Collate
