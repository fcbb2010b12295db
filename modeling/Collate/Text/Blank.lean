import Collate.Text.Basic

/-
  White space: which characters are blank, and the
  operations that drop blanks or divide a text at them.

  Key definitions include:
    * `Text.isBlank`
    * `Text.allBlank`
    * `Text.trim`
    * `Text.trimEnd`
    * `Text.words`
-/

------------------------------------------------------------
-- Blank Characters
------------------------------------------------------------

namespace Collate

namespace Text

/-
  The code points with the Unicode property White_Space, as
  ascending ranges with both ends included.
-/
def blankRanges : List (Nat × Nat) :=
  [ (0x0009, 0x000D), (0x0020, 0x0020), (0x0085, 0x0085),
    (0x00A0, 0x00A0), (0x1680, 0x1680), (0x2000, 0x200A),
    (0x2028, 0x2029), (0x202F, 0x202F), (0x205F, 0x205F),
    (0x3000, 0x3000) ]

/- Whether a character is white space. -/
def isBlank
    (c : Char) : Bool :=
  blankRanges.any fun range =>
    decide (range.1 ≤ c.toNat) && decide (c.toNat ≤ range.2)

/- Whether a text holds white space only. -/
def allBlank
    (t : Text) : Bool :=
  t.all isBlank

------------------------------------------------------------
-- Trimming
------------------------------------------------------------

/- Drop the blanks at the start of a text. -/
def trimStart
    (t : Text) : Text :=
  t.dropWhile isBlank

/- Drop the blanks at the end of a text. -/
def trimEnd
    (t : Text) : Text :=
  (t.reverse.dropWhile isBlank).reverse

/- Drop the blanks at both ends of a text. -/
def trim
    (t : Text) : Text :=
  trimEnd (trimStart t)

------------------------------------------------------------
-- Words
------------------------------------------------------------

/-
  The words of a text after the letters of `word`, which are
  already read and stand in reverse order.
-/
def wordsFrom : Text → Text → List Text
  | word, [] => if word.isEmpty then [] else [word.reverse]
  | word, c :: t =>
      if isBlank c then
        if word.isEmpty then wordsFrom [] t
        else word.reverse :: wordsFrom [] t
      else wordsFrom (c :: word) t

/- The maximal runs of characters that are not blank. -/
def words
    (t : Text) : List Text :=
  wordsFrom [] t

end Text

end Collate
