import Collate.Text.Basic
import Collate.Text.Unprintable

/-
  Texts in quotes, with escapes for what would not show.

  Key definitions include:
    * `Text.escape`
    * `Text.quoted`
-/

------------------------------------------------------------
-- Quoted Texts
------------------------------------------------------------

namespace Collate

namespace Text

/- The escape of a code point: its number in base sixteen. -/
def codePoint
    (c : Char) : Text :=
  "\\u\x7b".toList ++ Nat.toDigits 16 c.toNat ++ ['\x7d']

/- A character as it stands between quotes. -/
def escape
    (c : Char) : Text :=
  match c with
  | '\x00' => "\\0".toList
  | '\t' => "\\t".toList
  | '\r' => "\\r".toList
  | '\n' => "\\n".toList
  | '\\' => "\\\\".toList
  | '"' => "\\\"".toList
  | c => if isPrintable c then [c] else codePoint c

/- A text in double quotes. -/
def quoted
    (t : Text) : Text :=
  '"' :: t.flatMap escape ++ ['"']

end Text

end Collate
