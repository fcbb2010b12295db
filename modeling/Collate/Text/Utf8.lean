import Collate.Text.Basic

/-
  The UTF-8 form of texts.  Octets are scanned into glyphs:
  a glyph is a character, or a maximal run of octets that
  begins no character.

  Key definitions include:
    * `Octets`
    * `Utf8.encode`
    * `Utf8.scan`
    * `Utf8.decode?`
    * `Utf8.decodeLossy`
-/

------------------------------------------------------------
-- Octets
------------------------------------------------------------

namespace Collate

/- The content of a file or of a stream. -/
abbrev Octets := List UInt8

namespace Utf8

/- The UTF-8 form of a text. -/
def encode
    (t : Text) : Octets :=
  t.flatMap String.utf8EncodeChar

------------------------------------------------------------
-- Scanning
------------------------------------------------------------

/-
  A character that is partly read: the value of its octets
  so far, how many are still owed, and the range in which
  the next one has to lie.
-/
structure Pending where
  value : Nat
  owed : Nat
  low : Nat
  high : Nat
deriving DecidableEq, Repr

/- How the first octet of a character announces the rest. -/
def leading?
    (octet : Nat) : Option Pending :=
  if 0xC2 ≤ octet ∧ octet ≤ 0xDF then
    some ⟨octet - 0xC0, 1, 0x80, 0xBF⟩
  else if octet = 0xE0 then some ⟨0, 2, 0xA0, 0xBF⟩
  else if octet = 0xED then some ⟨0xD, 2, 0x80, 0x9F⟩
  else if 0xE1 ≤ octet ∧ octet ≤ 0xEF then
    some ⟨octet - 0xE0, 2, 0x80, 0xBF⟩
  else if octet = 0xF0 then some ⟨0, 3, 0x90, 0xBF⟩
  else if 0xF1 ≤ octet ∧ octet ≤ 0xF3 then
    some ⟨octet - 0xF0, 3, 0x80, 0xBF⟩
  else if octet = 0xF4 then some ⟨4, 3, 0x80, 0x8F⟩
  else none

/-
  One octet read between characters: the glyph it completes,
  if any, and the character it begins, if any.
-/
def start
    (octet : Nat) : List (Option Char) × Option Pending :=
  if octet < 0x80 then ([some (Char.ofNat octet)], none)
  else
    match leading? octet with
    | some pending => ([], some pending)
    | none => ([none], none)

/-
  One octet read within a character.  An octet that cannot
  follow ends the run read so far as a broken glyph and is
  read again as the first of a new one.
-/
def follow
    (pending : Pending)
    (octet : Nat) : List (Option Char) × Option Pending :=
  if pending.low ≤ octet ∧ octet ≤ pending.high then
    let value := pending.value * 64 + (octet - 0x80)
    if pending.owed ≤ 1 then ([some (Char.ofNat value)], none)
    else ([], some ⟨value, pending.owed - 1, 0x80, 0xBF⟩)
  else
    let (glyphs, next) := start octet
    (none :: glyphs, next)

/-
  The glyphs of a sequence of octets, broken ones as `none`.
-/
def scanFrom : Option Pending → Octets → List (Option Char)
  | none, [] => []
  | some _, [] => [none]
  | none, octet :: rest =>
      let (glyphs, next) := start octet.toNat
      glyphs ++ scanFrom next rest
  | some pending, octet :: rest =>
      let (glyphs, next) := follow pending octet.toNat
      glyphs ++ scanFrom next rest

/- The glyphs of octets that begin between characters. -/
def scan
    (octets : Octets) : List (Option Char) :=
  scanFrom none octets

------------------------------------------------------------
-- Decoding
------------------------------------------------------------

/- All characters, or nothing if one glyph is broken. -/
def whole? : List (Option Char) → Option Text
  | [] => some []
  | none :: _ => none
  | some c :: glyphs => (whole? glyphs).map (c :: ·)

/- The text with this UTF-8 form, if there is one. -/
def decode?
    (octets : Octets) : Option Text :=
  whole? (scan octets)

/-
  The text of any octets, with the replacement character in
  place of each broken glyph.
-/
def decodeLossy
    (octets : Octets) : Text :=
  (scan octets).map (·.getD (Char.ofNat 0xFFFD))

end Utf8

end Collate
