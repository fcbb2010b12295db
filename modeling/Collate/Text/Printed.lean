import Collate.Text.Utf8

/-
  Texts as they are printed where there is no terminal:
  without control sequences and without control characters,
  the usual white space apart.

  What is printed at once comes in pieces.  A control sequence
  that a piece leaves open goes on in the next one.  White
  space inside a sequence is printed, and so is the text
  behind it up to the end of the piece or to the next control
  character; only then does the sequence go on.

  Key definitions include:
    * `Sequence`
    * `Sequence.skip`
    * `Sequence.printPiece`
    * `Text.printed`
-/

------------------------------------------------------------
-- Control Sequences
------------------------------------------------------------

namespace Collate

/- How far a control sequence has come. -/
inductive Sequence where
  -- There is none.
  | none
  -- The escape character.
  | begun
  -- Characters that say which set the last one is from.
  | intermediate
  -- Parameters, up to a letter.
  | control
  -- A command to the system, up to a bell.
  | command
  -- The start of a string for a device.
  | device
  -- Parameters of such a string.
  | deviceParameters
  -- The characters behind these parameters.
  | deviceIntermediate
  -- A string, up to its end mark or the next escape.
  | string
deriving DecidableEq, Repr

namespace Sequence

/- Control characters that are printed. -/
def isPrintedControl
    (n : Nat) : Bool :=
  n = 9 || n = 10 || n = 12 || n = 13

/- Characters that are printed outside of any sequence. -/
def shows
    (c : Char) : Bool :=
  isPrintedControl c.toNat ||
    (decide (0x20 ≤ c.toNat) && c.toNat != 0x7F)

/- What follows the escape character. -/
def afterEscape
    (n : Nat) : Sequence :=
  if n < 0x20 || n = 0x7F then .begun
  else if n < 0x30 then .intermediate
  else if n = 0x5B then .control
  else if n = 0x5D then .command
  else if n = 0x50 then .device
  else if n = 0x58 || n = 0x5E || n = 0x5F then .string
  else .none

/- What follows the start of a string for a device. -/
def afterDevice
    (n : Nat) : Sequence :=
  if n < 0x20 || n = 0x7F then .device
  else if n < 0x30 then .deviceIntermediate
  else if n < 0x40 then .deviceParameters
  else .string

/- What follows parameters of a string for a device. -/
def afterDeviceParameters
    (n : Nat) : Sequence :=
  if n < 0x20 || n = 0x7F then .deviceParameters
  else if n < 0x30 then .deviceIntermediate
  else if n < 0x3C then .deviceParameters
  else .string

/-
  How a sequence goes on with a character of ASCII that is
  neither the escape character nor one that ends all
  sequences.
-/
def next : Sequence → Nat → Sequence
  | .none, _ => .none
  | .begun, n => afterEscape n
  | .intermediate, n =>
      if 0x30 ≤ n && n < 0x7F then .none else .intermediate
  | .control, n =>
      if 0x40 ≤ n && n < 0x7F then .none else .control
  | .command, n => if n = 7 then .none else .command
  | .device, n => afterDevice n
  | .deviceParameters, n => afterDeviceParameters n
  | .deviceIntermediate, n =>
      if n < 0x30 || n = 0x7F then .deviceIntermediate
      else .string
  | .string, _ => .string

/- Whether white space is printed inside a sequence. -/
def printsBlank : Sequence → Bool
  | .none => true
  | .begun => true
  | .intermediate => true
  | .control => true
  | _ => false

/-
  How a sequence goes on with a character beyond ASCII.  The
  octet of the end mark also ends a string when it is a part
  of such a character.
-/
def nextWide
    (s : Sequence)
    (c : Char) : Sequence :=
  if s = .string ∧ (Utf8.encode [c]).contains 0x9C then .none
  else s

/-
  Take in one character while nothing is printed.  Answers
  whether the character is printed, and how far the sequence
  is then.
-/
def skip
    (s : Sequence)
    (c : Char) : Bool × Sequence :=
  let n := c.toNat
  if n = 0x1B then (false, .begun)
  else if n = 0x18 || n = 0x1A then (false, .none)
  else if 0x80 ≤ n then (s = .none, s.nextWide c)
  else if isPrintedControl n && s.printsBlank then (true, s)
  else (s = .none && shows c, s.next n)

/-
  The characters of a piece that are printed, and how far the
  sequence is at its end.  The first argument says whether
  the character before was printed.  A printed character
  beyond ASCII ends the sequence.
-/
def printOn : Bool → Sequence → Text → Text × Sequence
  | _, s, [] => ([], s)
  | printing, s, c :: t =>
      if printing && shows c then
        let s := if 0x80 ≤ c.toNat then .none else s
        let (rest, s) := printOn true s t
        (c :: rest, s)
      else
        match s.skip c with
        | (true, s) =>
            let (rest, s) := printOn true s t
            (c :: rest, s)
        | (false, s) => printOn false s t

/- The printed characters of a piece. -/
def printPiece
    (s : Sequence)
    (piece : Text) : Text × Sequence :=
  printOn false s piece

/- The printed characters of pieces. -/
def printPieces : Sequence → List Text → Text
  | _, [] => []
  | s, piece :: rest =>
      let (shown, s) := s.printPiece piece
      shown ++ printPieces s rest

end Sequence

------------------------------------------------------------
-- Printed Texts
------------------------------------------------------------

/- What is seen of pieces that are printed at once. -/
def Text.printed
    (pieces : List Text) : Text :=
  Sequence.none.printPieces pieces

end Collate
