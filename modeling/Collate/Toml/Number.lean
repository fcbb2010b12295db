import Collate.Binary64.Basic
import Collate.Toml.Lexeme

/-
  Numbers, dates and times in TOML documents.

  Key definitions include:
    * `Toml.number?`
    * `Toml.moment?`
-/

------------------------------------------------------------
-- Digits
------------------------------------------------------------

namespace Collate

namespace Toml

/-
  A run of digits in which single underscores may stand
  between two digits.  The underscores are dropped.
-/
def moreDigits
    (ok : Char → Bool) : Text → Text × Text
  | [] => ([], [])
  | '_' :: c :: t =>
      if ok c then
        let (digits, rest) := moreDigits ok t
        (c :: digits, rest)
      else ([], '_' :: c :: t)
  | c :: t =>
      if ok c then
        let (digits, rest) := moreDigits ok t
        (c :: digits, rest)
      else ([], c :: t)

/- A run of at least one digit. -/
def digits?
    (ok : Char → Bool) : Reader Text
  | [] => none
  | c :: t =>
      if ok c then
        let (digits, rest) := moreDigits ok t
        some (c :: digits, rest)
      else none

/- The digits of a whole number, which has no leading zero. -/
def wholeDigits? : Reader Text
  | '0' :: t => some (['0'], t)
  | t => digits? Char.isDigit t

------------------------------------------------------------
-- Numbers
------------------------------------------------------------

/- An integer, if it has 64 bits. -/
def integerValue?
    (n : Int) : Option Value :=
  if -(Int.pow 2 63) ≤ n ∧ n < Int.pow 2 63 then
    some (.integer n)
  else none

/- The digits of a base other than ten, after its mark. -/
def based?
    (base : Nat)
    (t : Text) : Option (Value × Text) :=
  let ok (c : Char) : Bool :=
    match hexDigit? c with
    | some digit => digit < base
    | none => false
  match digits? ok t with
  | none => none
  | some (digits, rest) =>
      let n := digits.foldl
        (fun n c => base * n + (hexDigit? c).getD 0) 0
      (integerValue? n).map fun v => (v, rest)

/- A point and the digits behind it, none if there is none. -/
def fraction : Text → Text × Text
  | '.' :: t =>
      match digits? Char.isDigit t with
      | some (digits, rest) => (digits, rest)
      | none => ([], '.' :: t)
  | t => ([], t)

/- The power of ten of an exponent, if there is one. -/
def exponent? : Text → Option (Int × Text)
  | c :: t =>
      if c = 'e' ∨ c = 'E' then
        let (negative, t) := Text.sign t
        (digits? Char.isDigit t).map fun (digits, rest) =>
          let n : Int := Binary64.valueOfDigits digits
          (if negative then -n else n, rest)
      else none
  | [] => none

/-
  A floating point number.  One that is too large is refused
  unless it is negative.
-/
def floatValue?
    (negative : Bool)
    (whole part : Text)
    (power : Int) : Option Value :=
  let m := Binary64.valueOfDigits (whole ++ part)
  let bits := Binary64.bitsOfDecimal m (power - part.length)
  if bits = Binary64.infinityBits ∧ !negative then none
  else some (.float (Binary64.ofBits negative bits))

/- An integer or a floating point number in base ten. -/
def decimal?
    (t : Text) : Option (Value × Text) :=
  let (negative, t) := Text.sign t
  match wholeDigits? t with
  | none => none
  | some (whole, rest) =>
      let (part, rest) := fraction rest
      match part, exponent? rest with
      | [], none =>
          let n : Int := Binary64.valueOfDigits whole
          (integerValue? (if negative then -n else n)).map
            fun v => (v, rest)
      | part, none =>
          (floatValue? negative whole part 0).map
            fun v => (v, rest)
      | part, some (power, rest) =>
          (floatValue? negative whole part power).map
            fun v => (v, rest)

/- Infinity or an undefined value. -/
def special?
    (t : Text) : Option (Value × Text) :=
  let (negative, t) := Text.sign t
  match t with
  | 'i' :: 'n' :: 'f' :: rest =>
      some
        (.float (Binary64.ofBits negative Binary64.infinityBits),
          rest)
  | 'n' :: 'a' :: 'n' :: rest =>
      some (.float (Float.ofBits 0x7FF8000000000000), rest)
  | _ => none

/- A number in any of its forms. -/
def number? : Reader Value
  | '0' :: 'x' :: t => based? 16 t
  | '0' :: 'o' :: t => based? 8 t
  | '0' :: 'b' :: t => based? 2 t
  | t => (special? t).or (decimal? t)

------------------------------------------------------------
-- Dates and Times
------------------------------------------------------------

/- Exactly this many digits, and their value. -/
def fixedDigits?
    (count : Nat)
    (t : Text) : Option (Nat × Text) :=
  let digits := t.take count
  if digits.length = count ∧ digits.all Char.isDigit then
    some (Binary64.valueOfDigits digits, t.drop count)
  else none

/- Two digits with a value in a range. -/
def twoDigits?
    (low high : Nat)
    (t : Text) : Option (Nat × Text) :=
  match fixedDigits? 2 t with
  | some (n, rest) =>
      if low ≤ n ∧ n ≤ high then some (n, rest) else none
  | none => none

/- The rest after one given character. -/
def mark?
    (c : Char) : Text → Option Text
  | d :: t => if c = d then some t else none
  | [] => none

/- The number of days of a month. -/
def daysIn
    (year month : Nat) : Nat :=
  let leap :=
    year % 4 = 0 ∧ (year % 100 ≠ 0 ∨ year % 400 = 0)
  if month = 2 then if leap then 29 else 28
  else if month ∈ [4, 6, 9, 11] then 30
  else 31

/- What follows a date. -/
def date?
    (t : Text) : Option Text := do
  let (year, t) ← fixedDigits? 4 t
  let t ← mark? '-' t
  let (month, t) ← twoDigits? 1 12 t
  let t ← mark? '-' t
  let (_, t) ← twoDigits? 1 (daysIn year month) t
  some t

/- What follows a time of day. -/
def time?
    (t : Text) : Option Text := do
  let (_, t) ← twoDigits? 0 23 t
  let t ← mark? ':' t
  let (_, t) ← twoDigits? 0 59 t
  let t ← mark? ':' t
  let (_, t) ← twoDigits? 0 60 t
  match t with
  | '.' :: c :: rest =>
      if c.isDigit then some (rest.dropWhile Char.isDigit)
      else some t
  | _ => some t

/- What follows an offset from universal time. -/
def offset? : Text → Option Text
  | c :: t =>
      if c = 'Z' ∨ c = 'z' then some t
      else if c = '+' ∨ c = '-' then do
        let (_, t) ← twoDigits? 0 23 t
        let t ← mark? ':' t
        let (_, t) ← twoDigits? 0 59 t
        some t
      else none
  | [] => none

/- What follows the time behind a date, if there is one. -/
def timeOfDay? : Text → Option Text
  | c :: t =>
      if c = 'T' ∨ c = 't' ∨ c = ' ' then
        (time? t).map fun rest => (offset? rest).getD rest
      else none
  | [] => none

/- A date, a time, or a date with a time. -/
def moment?
    (t : Text) : Option (Value × Text) :=
  let rest? : Option Text :=
    match date? t with
    | some rest => some ((timeOfDay? rest).getD rest)
    | none => time? t
  rest?.map fun rest =>
    (.moment (t.take (t.length - rest.length)), rest)

end Toml

end Collate
