import Collate.Toml.Value

/-
  The smallest parts of a TOML document: white space,
  comments, line ends, strings and keys.  A reader takes a
  part off the front of a text and returns what follows it.

  Key definitions include:
    * `Toml.Reader`
    * `Toml.lineEnd?`
    * `Toml.skipGap`
    * `Toml.string?`
    * `Toml.key?`
-/

------------------------------------------------------------
-- Readers
------------------------------------------------------------

namespace Collate

namespace Toml

/- Reads a value off the front of a text. -/
abbrev Reader (α : Type) := Text → Option (α × Text)

------------------------------------------------------------
-- White Space and Comments
------------------------------------------------------------

/- Space and tab. -/
def isSpace
    (c : Char) : Bool :=
  c == ' ' || c == '\t'

/- Drop the spaces and tabs at the front. -/
def skipSpace
    (t : Text) : Text :=
  t.dropWhile isSpace

/-
  Printable characters and tab: all but the control
  characters of ASCII.
-/
def isPlain
    (c : Char) : Bool :=
  c == '\t' || (0x20 ≤ c.toNat && c.toNat != 0x7F)

/- A line feed, alone or after a carriage return. -/
def newline? : Text → Option Text
  | '\n' :: t => some t
  | '\r' :: '\n' :: t => some t
  | _ => none

/- Drop a comment up to the end of its line. -/
def skipComment : Text → Text
  | '#' :: t => t.dropWhile isPlain
  | t => t

/- The rest of a line on which nothing more may stand. -/
def lineEnd?
    (t : Text) : Option Text :=
  match skipComment (skipSpace t) with
  | [] => some []
  | rest => newline? rest

/-
  Drop white space, line ends and whole comments, as they may
  stand between the elements of an array.  The flag tells
  whether a comment is being dropped.
-/
def skipGapFrom : Bool → Text → Text
  | _, [] => []
  | _, '\n' :: t => skipGapFrom false t
  | _, '\r' :: '\n' :: t => skipGapFrom false t
  | true, c :: t =>
      if isPlain c then skipGapFrom true t else c :: t
  | false, c :: t =>
      if isSpace c then skipGapFrom false t
      else if c = '#' then skipGapFrom true t
      else c :: t

/- Drop everything that separates elements of an array. -/
def skipGap
    (t : Text) : Text :=
  skipGapFrom false t

------------------------------------------------------------
-- Escapes
------------------------------------------------------------

/- The value of a hexadecimal digit. -/
def hexDigit?
    (c : Char) : Option Nat :=
  if '0' ≤ c ∧ c ≤ '9' then some (c.toNat - 48)
  else if 'a' ≤ c ∧ c ≤ 'f' then some (c.toNat - 87)
  else if 'A' ≤ c ∧ c ≤ 'F' then some (c.toNat - 55)
  else none

/- The value of hexadecimal digits after a value read. -/
def hexValue? : Nat → Text → Option Nat
  | n, [] => some n
  | n, c :: t =>
      (hexDigit? c).bind fun digit => hexValue? (16 * n + digit) t

/- The character that hexadecimal digits name. -/
def scalar?
    (digits : Text) : Option Char :=
  match hexValue? 0 digits with
  | none => none
  | some n =>
      if n.isValidChar then some (Char.ofNat n) else none

/- The character that one letter after a backslash names. -/
def escaped? : Char → Option Char
  | 'b' => some (Char.ofNat 8)
  | 't' => some '\t'
  | 'n' => some '\n'
  | 'f' => some (Char.ofNat 12)
  | 'r' => some '\r'
  | '"' => some '"'
  | '\\' => some '\\'
  | _ => none

/-
  The character named by an escape, after its backslash, and
  how many characters the escape takes.
-/
def escape? : Text → Option (Char × Nat)
  | 'u' :: t => (scalarOf t 4).map fun c => (c, 5)
  | 'U' :: t => (scalarOf t 8).map fun c => (c, 9)
  | c :: _ => (escaped? c).map fun d => (d, 1)
  | [] => none
where
  scalarOf (t : Text) (count : Nat) : Option Char :=
    let digits := t.take count
    if digits.length < count then none else scalar? digits

------------------------------------------------------------
-- Strings on One Line
------------------------------------------------------------

/-
  The rest of a string in double quotes.  The number counts
  characters of an escape that are already read.
-/
def basicFrom : Nat → Reader Text
  | _, [] => none
  | skip + 1, _ :: t => basicFrom skip t
  | 0, '"' :: t => some ([], t)
  | 0, '\\' :: t =>
      match escape? t with
      | none => none
      | some (c, count) =>
          (basicFrom count t).map fun (s, rest) => (c :: s, rest)
  | 0, c :: t =>
      if isPlain c then
        (basicFrom 0 t).map fun (s, rest) => (c :: s, rest)
      else none

/- The rest of a string in single quotes. -/
def literalFrom : Reader Text
  | [] => none
  | '\'' :: t => some ([], t)
  | c :: t =>
      if isPlain c then
        (literalFrom t).map fun (s, rest) => (c :: s, rest)
      else none

------------------------------------------------------------
-- Strings on Several Lines
------------------------------------------------------------

/-
  Three quotes that close a string, with up to two quotes
  before them that belong to it.
-/
def closing? (quote : Char) : Reader Text
  | a :: b :: c :: t =>
      if a = quote ∧ b = quote ∧ c = quote then
        match t with
        | d :: e :: t' =>
            if d = quote ∧ e = quote then
              some ([quote, quote], t')
            else if d = quote then some ([quote], e :: t')
            else some ([], t)
        | [d] => if d = quote then some ([quote], []) else some ([], t)
        | [] => some ([], [])
      else none
  | _ => none

/-
  What is to be done with the next characters of a string on
  several lines.
-/
inductive Fold where
  -- They are read as they stand.
  | none
  -- They belong to an escape that is already read.
  | escape (count : Nat)
  -- White space and line ends are dropped.
  | gap

/- The rest of a string in three double quotes. -/
def multiBasicFrom : Fold → Reader Text
  | _, [] => none
  | .escape (count + 1), _ :: t => multiBasicFrom (.escape count) t
  | .gap, '\n' :: t => multiBasicFrom .gap t
  | .gap, '\r' :: '\n' :: t => multiBasicFrom .gap t
  | _, '\n' :: t =>
      (multiBasicFrom .none t).map fun (s, rest) => ('\n' :: s, rest)
  | _, '\r' :: '\n' :: t =>
      (multiBasicFrom .none t).map fun (s, rest) => ('\n' :: s, rest)
  | fold, c :: t =>
      let drop :=
        match fold with
        | .gap => isSpace c
        | _ => false
      if drop then multiBasicFrom .gap t
      else if c = '"' then
        match closing? '"' (c :: t) with
        | some done => some done
        | none =>
            (multiBasicFrom .none t).map
              fun (s, rest) => (c :: s, rest)
      else if c = '\\' then
        if (newline? (skipSpace t)).isSome then
          multiBasicFrom .gap t
        else
          match escape? t with
          | none => none
          | some (d, count) =>
              (multiBasicFrom (.escape count) t).map
                fun (s, rest) => (d :: s, rest)
      else if isPlain c then
        (multiBasicFrom .none t).map fun (s, rest) => (c :: s, rest)
      else none

/- The rest of a string in three single quotes. -/
def multiLiteralFrom : Reader Text
  | [] => none
  | '\n' :: t =>
      (multiLiteralFrom t).map fun (s, rest) => ('\n' :: s, rest)
  | '\r' :: '\n' :: t =>
      (multiLiteralFrom t).map fun (s, rest) => ('\n' :: s, rest)
  | c :: t =>
      if c = '\'' then
        match closing? '\'' (c :: t) with
        | some done => some done
        | none =>
            (multiLiteralFrom t).map fun (s, rest) => (c :: s, rest)
      else if isPlain c then
        (multiLiteralFrom t).map fun (s, rest) => (c :: s, rest)
      else none

/- A line end directly after the opening quotes is dropped. -/
def afterOpening
    (t : Text) : Text :=
  (newline? t).getD t

/- A string of any of the four kinds. -/
def string? : Reader Text
  | '"' :: '"' :: '"' :: t => multiBasicFrom .none (afterOpening t)
  | '"' :: t => basicFrom 0 t
  | '\'' :: '\'' :: '\'' :: t => multiLiteralFrom (afterOpening t)
  | '\'' :: t => literalFrom t
  | _ => none

------------------------------------------------------------
-- Keys
------------------------------------------------------------

/- The characters of a key without quotes. -/
def isBare
    (c : Char) : Bool :=
  ('a' ≤ c && c ≤ 'z') || ('A' ≤ c && c ≤ 'Z') ||
    ('0' ≤ c && c ≤ '9') || c == '_' || c == '-'

/- One part of a key. -/
def simpleKey? : Reader Text
  | '"' :: t => basicFrom 0 t
  | '\'' :: t => literalFrom t
  | t =>
      let name := t.takeWhile isBare
      if name.isEmpty then none else some (name, t.dropWhile isBare)

/- The parts of a key, divided by points, up to a number. -/
def keyParts? : Nat → Reader (List Text)
  | 0, _ => none
  | count + 1, t =>
      match simpleKey? (skipSpace t) with
      | none => none
      | some (part, rest) =>
          match skipSpace rest with
          | '.' :: rest =>
              (keyParts? count rest).map
                fun (parts, rest) => (part :: parts, rest)
          | rest => some ([part], rest)

/- How deep keys and values may be nested. -/
def depthLimit : Nat := 79

/- A key with its parts. -/
def key? : Reader (List Text) :=
  keyParts? depthLimit

end Toml

end Collate
