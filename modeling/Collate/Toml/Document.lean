import Collate.Toml.Number

/-
  TOML documents: the statements of a document, and the
  table that they define together.

  Key definitions include:
    * `Toml.value?`
    * `Toml.Statement`
    * `Toml.statements?`
    * `Toml.define?`
    * `Toml.parse?`
-/

------------------------------------------------------------
-- Defining Keys
------------------------------------------------------------

namespace Collate

namespace Toml

/-
  Change the table that a path leads to.  Tables on the way
  are made if they are missing, and an array of tables is
  entered at its last element.  A dotted key cannot enter a
  table that has a header of its own.
-/
def alterAt?
    (dotted : Bool)
    (change : TableForm → Entries → Option Entries) :
    List Text → TableForm → Entries → Option Entries
  | [], form, entries => change form entries
  | part :: path, _, entries =>
      match entries.get? part with
      | none =>
          let form : TableForm :=
            if dotted then .dotted else .implied
          (alterAt? dotted change path form []).map
            fun inner => entries ++ [(part, .table form inner)]
      | some (.table form inner) =>
          if form = .inline ∨ (dotted ∧ form = .header) then none
          else
            (alterAt? dotted change path form inner).map
              fun inner => entries.set part (.table form inner)
      | some (.tables items) =>
          match items.getLast? with
          | some (.table form inner) =>
              (alterAt? dotted change path form inner).map
                fun inner =>
                  entries.set part
                    (.tables
                      (items.dropLast ++ [.table form inner]))
          | _ => none
      | some _ => none

/-
  Set a key in a table.  A dotted key has to end in a table
  that only dotted keys have made.
-/
def assign?
    (key : List Text)
    (value : Value)
    (form : TableForm)
    (entries : Entries) : Option Entries :=
  match key.getLast? with
  | none => none
  | some name =>
      let path := key.dropLast
      let put (form : TableForm) (inner : Entries) :
          Option Entries :=
        if decide (form = .dotted) = path.isEmpty then none
        else if (inner.get? name).isSome then none
        else some (inner ++ [(name, value)])
      alterAt? true put path form entries

/- The table of the pairs in a pair of braces. -/
def inlineTable? : List (List Text × Value) → Option Value
  | pairs =>
      let step (entries : Option Entries)
          (pair : List Text × Value) : Option Entries :=
        entries.bind (assign? pair.1 pair.2 .inline)
      (pairs.foldl step (some [])).map (.table .inline ·)

------------------------------------------------------------
-- Values
------------------------------------------------------------

/-
  The elements of an array after its opening bracket, each
  read by `item`.  The number bounds how many there are.
-/
def elements?
    (item : Reader Value) : Nat → Reader (List Value)
  | 0, _ => none
  | count + 1, t =>
      match skipGap t with
      | ']' :: rest => some ([], rest)
      | t =>
          match item t with
          | none => none
          | some (value, rest) =>
              match skipGap rest with
              | ',' :: rest =>
                  (elements? item count rest).map
                    fun (values, rest) => (value :: values, rest)
              | ']' :: rest => some ([value], rest)
              | _ => none

/- A key, an equals sign, and a value read by `item`. -/
def pair?
    (item : Reader Value) : Reader (List Text × Value) :=
  fun t =>
    match key? t with
    | some (key, '=' :: rest) =>
        (item (skipSpace rest)).map
          fun (value, rest) => ((key, value), rest)
    | _ => none

/-
  The pairs of an inline table after its opening brace.  The
  number bounds how many there are.
-/
def pairs?
    (item : Reader Value) :
    Nat → Reader (List (List Text × Value))
  | 0, _ => none
  | count + 1, t =>
      match pair? item t with
      | none => none
      | some (pair, rest) =>
          match skipSpace rest with
          | ',' :: rest =>
              (pairs? item count rest).map
                fun (pairs, rest) => (pair :: pairs, rest)
          | '\x7d' :: rest => some ([pair], rest)
          | _ => none

/- An inline table after its opening brace. -/
def braces?
    (item : Reader Value)
    (t : Text) : Option (Value × Text) :=
  match skipSpace t with
  | '\x7d' :: rest => some (.table .inline [], rest)
  | t =>
      match pairs? item t.length t with
      | none => none
      | some (pairs, rest) =>
          (inlineTable? pairs).map fun value => (value, rest)

/- A value without parts. -/
def scalarValue? : Reader Value
  | 't' :: 'r' :: 'u' :: 'e' :: t => some (.boolean true, t)
  | 'f' :: 'a' :: 'l' :: 's' :: 'e' :: t =>
      some (.boolean false, t)
  | c :: t =>
      if c = '"' ∨ c = '\'' then
        (string? (c :: t)).map fun (s, rest) => (.string s, rest)
      else (moment? (c :: t)).or (number? (c :: t))
  | [] => none

/- A value, with arrays and tables nested up to a depth. -/
def valueWithin? : Nat → Reader Value
  | 0, t => scalarValue? t
  | depth + 1, '[' :: t =>
      (elements? (valueWithin? depth) (t.length + 1) t).map
        fun (items, rest) => (.array items, rest)
  | depth + 1, '\x7b' :: t => braces? (valueWithin? depth) t
  | _ + 1, t => scalarValue? t

/- A value. -/
def value? : Reader Value :=
  valueWithin? depthLimit

------------------------------------------------------------
-- Statements
------------------------------------------------------------

/- One statement of a document. -/
inductive Statement where
  -- A key and its value.
  | pair (key : List Text) (value : Value)
  -- The header of a table.
  | header (key : List Text)
  -- The header of an element of an array of tables.
  | element (key : List Text)

/- The statement on a line that holds one, and what follows. -/
def statement? : Reader Statement
  | '[' :: '[' :: t =>
      match key? t with
      | some (key, ']' :: ']' :: rest) =>
          (lineEnd? rest).map fun rest => (.element key, rest)
      | _ => none
  | '[' :: t =>
      match key? t with
      | some (key, ']' :: rest) =>
          (lineEnd? rest).map fun rest => (.header key, rest)
      | _ => none
  | t =>
      match pair? value? t with
      | some ((key, value), rest) =>
          (lineEnd? rest).map fun rest => (.pair key value, rest)
      | none => none

/-
  The statements of a text.  The number bounds how many lines
  are read.
-/
def statementsWithin? : Nat → Text → Option (List Statement)
  | 0, _ => none
  | count + 1, t =>
      match skipSpace t with
      | [] => some []
      | c :: rest =>
          if c = '#' ∨ c = '\n' ∨ c = '\r' then
            (lineEnd? (c :: rest)).bind (statementsWithin? count)
          else
            match statement? (c :: rest) with
            | none => none
            | some (statement, rest) =>
                (statementsWithin? count rest).map (statement :: ·)

/-
  The statements of a document, which may begin with a byte
  order mark.
-/
def statements? : Text → Option (List Statement)
  | [] => some []
  | c :: t =>
      if c = Char.ofNat 0xFEFF then
        statementsWithin? (t.length + 1) t
      else statementsWithin? (t.length + 2) (c :: t)

------------------------------------------------------------
-- Definition
------------------------------------------------------------

/- Open the table of a header at the end of its parent. -/
def openTable?
    (name : Text)
    (entries : Entries) : Option Entries :=
  match entries.get? name with
  | none => some (entries ++ [(name, .table .header [])])
  | some (.table .implied inner) =>
      some (entries.erase name ++ [(name, .table .header inner)])
  | some _ => none

/- Open a further element of an array of tables. -/
def openElement?
    (name : Text)
    (entries : Entries) : Option Entries :=
  match entries.get? name with
  | none =>
      some (entries ++ [(name, .tables [.table .header []])])
  | some (.tables items) =>
      some
        (entries.set name
          (.tables (items ++ [.table .header []])))
  | some _ => none

/- Open what a header names. -/
def openAt?
    (change : Text → Entries → Option Entries)
    (key : List Text)
    (root : Entries) : Option Entries :=
  match key.getLast? with
  | none => none
  | some name =>
      alterAt? false (fun _ entries => change name entries)
        key.dropLast .header root

/-
  The table that statements define, given the header under
  which they stand and what is defined already.
-/
def define? :
    List Statement → List Text → Entries → Option Entries
  | [], _, root => some root
  | .pair key value :: rest, here, root =>
      (alterAt? false
        (fun _ entries => assign? key value .header entries)
        here .header root).bind
          (define? rest here)
  | .header key :: rest, _, root =>
      (openAt? openTable? key root).bind (define? rest key)
  | .element key :: rest, _, root =>
      (openAt? openElement? key root).bind (define? rest key)

/- The table of a document, if it is a TOML document. -/
def parse?
    (text : Text) : Option Entries :=
  (statements? text).bind fun statements =>
    define? statements [] []

end Toml

end Collate
