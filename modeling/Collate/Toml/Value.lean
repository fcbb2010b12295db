import Collate.Text.Basic

/-
  The values of TOML documents.  A table keeps its entries in
  the order in which their keys appeared first, and remembers
  how it was written, which decides whether later lines may
  add to it.

  Key definitions include:
    * `Toml.TableForm`
    * `Toml.Value`
    * `Toml.Entries`
    * `Toml.Value.elements?`
-/

------------------------------------------------------------
-- Values
------------------------------------------------------------

namespace Collate

namespace Toml

/- How a table came to be. -/
inductive TableForm where
  -- Written in braces, complete as it stands.
  | inline
  -- Named by a header, or the document itself.
  | header
  -- Implied by the header of a table within it.
  | implied
  -- Implied by a dotted key.
  | dotted
deriving DecidableEq, Repr

/- A TOML value. -/
inductive Value where
  | string (text : Text)
  | integer (n : Int)
  | float (x : Float)
  | boolean (b : Bool)
  -- A date, a time or both, as it is written.
  | moment (written : Text)
  -- An array in brackets.
  | array (items : List Value)
  -- An array of tables, each under its own header.
  | tables (items : List Value)
  | table (form : TableForm) (entries : List (Text × Value))

/- The entries of a table, by key. -/
abbrev Entries := List (Text × Value)

/- The elements of an array of either kind. -/
def Value.elements? : Value → Option (List Value)
  | .array items => some items
  | .tables items => some items
  | _ => none

------------------------------------------------------------
-- Entries
------------------------------------------------------------

namespace Entries

/- The value under a key. -/
def get?
    (key : Text) : Entries → Option Value
  | [] => none
  | (k, v) :: rest => if k = key then some v else get? key rest

/- Change the value under a key in its place. -/
def set
    (key : Text)
    (value : Value)
    (entries : Entries) : Entries :=
  entries.map fun entry =>
    if entry.1 = key then (key, value) else entry

/- Remove a key. -/
def erase
    (key : Text)
    (entries : Entries) : Entries :=
  entries.filter fun entry => entry.1 ≠ key

end Entries

end Toml

end Collate
