import Collate.Binary64.Written
import Collate.File.Fault
import Collate.Path
import Collate.Text.Quoted
import Collate.Toml.Value

/-
  What can be wrong with a configuration, and how users are
  told.

  Key definitions include:
    * `Found`
    * `Wanted`
    * `ShapeFault`
    * `ConfigFault`
    * `ConfigFault.message`
-/

------------------------------------------------------------
-- Found and Wanted
------------------------------------------------------------

namespace Collate

/- What a value is, as far as a message tells. -/
inductive Found where
  | string (text : Text)
  | integer (n : Int)
  | float (written : Text)
  | boolean (b : Bool)
  | sequence
  | map
deriving DecidableEq, Repr

/- What a value is.  Dates and times count as maps. -/
def Toml.Value.found : Toml.Value → Found
  | .string text => .string text
  | .integer n => .integer n
  | .float x => .float (Binary64.positional x)
  | .boolean b => .boolean b
  | .moment _ => .map
  | .array _ => .sequence
  | .tables _ => .sequence
  | .table _ _ => .map

/- A name in backquotes. -/
def backquoted
    (t : Text) : Text :=
  '`' :: t ++ ['`']

/- What a value is, in words. -/
def Found.words : Found → Text
  | .string text => "string ".toList ++ text.quoted
  | .integer n => "integer ".toList ++ backquoted (Text.ofInt n)
  | .float written =>
      "floating point ".toList ++ backquoted written
  | .boolean b =>
      "boolean ".toList ++
        backquoted (if b then "true".toList else "false".toList)
  | .sequence => "sequence".toList
  | .map => "map".toList

/- What a value should have been. -/
inductive Wanted where
  | string
  | path
  | sequence
  | dialect
  | group
deriving DecidableEq, Repr

/- What a value should have been, in words. -/
def Wanted.words : Wanted → Text
  | .string => "a string".toList
  | .path => "path string".toList
  | .sequence => "a sequence".toList
  | .dialect => "struct Syntax".toList
  | .group => "struct GroupConfig".toList

------------------------------------------------------------
-- Faults of Shape
------------------------------------------------------------

/- Why a text is no configuration. -/
inductive ShapeFault where
  -- It is no TOML document.
  | malformed
  -- A table has a key that it should not have.
  | unknownField (name : Text) (known : List Text)
  -- A table lacks a key.
  | missingField (name : Text)
  -- A value is of the wrong kind.
  | wrongType (found : Found) (wanted : Wanted)
  -- An array that stands for a group has too few elements.
  | tooShort (present : Nat)
  -- A policy has a name that no policy has.
  | unknownPolicy (name : Text)
  -- A policy is neither a name nor a table with one.
  | notPolicy
deriving DecidableEq, Repr

/- What is wrong, in words. -/
def ShapeFault.words : ShapeFault → Text
  | .malformed => "not a TOML document".toList
  | .unknownField name known =>
      "unknown field ".toList ++ backquoted name ++
        ", expected one of ".toList ++
        Text.joinWith ", ".toList (known.map backquoted)
  | .missingField name =>
      "missing field ".toList ++ backquoted name
  | .wrongType found wanted =>
      "invalid type: ".toList ++ found.words ++
        ", expected ".toList ++ wanted.words
  | .tooShort present =>
      "invalid length ".toList ++ Text.ofNat present ++
        ", expected struct GroupConfig with 4 elements".toList
  | .unknownPolicy name =>
      "unknown variant ".toList ++ backquoted name ++
        ", expected `skip` or `fail`".toList
  | .notPolicy => "wanted the name of a policy".toList

------------------------------------------------------------
-- Faults of Configurations
------------------------------------------------------------

/- Why a configuration cannot be used. -/
inductive ConfigFault where
  | shape (fault : ShapeFault)
  -- A group has a blank name.
  | blankName
  -- Two groups have one name.
  | duplicateGroup (name : Text)
  -- A selected name is no group's name.
  | unknownGroup (name : Text)
  -- The file of the configuration cannot be read.
  | unreadable (path : Path) (cause : FileFault)
  -- The configuration in a file has a fault.
  | inFile (path : Path) (fault : ConfigFault)
deriving DecidableEq, Repr

namespace ConfigFault

/- What is wrong, in words. -/
def words : ConfigFault → Text
  | .shape fault => "failed to parse: ".toList ++ fault.words
  | .blankName => "group name must not be empty".toList
  | .duplicateGroup name =>
      "duplicate group '".toList ++ name ++ ['\'']
  | .unknownGroup name =>
      "no group named '".toList ++ name ++ ['\'']
  | .unreadable path cause =>
      "failed to read ".toList ++ path ++ ": ".toList ++
        cause.message
  | .inFile path fault => path ++ ": ".toList ++ fault.words

/- What is wrong, as users read it. -/
def message
    (fault : ConfigFault) : Text :=
  "config error: ".toList ++ fault.words

end ConfigFault

end Collate
