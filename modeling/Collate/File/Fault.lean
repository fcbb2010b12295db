import Collate.Text.Basic

/-
  The reasons for which a file cannot be read or written.

  Key definitions include:
    * `FileFault`
    * `FileFault.message`
-/

------------------------------------------------------------
-- File Faults
------------------------------------------------------------

namespace Collate

/- Why reading or writing a file failed. -/
inductive FileFault where
  -- A part of the path does not exist.
  | noEntry
  -- A part that should be a directory is a file.
  | notDirectory
  -- A directory stands where a file is needed.
  | isDirectory
  -- The path ends in a part that cannot be replaced.
  | busy
  -- A name or the whole path is too long.
  | nameTooLong
  -- The path holds a zero character.
  | zeroInPath
  -- The path cannot be handed to the system.
  | invalidArgument
  -- The content is no text.
  | notUtf8
  -- Anything else, in the words of the system.
  | other (words : Text)
deriving DecidableEq, Repr

namespace FileFault

/- The system's words for a fault, with its number. -/
def system
    (words : String)
    (number : Nat) : Text :=
  words.toList ++ " (os error ".toList ++
    Text.ofNat number ++ [')']

/- What is wrong, as users read it. -/
def message : FileFault → Text
  | .noEntry => system "No such file or directory" 2
  | .notDirectory => system "Not a directory" 20
  | .isDirectory => system "Is a directory" 21
  | .busy => system "Device or resource busy" 16
  | .nameTooLong => system "File name too long" 36
  | .zeroInPath =>
      "file name contained an unexpected NUL byte".toList
  | .invalidArgument => system "Invalid argument" 22
  | .notUtf8 => "stream did not contain valid UTF-8".toList
  | .other words => words

end FileFault

end Collate
