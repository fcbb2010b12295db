import Collate.Text.Basic

/-
  Paths of files as they are written, with `/` between their
  parts.  Nothing here looks at a file tree.

  Key definitions include:
    * `Path`
    * `Path.join`
    * `Path.parent?`
    * `Path.directory`
    * `Path.stem?`
-/

------------------------------------------------------------
-- Paths
------------------------------------------------------------

namespace Collate

/- The path of a file, as it was given. -/
abbrev Path := Text

namespace Path

/- Whether a path starts at the root. -/
def isAbsolute
    (p : Path) : Bool :=
  p.head? == some '/'

/- Whether a path ends in a slash. -/
def endsInSlash
    (p : Path) : Bool :=
  p.getLast? == some '/'

/-
  A path put under a base directory.  An absolute path stays
  as it is, and nothing is simplified.
-/
def join
    (base p : Path) : Path :=
  if isAbsolute p then p
  else if base.isEmpty || endsInSlash base then base ++ p
  else base ++ '/' :: p

------------------------------------------------------------
-- Parts
------------------------------------------------------------

/- The part that names the directory it stands in. -/
def here : Text := ['.']

/- The part that names the directory above. -/
def up : Text := ['.', '.']

/- The texts between the slashes of a path. -/
def pieces
    (p : Path) : List Text :=
  Text.splitOn '/' p

/- A piece that leads nowhere. -/
def isIdle
    (piece : Text) : Bool :=
  piece.isEmpty || piece == here

/-
  The pieces of a path without those at its end that lead
  nowhere.  The first piece always stays.
-/
def dropIdleEnd : List Text → List Text
  | [] => []
  | first :: rest =>
      first :: (rest.reverse.dropWhile isIdle).reverse

/- The pieces of a path up to the last that leads somewhere. -/
def leading
    (p : Path) : List Text :=
  dropIdleEnd (pieces p)

/-
  The path without its last part, if it has one.  The parent
  of a single name is the empty path.
-/
def parent?
    (p : Path) : Option Path :=
  match leading p with
  | [] => none
  | [first] => if first.isEmpty then none else some []
  | first :: rest =>
      let kept := dropIdleEnd (first :: rest.dropLast)
      if kept = [[]] then some ['/']
      else some (Text.joinWith ['/'] kept)

/-
  The directory in which a path stands: its parent, or the
  current directory if the path does not name one.
-/
def directory
    (p : Path) : Path :=
  match parent? p with
  | some (c :: rest) => c :: rest
  | _ => here

/- The name at the end of a path, if it ends in a name. -/
def fileName?
    (p : Path) : Option Text :=
  match (leading p).getLast? with
  | none => none
  | some name =>
      if isIdle name || name == up then none else some name

/-
  A name without what follows its last point.  A point at its
  start does not count.
-/
def stemOf
    (name : Text) : Text :=
  match name.reverse.dropWhile (· != '.') with
  | [] => name
  | [_] => name
  | _ :: rest => rest.reverse

/- The name at the end of a path without its extension. -/
def stem?
    (p : Path) : Option Text :=
  (fileName? p).map stemOf

end Path

end Collate
