import Collate.File.Fault
import Collate.Path
import Collate.Text.Utf8
import Std.Data.ExtTreeMap

/-
  File trees without links, and how paths are followed in
  them.

  Key definitions include:
    * `Location`
    * `Node`
    * `FileTree`
    * `FileTree.walk`
    * `FileTree.locate`
    * `FileTree.read`
    * `FileTree.target`
    * `FileTree.write`
    * `FileTree.addDirectory`
    * `FileTree.addFile`
    * `FileTree.remove`
-/

------------------------------------------------------------
-- Trees
------------------------------------------------------------

namespace Collate

/- A place in a tree: the names on the way from its root. -/
abbrev Location := List Text

/- What stands at a place. -/
inductive Node where
  | directory
  | file (content : Octets)
deriving DecidableEq, Repr

/- Files and directories, and the current directory. -/
structure FileTree where
  current : Location
  nodes : Std.ExtTreeMap Location Node
deriving DecidableEq

namespace FileTree

/- What stands at a place.  The root is a directory. -/
def node?
    (t : FileTree) : Location → Option Node
  | [] => some .directory
  | name :: rest => t.nodes.get? (name :: rest)

/- Put a node at a place, whatever stood there before. -/
def set
    (t : FileTree)
    (place : Location)
    (node : Node) : FileTree :=
  { t with nodes := t.nodes.insert place node }

------------------------------------------------------------
-- Following Paths
------------------------------------------------------------

/- The longest name, in octets. -/
def nameLimit : Nat := 255

/- The length that a path has to stay below, in octets. -/
def pathLimit : Nat := 4096

/- Whether a name is too long for a tree. -/
def isLongName
    (name : Text) : Bool :=
  decide (nameLimit < (Utf8.encode name).length)

/- The names and dots of a path, without empty parts. -/
def steps
    (p : Path) : List Text :=
  (Path.pieces p).filter fun piece => !piece.isEmpty

/- Where following a path begins. -/
def origin
    (t : FileTree)
    (p : Path) : Location :=
  if Path.isAbsolute p then [] else t.current

/- Follow one part of a path from a place. -/
def step
    (t : FileTree)
    (place : Location)
    (part : Text) : Except FileFault Location :=
  match t.node? place with
  | none => .error .noEntry
  | some (.file _) => .error .notDirectory
  | some .directory =>
      if part = Path.here then .ok place
      else if part = Path.up then .ok place.dropLast
      else if isLongName part then .error .nameTooLong
      else if (t.node? (place ++ [part])).isNone then
        .error .noEntry
      else .ok (place ++ [part])

/- Follow the parts of a path one after another. -/
def walk
    (t : FileTree) :
    Location → List Text → Except FileFault Location
  | place, [] => .ok place
  | place, part :: rest =>
      match t.step place part with
      | .error fault => .error fault
      | .ok next => walk t next rest

/- Faults that a path has before it is followed. -/
def pathFault?
    (p : Path) : Option FileFault :=
  if p.contains (Char.ofNat 0) then some .zeroInPath
  else if p.isEmpty then some .noEntry
  else if pathLimit ≤ (Utf8.encode p).length then
    some .nameTooLong
  else none

/-
  The place to which a path leads.  A path that ends in a
  slash leads to directories only.
-/
def locate
    (t : FileTree)
    (p : Path) : Except FileFault Location :=
  match pathFault? p with
  | some fault => .error fault
  | none =>
      match t.walk (t.origin p) (steps p) with
      | .error fault => .error fault
      | .ok place =>
          if Path.endsInSlash p ∧
              t.node? place ≠ some .directory then
            .error .notDirectory
          else .ok place

------------------------------------------------------------
-- Reading
------------------------------------------------------------

/- The content of the file at the end of a path. -/
def read
    (t : FileTree)
    (p : Path) : Except FileFault Octets :=
  match t.locate p with
  | .error fault => .error fault
  | .ok place =>
      match t.node? place with
      | some (.file content) => .ok content
      | some .directory => .error .isDirectory
      | none => .error .noEntry

/- The text of the file at the end of a path. -/
def readText
    (t : FileTree)
    (p : Path) : Except FileFault Text :=
  match t.read p with
  | .error fault => .error fault
  | .ok content =>
      match Utf8.decode? content with
      | some text => .ok text
      | none => .error .notUtf8

------------------------------------------------------------
-- Writing
------------------------------------------------------------

/-
  Whether a new file can be made in the directory at the end
  of a path.
-/
def checkDirectory
    (t : FileTree)
    (p : Path) : Except FileFault Unit :=
  match t.locate p with
  | .error fault => .error fault
  | .ok place =>
      match t.node? place with
      | some .directory => .ok ()
      | some (.file _) => .error .notDirectory
      | none => .error .noEntry

/- The path of the current directory. -/
def currentPath
    (t : FileTree) : Path :=
  '/' :: Text.joinWith ['/'] t.current

/-
  The path of a new file for a content that is on its way to
  a path.  Only its length matters.
-/
def passingPath
    (t : FileTree)
    (p : Path) : Path :=
  Path.join (Path.join t.currentPath (Path.directory p))
    ".tmpXXXXXX".toList

/-
  Whether a content can be written to a new file beside what
  a path names.
-/
def checkPassing
    (t : FileTree)
    (p : Path) : Except FileFault Unit :=
  match pathFault? (t.passingPath p) with
  | some fault => .error fault
  | none => t.checkDirectory (Path.directory p)

/- Faults of a path under which a file is to be put. -/
def targetFault?
    (p : Path) : Option FileFault :=
  if p.contains (Char.ofNat 0) then some .invalidArgument
  else pathFault? p

/-
  The place at which a path names a file that can be put in
  place of what is there.
-/
def target
    (t : FileTree)
    (p : Path) : Except FileFault Location :=
  match targetFault? p with
  | some fault => .error fault
  | none =>
      match t.walk (t.origin p) (steps p).dropLast with
      | .error fault => .error fault
      | .ok place =>
          match t.node? place, (steps p).getLast? with
          | some (.file _), _ => .error .notDirectory
          | none, _ => .error .noEntry
          | some .directory, none => .error .busy
          | some .directory, some name =>
              if name = Path.here ∨ name = Path.up then
                .error .busy
              else if isLongName name then .error .nameTooLong
              else if Path.endsInSlash p then
                .error .notDirectory
              else if t.node? (place ++ [name]) =
                  some .directory then
                .error .isDirectory
              else .ok (place ++ [name])

/-
  Write a file in one step.  The content is first written to
  a new file in the directory of the path, which then takes
  the place of what the path names.
-/
def write
    (t : FileTree)
    (p : Path)
    (content : Octets) : Except FileFault FileTree :=
  match t.checkPassing p with
  | .error fault => .error fault
  | .ok () =>
      match t.target p with
      | .error fault => .error fault
      | .ok place => .ok (t.set place (.file content))

------------------------------------------------------------
-- Setting Up and Listing
------------------------------------------------------------

/-
  Follow the parts of a path from a place, and make the
  directories that are missing on the way.  Nothing is made
  beyond a part that cannot be followed.
-/
def makeWay : FileTree → Location → List Text → FileTree
  | t, _, [] => t
  | t, place, part :: rest =>
      match t.step place part with
      | .ok next => makeWay t next rest
      | .error .noEntry =>
          let next := place ++ [part]
          makeWay (t.set next .directory) next rest
      | .error _ => t

/- A tree that holds its current directory only. -/
def empty
    (current : Location) : FileTree :=
  makeWay ⟨current, ∅⟩ [] current

/-
  Make the directory of a path, and those above it.  A path
  that ends in a single dot makes only those above it.
-/
def addDirectory
    (t : FileTree)
    (p : Path) : FileTree :=
  let way :=
    if (steps p).getLast? = some Path.here then
      steps (Path.directory p)
    else steps p
  t.makeWay [] (t.origin p ++ way)

/-
  Put a file at the end of a path, and make the directories
  above it.  A path that cannot name a file gets none.
-/
def addFile
    (t : FileTree)
    (p : Path)
    (content : Octets) : FileTree :=
  let made := t.addDirectory (Path.directory p)
  match made.target p with
  | .error _ => made
  | .ok place => made.set place (.file content)

/- Whether the last part of a path is made of dots. -/
def endsInDots
    (p : Path) : Bool :=
  match (steps p).getLast? with
  | some part => part = Path.here || part = Path.up
  | none => false

/-
  Remove what a path leads to and everything below it.  A
  directory that the path names by dots is emptied and stays.
-/
def remove
    (t : FileTree)
    (p : Path) : FileTree :=
  match t.locate p with
  | .error _ => t
  | .ok place =>
      { t with
        nodes := t.nodes.filter fun other _ =>
          !place.isPrefixOf other ||
            (endsInDots p && other == place) }

/-
  Everything below the current directory, by relative path in
  ascending order.
-/
def listing
    (t : FileTree) : List (Path × Node) :=
  let below := t.nodes.toList.filterMap fun (place, node) =>
    if t.current.isPrefixOf place ∧ place ≠ t.current then
      some
        (Text.joinWith ['/'] (place.drop t.current.length),
          node)
    else none
  below.mergeSort fun a b => Text.before a.1 b.1

end FileTree

end Collate
