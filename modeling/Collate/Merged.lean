import Collate.Path
import Collate.Source

/-
  Several sources put together as one file.

  Key definitions include:
    * `Loaded`
    * `MergedFile`
    * `MergedFile.ofLoaded?`
    * `MergedFile.render`
-/

------------------------------------------------------------
-- Merged Files
------------------------------------------------------------

namespace Collate

/- A source and the path it was read from. -/
structure Loaded where
  path : Path
  source : Source
deriving DecidableEq

/- The body of one source. -/
structure Block where
  origin : Path
  lines : List Text
deriving DecidableEq, Repr

/- The content of a merged file. -/
structure MergedFile where
  -- The name in its module declaration.
  moduleName : Text
  -- The imports of all its sources.
  imports : ImportSet
  -- The bodies that are not empty, in the order of sources.
  blocks : List Block
deriving DecidableEq

namespace MergedFile

/- The first module declared by one of the sources. -/
def firstModule? : List Loaded → Option Text
  | [] => none
  | item :: rest =>
      match item.source.moduleName with
      | some name => some name
      | none => firstModule? rest

/- The imports of all sources. -/
def allImports
    (loaded : List Loaded) : ImportSet :=
  loaded.foldl
    (fun imports item => imports ∪ item.source.imports) ∅

/- The bodies that are not empty. -/
def allBlocks
    (loaded : List Loaded) : List Block :=
  (loaded.filter fun item => !item.source.body.isEmpty).map
    fun item => ⟨item.path, item.source.body⟩

/-
  Merge sources.  A configured module name comes before a
  declared one, and without either there is no merged file.
-/
def ofLoaded?
    (configured : Option Text)
    (loaded : List Loaded) : Option MergedFile :=
  (configured <|> firstModule? loaded).map fun name =>
    ⟨name, allImports loaded, allBlocks loaded⟩

------------------------------------------------------------
-- Layout
------------------------------------------------------------

/- The line that declares the module. -/
def declaration
    (d : Dialect)
    (m : MergedFile) : Text :=
  d.moduleKeyword.trim ++ ' ' :: m.moduleName

/- The lines of the block of imports. -/
def importLines
    (d : Dialect)
    (m : MergedFile) : List Text :=
  (d.importKeyword.trim ++ ' ' :: d.blockOpen.trim) ::
    (m.imports.toList.map (d.indent ++ ·) ++
      [d.blockClose.trim])

/-
  The sections of a merged file, each as its lines: the
  declaration, the imports if there are any, and the blocks.
-/
def sections
    (d : Dialect)
    (m : MergedFile) : List (List Text) :=
  [m.declaration d] ::
    ((if m.imports.isEmpty then [] else [m.importLines d]) ++
      m.blocks.map (·.lines))

/-
  The text of a merged file.  One empty line stands between
  neighbouring sections, and a line feed ends the text.
-/
def render
    (d : Dialect)
    (m : MergedFile) : Text :=
  Text.joinWith ['\n', '\n']
    ((m.sections d).map (Text.joinWith ['\n'])) ++ ['\n']

end MergedFile

end Collate
