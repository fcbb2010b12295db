import Collate.Dialect

/-
  The role of a line in a source file.  No grammar of the
  language is involved: a trimmed line is compared with a
  handful of patterns made from the tokens of the dialect,
  and whatever fits none of them is code.

  Key definitions include:
    * `Region`
    * `LineRole`
    * `LineGrammar.moduleName?`
    * `LineGrammar.opensBlock`
    * `LineGrammar.singleImport?`
    * `LineGrammar.classify`
-/

------------------------------------------------------------
-- Regions and Roles
------------------------------------------------------------

namespace Collate

/- The part of a file in which a line stands. -/
inductive Region where
  -- Before the module declaration.
  | header
  -- After it, outside blocks of imports.
  | body
  -- Within a block of imports.
  | importBlock
deriving DecidableEq, Repr

/- What a line is there for. -/
inductive LineRole where
  | moduleDeclaration (name : Text)
  | blockOpen
  | blockClose
  | blockEntry (entry : Text)
  | singleImport (entry : Text)
  | headerComment
  | code
  | blank
deriving DecidableEq, Repr

------------------------------------------------------------
-- Patterns
------------------------------------------------------------

/- Letters of ASCII. -/
def isLetter
    (c : Char) : Bool :=
  ('a' ≤ c && c ≤ 'z') || ('A' ≤ c && c ≤ 'Z')

/- Characters that can begin the alias of an import. -/
def beginsAlias
    (c : Char) : Bool :=
  isLetter c || c == '_' || c == '.'

/- Characters that can follow in the alias of an import. -/
def continuesAlias
    (c : Char) : Bool :=
  isLetter c || c.isDigit || c == '_'

/- Characters of a module name. -/
def inModuleName
    (c : Char) : Bool :=
  !Text.isBlank c && c != ';'

/- What follows at least one blank at the start of a text. -/
def afterBlanks? : Text → Option Text
  | [] => none
  | c :: t =>
      if Text.isBlank c then some (Text.trimStart t) else none

/-
  The path between a quote at the start of a text and the
  next quote.  It has at least one character.
-/
def quotedPath? : Text → Option Text
  | '"' :: t =>
      let path := t.takeWhile (· != '"')
      if path.isEmpty || path.length == t.length then none
      else some path
  | _ => none

/-
  The alias at the start of a text and what follows the
  blanks behind it.
-/
def alias? : Text → Option (Text × Text)
  | [] => none
  | c :: t =>
      if beginsAlias c then
        (afterBlanks? (t.dropWhile continuesAlias)).map
          fun rest => (c :: t.takeWhile continuesAlias, rest)
      else none

/- The entry that a path without an alias stands for. -/
def plainEntry
    (path : Text) : Text :=
  '"' :: path ++ ['"']

/- The entry that an alias and a path stand for. -/
def aliasEntry
    (name path : Text) : Text :=
  name ++ ' ' :: plainEntry path

namespace LineGrammar

/-
  The name in a module declaration: the module keyword,
  blanks, and the longest run without blank and semicolon.
-/
def moduleName?
    (g : LineGrammar)
    (t : Text) : Option Text :=
  match (Text.after? g.moduleKeyword t).bind afterBlanks? with
  | none => none
  | some rest =>
      let name := rest.takeWhile inModuleName
      if name.isEmpty then none else some name

/- Whether a comment line begins here. -/
def isComment
    (g : LineGrammar)
    (t : Text) : Bool :=
  !g.comment.isEmpty && t.startsWith g.comment

/-
  Whether a line opens a block of imports: the import
  keyword and the opening token, with blanks allowed after
  both, and then nothing or a comment up to the end.
-/
def opensBlock
    (g : LineGrammar)
    (t : Text) : Bool :=
  match Text.after? g.importKeyword t with
  | none => false
  | some rest =>
      match Text.after? g.blockOpen rest.trimStart with
      | none => false
      | some rest =>
          let rest := rest.trimStart
          rest.isEmpty ||
            (g.isComment rest &&
              !(rest.drop g.comment.length).contains '\n')

/-
  The entry of an import on one line: the import keyword,
  blanks, an alias with blanks if there is one, and a path
  in quotes.  What follows the second quote is ignored.
-/
def singleImport?
    (g : LineGrammar)
    (t : Text) : Option Text :=
  match
    (Text.after? g.importKeyword t).bind afterBlanks?
  with
  | none => none
  | some rest =>
      match alias? rest with
      | some (name, rest) =>
          (quotedPath? rest).map (aliasEntry name)
      | none => (quotedPath? rest).map plainEntry

------------------------------------------------------------
-- Classification
------------------------------------------------------------

/-
  The role of a trimmed line that is neither blank nor part
  of the header, and the region after it.
-/
def classifyBody
    (g : LineGrammar)
    (t : Text) : LineRole × Region :=
  if g.opensBlock t then (.blockOpen, .importBlock)
  else
    match g.singleImport? t with
    | some entry => (.singleImport entry, .body)
    | none => (.code, .body)

/-
  The role of a line in a region, and the region of the line
  after it.
-/
def classify
    (g : LineGrammar)
    (region : Region)
    (line : Text) : LineRole × Region :=
  let t := line.trim
  match region with
  | .importBlock =>
      if t = g.blockClose then (.blockClose, .body)
      else (.blockEntry t, .importBlock)
  | .body =>
      if t.isEmpty then (.blank, .body) else g.classifyBody t
  | .header =>
      if t.isEmpty then (.blank, .header)
      else
        match g.moduleName? t with
        | some name => (.moduleDeclaration name, .body)
        | none =>
            if g.isComment t then (.headerComment, .header)
            else g.classifyBody t

/-
  The roles of successive lines, each with the line it
  belongs to.
-/
def roles
    (g : LineGrammar) : Region → List Text →
      List (Text × LineRole)
  | _, [] => []
  | region, line :: rest =>
      let (role, next) := g.classify region line
      (line, role) :: roles g next rest

end LineGrammar

end Collate
