import Collate.Text.Blank

/-
  The tokens of a source language that matter for merging
  its files: how a module is declared, how imports are
  written, how a comment line begins.

  Key definitions include:
    * `Dialect`
    * `Dialect.go`
    * `Token`
    * `LineGrammar`
    * `Dialect.accept`
-/

------------------------------------------------------------
-- Dialects
------------------------------------------------------------

namespace Collate

/-
  The tokens as they are configured.  White space around a
  token other than the indent is not part of it.
-/
structure Dialect where
  -- Keyword before the name of the module.
  moduleKeyword : Text
  -- Keyword before an import or a block of imports.
  importKeyword : Text
  -- Token after the import keyword that opens a block.
  blockOpen : Text
  -- Line that closes a block of imports.
  blockClose : Text
  -- Start of a comment line.
  commentMark : Text
  -- Written before each entry of a block of imports.
  indent : Text
deriving DecidableEq, Repr

/- The tokens of Go source files. -/
def Dialect.go : Dialect where
  moduleKeyword := "package".toList
  importKeyword := "import".toList
  blockOpen := "(".toList
  blockClose := ")".toList
  commentMark := "//".toList
  indent := "\t".toList

------------------------------------------------------------
-- Tokens by Name
------------------------------------------------------------

/- The tokens of a dialect, by name. -/
inductive Token where
  | moduleKeyword
  | importKeyword
  | blockOpen
  | blockClose
  | commentMark
  | indent
deriving DecidableEq, Repr

namespace Token

/- All tokens, in the order of their configuration. -/
def all : List Token :=
  [ .moduleKeyword, .importKeyword, .blockOpen, .blockClose,
    .commentMark, .indent ]

/-
  The tokens that a usable dialect cannot leave blank, in the
  order in which they are checked.
-/
def required : List Token :=
  [.moduleKeyword, .importKeyword, .blockOpen, .blockClose]

/- The key under which a token is configured. -/
def key : Token → Text
  | .moduleKeyword => "module_keyword".toList
  | .importKeyword => "import_keyword".toList
  | .blockOpen => "block_open".toList
  | .blockClose => "block_close".toList
  | .commentMark => "comment_prefix".toList
  | .indent => "indent".toList

/- The token that is configured under a key. -/
def ofKey?
    (k : Text) : Option Token :=
  all.find? fun token => token.key = k

/- What is wrong when a required token is blank. -/
def blankMessage
    (token : Token) : Text :=
  "invalid syntax: ".toList ++ token.key ++
    " must not be empty".toList

end Token

namespace Dialect

/- The text of a token. -/
def get
    (d : Dialect) : Token → Text
  | .moduleKeyword => d.moduleKeyword
  | .importKeyword => d.importKeyword
  | .blockOpen => d.blockOpen
  | .blockClose => d.blockClose
  | .commentMark => d.commentMark
  | .indent => d.indent

/- Replace the text of a token. -/
def set
    (d : Dialect)
    (token : Token)
    (text : Text) : Dialect :=
  match token with
  | .moduleKeyword => { d with moduleKeyword := text }
  | .importKeyword => { d with importKeyword := text }
  | .blockOpen => { d with blockOpen := text }
  | .blockClose => { d with blockClose := text }
  | .commentMark => { d with commentMark := text }
  | .indent => { d with indent := text }

end Dialect

------------------------------------------------------------
-- Line Grammars
------------------------------------------------------------

/-
  The trimmed tokens by which lines are recognized.  An
  empty comment token means that there are no comments.
-/
structure LineGrammar where
  moduleKeyword : Text
  importKeyword : Text
  blockOpen : Text
  blockClose : Text
  comment : Text
deriving DecidableEq, Repr

namespace Dialect

/- The trimmed tokens of a dialect. -/
def grammar
    (d : Dialect) : LineGrammar where
  moduleKeyword := d.moduleKeyword.trim
  importKeyword := d.importKeyword.trim
  blockOpen := d.blockOpen.trim
  blockClose := d.blockClose.trim
  comment := d.commentMark.trim

/- The first required token that is blank, if there is one. -/
def firstBlank?
    (d : Dialect) : Option Token :=
  Token.required.find? fun token => (d.get token).allBlank

/-
  A dialect without blank required tokens can be used.  Lines
  are read without patterns, so the refusal of a pattern that
  is too large to compile, which takes tokens of hundreds of
  thousands of characters, is left out.
-/
def accept
    (d : Dialect) : Except Token LineGrammar :=
  match d.firstBlank? with
  | some token => .error token
  | none => .ok d.grammar

end Dialect

end Collate
