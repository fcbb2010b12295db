import Collate.Text.Basic

/-
  The options of the command line: how they are written, and
  what they take.

  Key definitions include:
    * `Verb`
    * `Key`
    * `Key.kind`
    * `Topic.keys`
-/

------------------------------------------------------------
-- Verbs
------------------------------------------------------------

namespace Collate

/- What the program can be asked to do. -/
inductive Verb where
  | merge
  | run
  | coverage
deriving DecidableEq, Repr

namespace Verb

/- All verbs. -/
def all : List Verb :=
  [.merge, .run, .coverage]

/- The word for a verb. -/
def name : Verb → Text
  | .merge => "merge".toList
  | .run => "run".toList
  | .coverage => "coverage".toList

/- The verb for a word. -/
def ofName?
    (word : Text) : Option Verb :=
  all.find? fun verb => verb.name = word

end Verb

------------------------------------------------------------
-- Keys
------------------------------------------------------------

/- The options. -/
inductive Key where
  | help
  | version
  | verbose
  | output
  | moduleName
  | dryRun
  | strict
  | config
  | group
  | parallel
  | profile
  | start
deriving DecidableEq, Repr

/- What an option takes, and how often it may be given. -/
inductive Kind where
  -- Nothing; it is answered at once.
  | announcement
  -- Nothing; once at most.
  | switch
  -- A text; once at most.
  | text
  -- Texts, any number of times.
  | texts
  -- A text that is not empty; once at most.
  | path
deriving DecidableEq, Repr

namespace Key

/- What an option takes. -/
def kind : Key → Kind
  | .help => .announcement
  | .version => .announcement
  | .verbose => .switch
  | .output => .path
  | .moduleName => .text
  | .dryRun => .switch
  | .strict => .switch
  | .config => .path
  | .group => .texts
  | .parallel => .switch
  | .profile => .path
  | .start => .text

/- The long name of an option, which follows two dashes. -/
def long : Key → Text
  | .help => "help".toList
  | .version => "version".toList
  | .verbose => "verbose".toList
  | .output => "output".toList
  | .moduleName => "module".toList
  | .dryRun => "dry-run".toList
  | .strict => "strict".toList
  | .config => "config".toList
  | .group => "group".toList
  | .parallel => "parallel".toList
  | .profile => "profile".toList
  | .start => "prefix".toList

/- The letter of an option, which follows one dash. -/
def letter? : Key → Option Char
  | .help => some 'h'
  | .version => some 'V'
  | .verbose => some 'v'
  | .output => some 'o'
  | .moduleName => some 'm'
  | .config => some 'c'
  | .group => some 'g'
  | _ => none

end Key

------------------------------------------------------------
-- Topics
------------------------------------------------------------

/- Where an option stands: before a verb or after it. -/
inductive Topic where
  | program
  | verb (v : Verb)
deriving DecidableEq, Repr

namespace Topic

/- The options that may stand anywhere. -/
def sharedKeys : List Key :=
  [.verbose, .help, .version]

/- The options that may stand in a place. -/
def keys : Topic → List Key
  | .program => sharedKeys
  | .verb .merge =>
      [.output, .moduleName, .dryRun, .strict] ++ sharedKeys
  | .verb .run =>
      [.config, .group, .dryRun, .parallel, .strict] ++
        sharedKeys
  | .verb .coverage => [.profile, .start] ++ sharedKeys

/- How many words without a dash may stand in a place. -/
def operandLimit : Topic → Option Nat
  | .program => some 0
  | .verb .merge => none
  | .verb .run => some 0
  | .verb .coverage => some 1

/- The option with a long name. -/
def keyOfLong?
    (topic : Topic)
    (name : Text) : Option Key :=
  topic.keys.find? fun key => key.long = name

/- The option with a letter. -/
def keyOfLetter?
    (topic : Topic)
    (letter : Char) : Option Key :=
  topic.keys.find? fun key => key.letter? = some letter

end Topic

end Collate
