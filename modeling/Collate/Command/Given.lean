import Collate.Command.Key

/-
  The words of a command line, sorted into options and
  operands.

  Words are taken in order.  The first word that is out of
  place, or that asks for an announcement, ends the reading.

  Key definitions include:
    * `Word`
    * `Given`
    * `Stop`
    * `Given.read`
    * `Given.readVerb`
-/

------------------------------------------------------------
-- Words
------------------------------------------------------------

namespace Collate

/- What a word looks like. -/
inductive Word where
  -- Two dashes: all words behind it are operands.
  | divider
  -- A long name, with a value behind an equals sign or none.
  | long (name : Text) (value : Option Text)
  -- Letters behind one dash.
  | letters (letters : Text)
  | operand
deriving DecidableEq, Repr

namespace Word

/- A long name without the value behind an equals sign. -/
def longName
    (t : Text) : Text :=
  t.takeWhile (· != '=')

/- The value behind the first equals sign. -/
def longValue?
    (t : Text) : Option Text :=
  match t.dropWhile (· != '=') with
  | [] => none
  | _ :: value => some value

/- What a word looks like.  A lone dash is an operand. -/
def ofText : Text → Word
  | ['-', '-'] => .divider
  | '-' :: '-' :: t => .long (longName t) (longValue? t)
  | ['-'] => .operand
  | '-' :: t => .letters t
  | _ => .operand

end Word

------------------------------------------------------------
-- What Is Given
------------------------------------------------------------

/- Options and operands, in the order of the command line. -/
structure Given where
  switches : List Key
  values : List (Key × Text)
  operands : List Text
deriving DecidableEq, Repr

/- Why reading a command line ended early. -/
inductive Stop where
  -- The words are no command.
  | usage
  -- An announcement is asked for.
  | announce (topic : Topic) (key : Key)
deriving DecidableEq, Repr

namespace Given

/- Nothing at all. -/
def none : Given :=
  ⟨[], [], []⟩

/- Whether a switch is given. -/
def has
    (g : Given)
    (key : Key) : Bool :=
  g.switches.contains key

/- All values of an option. -/
def valuesOf
    (g : Given)
    (key : Key) : List Text :=
  (g.values.filter fun item => item.1 = key).map (·.2)

/- The value of an option. -/
def value?
    (g : Given)
    (key : Key) : Option Text :=
  (g.valuesOf key).head?

/- One more switch, which must not be there yet. -/
def addSwitch
    (g : Given)
    (key : Key) : Except Stop Given :=
  if g.has key then .error .usage
  else .ok { g with switches := g.switches ++ [key] }

/- Whether an option takes a value, as it stands. -/
def admits
    (g : Given)
    (key : Key)
    (value : Text) : Bool :=
  match key.kind with
  | .announcement => false
  | .switch => false
  | .texts => true
  | .text => (g.value? key).isNone
  | .path => (g.value? key).isNone && !value.isEmpty

/- One more value of an option. -/
def addValue
    (g : Given)
    (key : Key)
    (value : Text) : Except Stop Given :=
  if g.admits key value then
    .ok { g with values := g.values ++ [(key, value)] }
  else .error .usage

/- Whether there is room for one more operand. -/
def hasRoom
    (g : Given)
    (topic : Topic) : Bool :=
  match topic.operandLimit with
  | some limit => decide (g.operands.length < limit)
  | .none => true

/- One more operand, which must not be empty. -/
def addOperand
    (g : Given)
    (topic : Topic)
    (word : Text) : Except Stop Given :=
  if !word.isEmpty && g.hasRoom topic then
    .ok { g with operands := g.operands ++ [word] }
  else .error .usage

/- Operands to the end. -/
def addOperands
    (topic : Topic) : Given → List Text → Except Stop Given
  | g, [] => .ok g
  | g, word :: rest => do
      let g ← g.addOperand topic word
      addOperands topic g rest

------------------------------------------------------------
-- Options
------------------------------------------------------------

/-
  One option with the value attached to it, if any.  An option
  that still needs its value is handed back.
-/
def addOption
    (topic : Topic)
    (g : Given)
    (key : Key)
    (value : Option Text) : Except Stop (Given × Option Key) :=
  match key.kind, value with
  | .announcement, .none => .error (.announce topic key)
  | .announcement, some _ => .error .usage
  | .switch, .none => do
      let g ← g.addSwitch key
      return (g, .none)
  | .switch, some _ => .error .usage
  | _, .none => .ok (g, some key)
  | _, some text => do
      let g ← g.addValue key text
      return (g, .none)

/- The value attached to a letter. -/
def attached? : Text → Option Text
  | [] => .none
  | '=' :: value => some value
  | value => some value

/-
  Letters behind one dash.  The first one that takes a value
  takes all that follows, less an equals sign.
-/
def addLetters
    (topic : Topic) :
    Given → Text → Except Stop (Given × Option Key)
  | g, [] => .ok (g, .none)
  | g, letter :: rest =>
      match topic.keyOfLetter? letter with
      | .none => .error .usage
      | some key =>
          match key.kind with
          | .announcement => .error (.announce topic key)
          | .switch => do
              let g ← g.addSwitch key
              addLetters topic g rest
          | _ => addOption topic g key (attached? rest)

------------------------------------------------------------
-- Reading
------------------------------------------------------------

/- The value of an option that still needs one. -/
def addPending
    (g : Given)
    (key : Key)
    (word : Text) : Except Stop Given :=
  if Word.ofText word = .operand then g.addValue key word
  else .error .usage

/-
  Read the words behind a verb.  The first argument is the
  option whose value is the next word, if there is one.
-/
def read
    (topic : Topic) :
    Option Key → Given → List Text → Except Stop Given
  | .none, g, [] => .ok g
  | some _, _, [] => .error .usage
  | some key, g, word :: rest => do
      let g ← g.addPending key word
      read topic .none g rest
  | .none, g, word :: rest =>
      match Word.ofText word with
      | .divider => addOperands topic g rest
      | .operand => do
          let g ← g.addOperand topic word
          read topic .none g rest
      | .letters letters => do
          let (g, pending) ← addLetters topic g letters
          read topic pending g rest
      | .long name value =>
          match topic.keyOfLong? name with
          | .none => .error .usage
          | some key => do
              let (g, pending) ← addOption topic g key value
              read topic pending g rest

/- The topic that help is asked for. -/
def helpTopic : List Text → Except Stop Topic
  | [] => .ok .program
  | [word] =>
      match Verb.ofName? word with
      | some verb => .ok (.verb verb)
      | .none => .error .usage
  | _ => .error .usage

/-
  Read up to the verb.  Answers with the verb, what is given
  before it, and the words behind it.
-/
def readVerb :
    Given → List Text → Except Stop (Verb × Given × List Text)
  | _, [] => .error .usage
  | g, word :: rest =>
      match Word.ofText word with
      | .divider => .error .usage
      | .letters letters => do
          let (g, _) ← addLetters .program g letters
          readVerb g rest
      | .long name value =>
          match Topic.program.keyOfLong? name with
          | .none => .error .usage
          | some key => do
              let (g, _) ← addOption .program g key value
              readVerb g rest
      | .operand =>
          if word = Key.help.long then do
            let topic ← helpTopic rest
            .error (.announce topic .help)
          else
            match Verb.ofName? word with
            | some verb => .ok (verb, g, rest)
            | .none => .error .usage

end Given

end Collate
