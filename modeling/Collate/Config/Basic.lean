import Collate.Config.Fault
import Collate.Group
import Collate.Toml.Document

/-
  Configurations of merge runs, and how they are read from
  TOML documents.

  Key definitions include:
    * `Config`
    * `Config.ofEntries`
    * `Config.checkNames`
    * `Config.ofText`
    * `Config.load`
    * `Config.resolve`
-/

------------------------------------------------------------
-- Configurations
------------------------------------------------------------

namespace Collate

/- The groups of a project and how they are merged. -/
structure Config where
  -- The module of groups that configure none.
  moduleName : Option Text
  onMissing : MissingPolicy
  dialect : Dialect
  -- The groups, with paths as they are written.
  groups : List MergeGroup
deriving DecidableEq, Repr

/- The configuration of an empty document. -/
def Config.standard : Config where
  moduleName := none
  onMissing := .skip
  dialect := .go
  groups := []

namespace Config

------------------------------------------------------------
-- Values
------------------------------------------------------------

/- The text of a string. -/
def textOf
    (wanted : Wanted) : Toml.Value → Except ShapeFault Text
  | .string text => .ok text
  | value => .error (.wrongType value.found wanted)

/- Read values one after another. -/
def readAll
    {α : Type}
    (read : Toml.Value → Except ShapeFault α) :
    List Toml.Value → Except ShapeFault (List α)
  | [] => .ok []
  | value :: rest => do
      let first ← read value
      let others ← readAll read rest
      return first :: others

/- Read the elements of an array. -/
def listOf
    {α : Type}
    (read : Toml.Value → Except ShapeFault α)
    (value : Toml.Value) : Except ShapeFault (List α) :=
  match value.elements? with
  | some items => readAll read items
  | none => .error (.wrongType value.found .sequence)

/- Take in the entries of a table one after another. -/
def readEntries
    {σ : Type}
    (take : σ → Text × Toml.Value → Except ShapeFault σ) :
    σ → Toml.Entries → Except ShapeFault σ
  | s, [] => .ok s
  | s, entry :: rest => do
      let s ← take s entry
      readEntries take s rest

/- The one key of a date or time when it is read as a map. -/
def momentKey : Text :=
  "$__toml_private_datetime".toList

------------------------------------------------------------
-- Policies
------------------------------------------------------------

/- The policy with a name. -/
def policyNamed
    (name : Text) : Except ShapeFault MissingPolicy :=
  match MissingPolicy.ofKey? name with
  | some policy => .ok policy
  | none => .error (.unknownPolicy name)

/- Whether a value is an empty table or array. -/
def isEmptyValue : Toml.Value → Bool
  | .array items => items.isEmpty
  | .tables items => items.isEmpty
  | .table _ entries => entries.isEmpty
  | _ => false

/-
  A policy: its name, or a table in which its name is the
  only key and has an empty value.
-/
def readPolicy : Toml.Value → Except ShapeFault MissingPolicy
  | .string name => policyNamed name
  | .table _ [(name, value)] => do
      let policy ← policyNamed name
      if isEmptyValue value then return policy
      else .error .notPolicy
  | _ => .error .notPolicy

------------------------------------------------------------
-- Dialects
------------------------------------------------------------

/- The keys of a dialect. -/
def dialectKeys : List Text :=
  Token.all.map Token.key

/- Take in one token of a dialect. -/
def takeToken
    (d : Dialect)
    (entry : Text × Toml.Value) : Except ShapeFault Dialect :=
  match Token.ofKey? entry.1 with
  | none => .error (.unknownField entry.1 dialectKeys)
  | some token => do
      let text ← textOf .string entry.2
      return d.set token text

/- Take in the tokens of a dialect in order. -/
def takeTokens
    (d : Dialect) :
    List Token → List Toml.Value → Except ShapeFault Dialect
  | token :: tokens, value :: values => do
      let text ← textOf .string value
      takeTokens (d.set token text) tokens values
  | _, _ => .ok d

/-
  A dialect, as a table or as an array of its tokens.  Tokens
  that are not given are those of Go.
-/
def readDialect : Toml.Value → Except ShapeFault Dialect
  | .table _ entries => readEntries takeToken .go entries
  | .array items => takeTokens .go Token.all items
  | .tables items => takeTokens .go Token.all items
  | .moment _ => .error (.unknownField momentKey dialectKeys)
  | value => .error (.wrongType value.found .dialect)

------------------------------------------------------------
-- Groups
------------------------------------------------------------

/- The fields of a group. -/
inductive GroupField where
  | name
  | inputs
  | output
  | moduleName
deriving DecidableEq, Repr

namespace GroupField

/- All fields, in order. -/
def all : List GroupField :=
  [.name, .inputs, .output, .moduleName]

/- The key of a field. -/
def key : GroupField → Text
  | .name => "name".toList
  | .inputs => "inputs".toList
  | .output => "output".toList
  | .moduleName => "module".toList

/- The field with a key. -/
def ofKey?
    (k : Text) : Option GroupField :=
  all.find? fun field => field.key = k

end GroupField

/- The keys of a group. -/
def groupKeys : List Text :=
  GroupField.all.map GroupField.key

/- A group of which some fields are known. -/
structure GroupDraft where
  name : Option Text
  inputs : Option (List Path)
  output : Option Path
  moduleName : Option Text
deriving DecidableEq, Repr

/- A group of which nothing is known. -/
def GroupDraft.none : GroupDraft :=
  ⟨.none, .none, .none, .none⟩

/- Take in one field of a group. -/
def takeGroupField
    (draft : GroupDraft)
    (field : GroupField)
    (value : Toml.Value) : Except ShapeFault GroupDraft :=
  match field with
  | .name => do
      let text ← textOf .string value
      return { draft with name := some text }
  | .inputs => do
      let paths ← listOf (textOf .path) value
      return { draft with inputs := some paths }
  | .output => do
      let path ← textOf .path value
      return { draft with output := some path }
  | .moduleName => do
      let text ← textOf .string value
      return { draft with moduleName := some text }

/- Take in one entry of the table of a group. -/
def takeGroupEntry
    (draft : GroupDraft)
    (entry : Text × Toml.Value) : Except ShapeFault GroupDraft :=
  match GroupField.ofKey? entry.1 with
  | none => .error (.unknownField entry.1 groupKeys)
  | some field => takeGroupField draft field entry.2

/- Take in the fields of a group in order. -/
def takeGroupFields
    (draft : GroupDraft) :
    List GroupField → List Toml.Value →
      Except ShapeFault GroupDraft
  | field :: fields, value :: values => do
      let draft ← takeGroupField draft field value
      takeGroupFields draft fields values
  | _, _ => .ok draft

/-
  The group of a draft.  The first required field that is
  unknown is reported by `missing`.
-/
def completeGroup
    (missing : GroupField → ShapeFault)
    (draft : GroupDraft) : Except ShapeFault MergeGroup :=
  match draft.name, draft.inputs, draft.output with
  | none, _, _ => .error (missing .name)
  | _, none, _ => .error (missing .inputs)
  | _, _, none => .error (missing .output)
  | some name, some inputs, some output =>
      .ok ⟨name, inputs, output, draft.moduleName⟩

/- A group as an array of its fields. -/
def readGroupFields
    (items : List Toml.Value) : Except ShapeFault MergeGroup := do
  let draft ← takeGroupFields .none GroupField.all items
  completeGroup (fun _ => .tooShort items.length) draft

/- A group, as a table or as an array of its fields. -/
def readGroup : Toml.Value → Except ShapeFault MergeGroup
  | .table _ entries => do
      let draft ← readEntries takeGroupEntry .none entries
      completeGroup (fun field => .missingField field.key) draft
  | .array items => readGroupFields items
  | .tables items => readGroupFields items
  | .moment _ => .error (.unknownField momentKey groupKeys)
  | value => .error (.wrongType value.found .group)

------------------------------------------------------------
-- Documents
------------------------------------------------------------

/- The fields of a configuration. -/
inductive ConfigField where
  | moduleName
  | onMissing
  | dialect
  | groups
deriving DecidableEq, Repr

namespace ConfigField

/- All fields, in order. -/
def all : List ConfigField :=
  [.moduleName, .onMissing, .dialect, .groups]

/- The key of a field. -/
def key : ConfigField → Text
  | .moduleName => "module".toList
  | .onMissing => "on_missing".toList
  | .dialect => "syntax".toList
  | .groups => "group".toList

/- The field with a key. -/
def ofKey?
    (k : Text) : Option ConfigField :=
  all.find? fun field => field.key = k

end ConfigField

/- The keys of a configuration. -/
def configKeys : List Text :=
  ConfigField.all.map ConfigField.key

/- Take in one entry of a document. -/
def takeEntry
    (c : Config)
    (entry : Text × Toml.Value) : Except ShapeFault Config :=
  match ConfigField.ofKey? entry.1 with
  | none => .error (.unknownField entry.1 configKeys)
  | some .moduleName => do
      let text ← textOf .string entry.2
      return { c with moduleName := some text }
  | some .onMissing => do
      let policy ← readPolicy entry.2
      return { c with onMissing := policy }
  | some .dialect => do
      let dialect ← readDialect entry.2
      return { c with dialect := dialect }
  | some .groups => do
      let groups ← listOf readGroup entry.2
      return { c with groups := groups }

/-
  The configuration in a document.  Its entries are read in
  the order of the document, and the first fault ends the
  reading.
-/
def ofEntries
    (entries : Toml.Entries) : Except ShapeFault Config :=
  readEntries takeEntry .standard entries

/-
  Check the names of groups: none is blank, and none is among
  those before it.
-/
def checkNames : List Text → List MergeGroup → Option ConfigFault
  | _, [] => none
  | seen, g :: rest =>
      if g.name.allBlank then some .blankName
      else if g.name ∈ seen then some (.duplicateGroup g.name)
      else checkNames (g.name :: seen) rest

/- The configuration in a text. -/
def ofText
    (text : Text) : Except ConfigFault Config :=
  match Toml.parse? text with
  | none => .error (.shape .malformed)
  | some entries =>
      match ofEntries entries with
      | .error fault => .error (.shape fault)
      | .ok config =>
          match checkNames [] config.groups with
          | some fault => .error fault
          | none => .ok config

/- The configuration in a file that was or was not read. -/
def ofFile
    (path : Path) :
    Except FileFault Text → Except ConfigFault Config
  | .error cause => .error (.unreadable path cause)
  | .ok text =>
      match ofText text with
      | .error fault => .error (.inFile path fault)
      | .ok config => .ok config

/- Read the configuration in a file. -/
def load
    (path : Path) : FileJob (Except ConfigFault Config) :=
  .read path fun got => .done (ofFile path got)

------------------------------------------------------------
-- Use
------------------------------------------------------------

/- The name under which a configuration is looked for. -/
def standardPath : Path :=
  "stitch.toml".toList

/- The options that a configuration asks for. -/
def options
    (c : Config)
    (dryRun : Bool) : Options where
  dialect := c.dialect
  defaultModule := c.moduleName
  onMissing := c.onMissing
  dryRun := dryRun

/- A group with its paths put under a base directory. -/
def resolveGroup
    (base : Path)
    (g : MergeGroup) : MergeGroup :=
  { g with
    inputs := g.inputs.map (Path.join base)
    output := Path.join base g.output }

/- Whether a group has a name. -/
def hasGroup
    (c : Config)
    (name : Text) : Bool :=
  c.groups.any fun g => g.name = name

/-
  The groups to be run, in the order of the configuration,
  with their paths put under a base directory.  Without a
  selection all groups are run, and a selected name that is
  no group's name is a fault.
-/
def resolve
    (c : Config)
    (base : Path)
    (selected : List Text) :
    Except ConfigFault (List MergeGroup) :=
  match selected.find? fun name => !c.hasGroup name with
  | some name => .error (.unknownGroup name)
  | none =>
      .ok
        ((c.groups.filter fun g =>
          selected.isEmpty || selected.contains g.name).map
            (resolveGroup base))

end Config

end Collate
