import Collate.Proofs.Config
import Collate.Proofs.Fields
import Collate.Proofs.Toml.Rearrangement
import Mathlib.Tactic.MkIffOfInductiveProp

/-
  The documents that are accepted as configurations.  What a
  document has to be like is said here table by table, and so
  is what the configuration in it holds.

  Key definitions include:
    * `Config.IsText`
    * `Config.NamesPolicy`
    * `Config.IsDialect`
    * `Config.IsGroup`
    * `Config.Tabular`
    * `Config.Admissible`
    * `Config.Holds`

  Main declarations:
    * `Config.readPolicy_eq_ok_iff`
    * `Config.readDialect_eq_ok_iff`
    * `Config.readGroup_eq_ok_iff`
    * `Config.ofEntries_eq_ok_iff`
    * `Config.exists_ofEntries_iff`
    * `Config.ofText_eq_ok_iff_holds`
    * `Config.exists_ofText_iff`
-/

------------------------------------------------------------
-- Values of Fields
------------------------------------------------------------

namespace Collate

namespace Config

/- A value that is a string. -/
def IsText
    (value : Toml.Value) : Prop :=
  ∃ text, value.text? = some text

/- A value that is an array of strings. -/
def IsTexts
    (value : Toml.Value) : Prop :=
  ∃ items,
    value.elements? = some items ∧ ∀ item ∈ items, IsText item

/-
  A value that names a policy.  A variant without content is
  written as its name, or as the one key of a table in which
  it has an empty value.
-/
inductive NamesPolicy
    (policy : MissingPolicy) : Toml.Value → Prop where
  | name : NamesPolicy policy (.string policy.key)
  | table
      {form : Toml.TableForm}
      {value : Toml.Value}
      (hEmpty :
        value.elements? = some [] ∨ value.table? = some []) :
      NamesPolicy policy (.table form [(policy.key, value)])

/- A table of tokens. -/
def IsDialect
    (value : Toml.Value) : Prop :=
  ∃ entries,
    value.table? = some entries ∧
      Typed Token.key (fun _ => IsText) entries

/- What a field of a group has to be. -/
def GroupField.Fits : GroupField → Toml.Value → Prop
  | .name => IsText
  | .inputs => IsTexts
  | .output => IsText
  | .moduleName => IsText

/- The entries of a group.  Only its module may be left out. -/
structure GroupEntries
    (entries : Toml.Entries) : Prop where
  typed : Typed GroupField.key GroupField.Fits entries
  complete :
    ∀ field, field ≠ GroupField.moduleName →
      field.key ∈ entries.map (·.1)

/- A table with the entries of a group. -/
def IsGroup
    (value : Toml.Value) : Prop :=
  ∃ entries, value.table? = some entries ∧ GroupEntries entries

/- What a field of a configuration has to be. -/
def ConfigField.Fits : ConfigField → Toml.Value → Prop
  | .moduleName, value => IsText value
  | .onMissing, value => ∃ policy, NamesPolicy policy value
  | .dialect, value => IsDialect value
  | .groups, value =>
      ∃ items,
        value.elements? = some items ∧
          ∀ item ∈ items, IsGroup item

------------------------------------------------------------
-- Admissible Documents
------------------------------------------------------------

/- Dialects and groups that are not written as arrays. -/
@[mk_iff]
structure Tabular
    (entries : Toml.Entries) : Prop where
  dialect :
    ∀ value, entries.get? ConfigField.dialect.key = some value →
      value.elements? = none
  groups :
    ∀ item ∈ entries.items ConfigField.groups.key,
      item.elements? = none

/- The name in the table of a group. -/
def nameIn?
    (item : Toml.Value) : Option Text :=
  item.table?.bind (Toml.Entries.text? GroupField.name.key)

/- The names of the groups in a document. -/
def namesIn
    (entries : Toml.Entries) : List Text :=
  (entries.items ConfigField.groups.key).filterMap nameIn?

/- A document that holds a configuration. -/
@[mk_iff]
structure Admissible
    (entries : Toml.Entries) : Prop where
  typed : Typed ConfigField.key ConfigField.Fits entries
  named : ∀ name ∈ namesIn entries, name.allBlank = false
  distinct : (namesIn entries).Nodup

------------------------------------------------------------
-- What Documents Hold
------------------------------------------------------------

/- Each token is the one that is given, or else that of Go. -/
def DialectHolds
    (entries : Toml.Entries)
    (d : Dialect) : Prop :=
  ∀ token,
    d.get token =
      (entries.text? token.key).getD (Dialect.go.get token)

/- The group in a table. -/
@[mk_iff]
structure GroupHolds
    (entries : Toml.Entries)
    (g : MergeGroup) : Prop where
  name : entries.text? GroupField.name.key = some g.name
  inputs :
    (entries.items GroupField.inputs.key).map Toml.Value.text? =
      g.inputs.map some
  output : entries.text? GroupField.output.key = some g.output
  moduleName :
    entries.text? GroupField.moduleName.key = g.moduleName

/- The configuration in a document. -/
@[mk_iff]
structure Holds
    (entries : Toml.Entries)
    (c : Config) : Prop where
  moduleName :
    entries.text? ConfigField.moduleName.key = c.moduleName
  policy :
    ∀ value,
      entries.get? ConfigField.onMissing.key = some value →
        NamesPolicy c.onMissing value
  noPolicy :
    entries.get? ConfigField.onMissing.key = none →
      c.onMissing = .skip
  dialect :
    DialectHolds (entries.inner ConfigField.dialect.key)
      c.dialect
  -- The groups stand in the order of the document.
  groups :
    List.Forall₂
      (fun item g =>
        ∃ table, item.table? = some table ∧ GroupHolds table g)
      (entries.items ConfigField.groups.key) c.groups

------------------------------------------------------------
-- Readers of Values
------------------------------------------------------------

variable {α : Type}
variable {value : Toml.Value}
variable {entries : Toml.Entries}

theorem textOf_eq_ok_iff
    {wanted : Wanted}
    {text : Text} :
    textOf wanted value = .ok text ↔ value.text? = some text := by
  cases value <;> simp [textOf, Toml.Value.text?]

theorem readAll_eq_ok_iff
    {read : Toml.Value → Except ShapeFault α}
    {items : List Toml.Value}
    {xs : List α} :
    readAll read items = .ok xs ↔
      List.Forall₂ (fun item x => read item = .ok x) items xs := by
  induction items generalizing xs with
  | nil => simp [readAll, eq_comm]
  | cons item items ih =>
      rw [List.forall₂_cons_left_iff]
      simp only [← ih, readAll]
      cases read item with
      | error fault => simp [bind, Except.bind]
      | ok x =>
          cases readAll read items with
          | error fault => simp [bind, Except.bind]
          | ok others =>
              simp [bind, Except.bind, pure, Except.pure, eq_comm]

theorem exists_readAll_iff
    {read : Toml.Value → Except ShapeFault α}
    {items : List Toml.Value} :
    (∃ xs, readAll read items = .ok xs) ↔
      ∀ item ∈ items, ∃ x, read item = .ok x := by
  simp only [readAll_eq_ok_iff]
  induction items with
  | nil => simp
  | cons item items ih =>
      rw [List.forall_mem_cons, ← ih]
      constructor
      · rintro ⟨xs, hXs⟩
        cases hXs with
        | cons hFirst hRest => exact ⟨⟨_, hFirst⟩, _, hRest⟩
      · rintro ⟨⟨x, hFirst⟩, xs, hRest⟩
        exact ⟨x :: xs, .cons hFirst hRest⟩

theorem listOf_eq_ok_iff
    {read : Toml.Value → Except ShapeFault α}
    {xs : List α} :
    listOf read value = .ok xs ↔
      ∃ items,
        value.elements? = some items ∧
          List.Forall₂ (fun item x => read item = .ok x)
            items xs := by
  unfold listOf
  cases value.elements? with
  | none => simp
  | some items => simp [readAll_eq_ok_iff]

theorem exists_listOf_iff
    {read : Toml.Value → Except ShapeFault α} :
    (∃ xs, listOf read value = .ok xs) ↔
      ∃ items,
        value.elements? = some items ∧
          ∀ item ∈ items, ∃ x, read item = .ok x := by
  unfold listOf
  cases value.elements? with
  | none => simp
  | some items => simp [exists_readAll_iff]

/- Texts are read one by one. -/
theorem forall₂_textOf_iff
    {wanted : Wanted}
    {items : List Toml.Value}
    {texts : List Text} :
    List.Forall₂
        (fun item text => textOf wanted item = .ok text)
        items texts ↔
      items.map Toml.Value.text? = texts.map some := by
  simp only [textOf_eq_ok_iff]
  induction items generalizing texts with
  | nil => cases texts <;> simp
  | cons item items ih =>
      cases texts with
      | nil => simp
      | cons text texts => simp [ih]

theorem map_some_eq_ok_iff
    {result : Except ShapeFault α}
    {x : Option α} :
    result.map some = .ok x ↔ ∃ a, result = .ok a ∧ x = some a := by
  cases result <;> simp [Except.map, eq_comm]

/- A text that may be left out. -/
theorem told_text_iff
    {wanted : Wanted}
    {found : Option Toml.Value}
    (hFits : ∀ value, found = some value → IsText value)
    {x : Option Text} :
    Told (fun value => (textOf wanted value).map some) none
        found x ↔
      found.bind Toml.Value.text? = x := by
  cases found with
  | none => exact eq_comm
  | some value =>
      rcases hFits value rfl with ⟨text, hText⟩
      simp only [Told, map_some_eq_ok_iff, textOf_eq_ok_iff, hText,
        Option.some.injEq, exists_eq_left', Option.bind_some]
      exact eq_comm

/- A text in whose place another one can stand. -/
theorem told_getD_iff
    {wanted : Wanted}
    {found : Option Toml.Value}
    (hFits : ∀ value, found = some value → IsText value)
    {standard text : Text} :
    Told (textOf wanted) standard found text ↔
      text = (found.bind Toml.Value.text?).getD standard := by
  cases found with
  | none => exact Iff.rfl
  | some value =>
      rcases hFits value rfl with ⟨given, hGiven⟩
      simp only [Told, textOf_eq_ok_iff, hGiven,
        Option.some.injEq, Option.bind_some, Option.getD_some]
      exact eq_comm

theorem policyNamed_eq_ok_iff
    {name : Text}
    {policy : MissingPolicy} :
    policyNamed name = .ok policy ↔ name = policy.key := by
  have hFind :
      MissingPolicy.ofKey? name = some policy ↔
        name = policy.key := by
    apply find?_key_eq_some_iff
    rintro (_ | _) <;> rfl
  rw [← hFind]
  unfold policyNamed
  cases MissingPolicy.ofKey? name <;> simp

theorem isEmptyValue_iff :
    isEmptyValue value = true ↔
      value.elements? = some [] ∨ value.table? = some [] := by
  cases value <;>
    simp [isEmptyValue, Toml.Value.elements?, Toml.Value.table?]

theorem namesPolicy_iff
    {policy : MissingPolicy} :
    NamesPolicy policy value ↔
      value.text? = some policy.key ∨
        ∃ table,
          value.table? = some table ∧
            ∃ inner,
              table = [(policy.key, inner)] ∧
                (inner.elements? = some [] ∨
                  inner.table? = some []) := by
  constructor
  · rintro (_ | hEmpty)
    · exact .inl rfl
    · exact .inr ⟨_, rfl, _, rfl, hEmpty⟩
  · rintro (hName | ⟨table, hTable, inner, rfl, hEmpty⟩)
    · cases value <;> cases hName
      exact .name
    · cases value <;> cases hTable
      exact .table hEmpty

theorem readPolicy_eq_ok_iff
    {policy : MissingPolicy} :
    readPolicy value = .ok policy ↔ NamesPolicy policy value := by
  simp only [namesPolicy_iff, ← isEmptyValue_iff]
  cases value with
  | string name =>
      refine policyNamed_eq_ok_iff.trans ?_
      simp [Toml.Value.text?, Toml.Value.table?]
  | table form entries =>
      simp only [Toml.Value.text?, Toml.Value.table?,
        reduceCtorEq, false_or, Option.some.injEq,
        exists_eq_left']
      match entries with
      | [] => simp [readPolicy]
      | [(name, value)] =>
          simp only [List.cons.injEq, Prod.mk.injEq, and_true,
            ← policyNamed_eq_ok_iff]
          cases hNamed : policyNamed name with
          | error fault =>
              simp [readPolicy, hNamed, bind, Except.bind]
          | ok found =>
              cases hEmpty : isEmptyValue value <;>
                simp [readPolicy, hNamed, hEmpty, bind,
                  Except.bind, pure, Except.pure]
      | first :: second :: rest => simp [readPolicy]
  | _ => simp [readPolicy, Toml.Value.text?, Toml.Value.table?]

------------------------------------------------------------
-- Dialects
------------------------------------------------------------

theorem typed_token_iff :
    Typed Token.key tokenFields.Readable entries ↔
      Typed Token.key (fun _ => IsText) entries :=
  typed_congr fun _ _ _ =>
    exists_congr fun _ => textOf_eq_ok_iff

/- A table of tokens is read as the dialect that it holds. -/
theorem readDialect_table_iff
    {form : Toml.TableForm}
    (hKeyed : entries.Keyed)
    {d : Dialect} :
    readDialect (.table form entries) = .ok d ↔
      Typed Token.key (fun _ => IsText) entries ∧
        DialectHolds entries d := by
  have hRun :=
    tokenFields.readEntries_eq_ok_iff (s := .go) (t := d)
      hKeyed.distinct
  refine hRun.trans ?_
  rw [show tokenFields.key = Token.key from rfl, typed_token_iff]
  apply and_congr_right
  intro hTyped
  apply forall_congr'
  intro token
  exact told_getD_iff (tokenFields.fits_of_get? hTyped token)

theorem readDialect_eq_ok_iff
    (hKeyed : value.Keyed)
    (hTabular : value.elements? = none)
    {d : Dialect} :
    readDialect value = .ok d ↔
      ∃ table,
        value.table? = some table ∧
          Typed Token.key (fun _ => IsText) table ∧
          DialectHolds table d := by
  cases value with
  | table form entries =>
      simp only [Toml.Value.table?, Option.some.injEq,
        exists_eq_left']
      exact
        readDialect_table_iff (Toml.Value.keyed_table_iff.mp hKeyed)
  | array items => cases hTabular
  | tables items => cases hTabular
  | _ => simp [readDialect, Toml.Value.table?]

theorem exists_readDialect_iff
    (hTabular : value.elements? = none) :
    (∃ d, readDialect value = .ok d) ↔ IsDialect value := by
  unfold IsDialect
  cases value with
  | table form entries =>
      simp only [Toml.Value.table?, Option.some.injEq,
        exists_eq_left']
      exact
        tokenFields.exists_readEntries_iff.trans typed_token_iff
  | array items => cases hTabular
  | tables items => cases hTabular
  | _ => simp [readDialect, Toml.Value.table?]

/- Without a table the dialect is that of Go. -/
theorem dialectHolds_nil_iff
    {d : Dialect} :
    DialectHolds [] d ↔ d = .go :=
  ⟨tokenFields.ext d .go, fun hSame _ => by rw [hSame]; rfl⟩

------------------------------------------------------------
-- Groups
------------------------------------------------------------

/- A group as a draft that lacks nothing. -/
def draftOf
    (g : MergeGroup) : GroupDraft :=
  ⟨some g.name, some g.inputs, some g.output, g.moduleName⟩

theorem completeGroup_eq_ok_iff
    {missing : GroupField → ShapeFault}
    {draft : GroupDraft}
    {g : MergeGroup} :
    completeGroup missing draft = .ok g ↔ draft = draftOf g := by
  cases g
  rcases draft with ⟨_ | name, _ | inputs, _ | output, module⟩ <;>
    simp [completeGroup, draftOf]

theorem readGroup_table_eq_ok_iff
    {form : Toml.TableForm}
    {g : MergeGroup} :
    readGroup (.table form entries) = .ok g ↔
      readEntries takeGroupEntry .none entries =
        .ok (draftOf g) := by
  cases hRead : readEntries takeGroupEntry .none entries with
  | error fault => simp [readGroup, hRead, bind, Except.bind]
  | ok draft =>
      simp [readGroup, hRead, bind, Except.bind,
        completeGroup_eq_ok_iff]

theorem readable_text_iff
    {wanted : Wanted} :
    (∃ x, (textOf wanted value).map some = .ok x) ↔
      IsText value := by
  simp [map_some_eq_ok_iff, textOf_eq_ok_iff, IsText]

theorem readable_texts_iff
    {wanted : Wanted} :
    (∃ x, (listOf (textOf wanted) value).map some = .ok x) ↔
      IsTexts value := by
  simp only [map_some_eq_ok_iff, exists_comm (α := Option _),
    exists_and_left, exists_eq, and_true, exists_listOf_iff,
    textOf_eq_ok_iff]
  rfl

theorem typed_group_iff :
    Typed GroupField.key groupFields.Readable entries ↔
      Typed GroupField.key GroupField.Fits entries := by
  apply typed_congr
  intro field value _
  cases field with
  | name => exact readable_text_iff
  | inputs => exact readable_texts_iff
  | output => exact readable_text_iff
  | moduleName => exact readable_text_iff

theorem told_texts_iff
    {wanted : Wanted}
    {found : Option Toml.Value}
    {texts : List Text} :
    Told (fun value => (listOf (textOf wanted) value).map some)
        none found (some texts) ↔
      ∃ items,
        found.bind Toml.Value.elements? = some items ∧
          items.map Toml.Value.text? = texts.map some := by
  cases found with
  | none => simp [Told]
  | some value =>
      simp [Told, map_some_eq_ok_iff, listOf_eq_ok_iff,
        forall₂_textOf_iff]

theorem mem_keys_of_bind
    {key : Text}
    {f : Toml.Value → Option α}
    {x : α}
    (hFound : (entries.get? key).bind f = some x) :
    key ∈ entries.map (·.1) := by
  by_contra hNot
  rw [Toml.Entries.get?_eq_none_iff.mpr hNot] at hFound
  cases hFound

/- A field that a group cannot lack has a value that fits. -/
theorem GroupEntries.exists_get?
    (hEntries : GroupEntries entries)
    (field : GroupField)
    (hField : field ≠ .moduleName) :
    ∃ value,
      entries.get? field.key = some value ∧ field.Fits value := by
  have hKey := hEntries.complete field hField
  cases hGet : entries.get? field.key with
  | none =>
      exact absurd hKey (Toml.Entries.get?_eq_none_iff.mp hGet)
  | some value =>
      exact
        ⟨value, rfl,
          groupFields.fits_of_get? hEntries.typed field value hGet⟩

theorem GroupEntries.inputs
    (hEntries : GroupEntries entries) :
    (entries.get? GroupField.inputs.key).bind
        Toml.Value.elements? =
      some (entries.items GroupField.inputs.key) ∧
      ∀ item ∈ entries.items GroupField.inputs.key,
        IsText item := by
  rcases hEntries.exists_get? .inputs (by decide) with
    ⟨value, hGet, items, hItems, hTexts⟩
  unfold Toml.Entries.items
  rw [hGet, Option.bind_some, hItems]
  exact ⟨rfl, hTexts⟩

/- A table is read as the group that it holds. -/
theorem readGroup_table_iff
    {form : Toml.TableForm}
    (hKeyed : entries.Keyed)
    {g : MergeGroup} :
    readGroup (.table form entries) = .ok g ↔
      GroupEntries entries ∧ GroupHolds entries g := by
  have hRun :=
    groupFields.readEntries_eq_ok_iff (s := .none)
      (t := draftOf g) hKeyed.distinct
  rw [readGroup_table_eq_ok_iff]
  refine hRun.trans ?_
  rw [show groupFields.key = GroupField.key from rfl,
    typed_group_iff]
  constructor
  · rintro ⟨hTyped, hTold⟩
    have hFits := groupFields.fits_of_get? hTyped
    have hName := (told_text_iff (hFits .name)).mp (hTold .name)
    have hOutput :=
      (told_text_iff (hFits .output)).mp (hTold .output)
    have hModule :=
      (told_text_iff (hFits .moduleName)).mp (hTold .moduleName)
    rcases told_texts_iff.mp (hTold .inputs) with
      ⟨items, hItems, hInputs⟩
    have hEntries : GroupEntries entries := by
      refine ⟨hTyped, ?_⟩
      intro field hField
      cases field with
      | name => exact mem_keys_of_bind hName
      | inputs => exact mem_keys_of_bind hItems
      | output => exact mem_keys_of_bind hOutput
      | moduleName => exact absurd rfl hField
    refine ⟨hEntries, hName, ?_, hOutput, hModule⟩
    have hSame := hEntries.inputs.1.symm.trans hItems
    rw [Option.some.inj hSame]
    exact hInputs
  · rintro ⟨hEntries, hHolds⟩
    have hFits := groupFields.fits_of_get? hEntries.typed
    refine ⟨hEntries.typed, ?_⟩
    intro field
    cases field with
    | name => exact (told_text_iff (hFits .name)).mpr hHolds.name
    | inputs =>
        exact
          told_texts_iff.mpr
            ⟨_, hEntries.inputs.1, hHolds.inputs⟩
    | output =>
        exact (told_text_iff (hFits .output)).mpr hHolds.output
    | moduleName =>
        exact
          (told_text_iff (hFits .moduleName)).mpr
            hHolds.moduleName

/- The entries of a group hold a group. -/
theorem GroupEntries.exists_holds
    (hEntries : GroupEntries entries) :
    ∃ g, GroupHolds entries g := by
  rcases hEntries.exists_get? .name (by decide) with
    ⟨nameValue, hNameValue, name, hName⟩
  rcases hEntries.exists_get? .output (by decide) with
    ⟨outputValue, hOutputValue, output, hOutput⟩
  have hRead :
      ∀ item ∈ entries.items GroupField.inputs.key,
        ∃ path, textOf .path item = .ok path := by
    simp only [textOf_eq_ok_iff]
    exact hEntries.inputs.2
  rcases exists_readAll_iff.mpr hRead with ⟨inputs, hInputs⟩
  rw [readAll_eq_ok_iff, forall₂_textOf_iff] at hInputs
  refine ⟨⟨name, inputs, output, _⟩, ?_, hInputs, ?_, rfl⟩
  · rw [Toml.Entries.text?, hNameValue]
    exact hName
  · rw [Toml.Entries.text?, hOutputValue]
    exact hOutput

theorem readGroup_eq_ok_iff
    (hKeyed : value.Keyed)
    (hTabular : value.elements? = none)
    {g : MergeGroup} :
    readGroup value = .ok g ↔
      ∃ table,
        value.table? = some table ∧
          GroupEntries table ∧ GroupHolds table g := by
  cases value with
  | table form entries =>
      simp only [Toml.Value.table?, Option.some.injEq,
        exists_eq_left']
      exact
        readGroup_table_iff (Toml.Value.keyed_table_iff.mp hKeyed)
  | array items => cases hTabular
  | tables items => cases hTabular
  | _ => simp [readGroup, Toml.Value.table?]

theorem exists_readGroup_iff
    (hKeyed : value.Keyed)
    (hTabular : value.elements? = none) :
    (∃ g, readGroup value = .ok g) ↔ IsGroup value := by
  simp only [readGroup_eq_ok_iff hKeyed hTabular]
  constructor
  · rintro ⟨g, table, hTable, hEntries, -⟩
    exact ⟨table, hTable, hEntries⟩
  · rintro ⟨table, hTable, hEntries⟩
    rcases hEntries.exists_holds with ⟨g, hHolds⟩
    exact ⟨g, table, hTable, hEntries, hHolds⟩

------------------------------------------------------------
-- Documents
------------------------------------------------------------

theorem items_of_get?
    {key : Text}
    {items : List Toml.Value}
    (hGet : entries.get? key = some value)
    (hItems : value.elements? = some items) :
    entries.items key = items := by
  simp [Toml.Entries.items, hGet, hItems]

/- What is known of the elements that stand for groups. -/
theorem groups_keyed
    (hKeyed : entries.Keyed)
    (hTabular : Tabular entries)
    (hGet : entries.get? ConfigField.groups.key = some value)
    {items : List Toml.Value}
    (hItems : value.elements? = some items) :
    ∀ item ∈ items, item.Keyed ∧ item.elements? = none := by
  intro item hMem
  have hValue := hKeyed.value_of_get? hGet
  refine
    ⟨(Toml.Value.keyed_iff_of_elements? hItems).mp hValue item
      hMem, hTabular.groups item ?_⟩
  rw [items_of_get? hGet hItems]
  exact hMem

/- Values can be read when they fit their fields. -/
theorem typed_config_iff
    (hKeyed : entries.Keyed)
    (hTabular : Tabular entries) :
    Typed ConfigField.key configFields.Readable entries ↔
      Typed ConfigField.key ConfigField.Fits entries := by
  apply typed_congr
  intro field value hMem
  have hGet := (Toml.Entries.get?_eq_some_iff hKeyed.distinct).mpr hMem
  cases field with
  | moduleName => exact readable_text_iff
  | onMissing =>
      exact exists_congr fun policy => readPolicy_eq_ok_iff
  | dialect =>
      exact exists_readDialect_iff (hTabular.dialect value hGet)
  | groups =>
      refine exists_listOf_iff.trans (exists_congr fun items => ?_)
      apply and_congr_right
      intro hItems
      have hGroups := groups_keyed hKeyed hTabular hGet hItems
      apply forall₂_congr
      intro item hItem
      exact
        exists_readGroup_iff (hGroups item hItem).1
          (hGroups item hItem).2

theorem told_policy_iff
    {found : Option Toml.Value}
    {policy : MissingPolicy} :
    Told readPolicy .skip found policy ↔
      (∀ value, found = some value → NamesPolicy policy value) ∧
        (found = none → policy = .skip) := by
  cases found with
  | none => simp [Told]
  | some value => simp [Told, readPolicy_eq_ok_iff]

theorem told_dialect_iff
    (hKeyed : entries.Keyed)
    (hTabular : Tabular entries)
    (hTyped : Typed ConfigField.key ConfigField.Fits entries)
    {d : Dialect} :
    Told readDialect .go
        (entries.get? ConfigField.dialect.key) d ↔
      DialectHolds (entries.inner ConfigField.dialect.key) d := by
  unfold Toml.Entries.inner
  cases hGet : entries.get? ConfigField.dialect.key with
  | none => exact dialectHolds_nil_iff.symm
  | some value =>
      have hFits :=
        configFields.fits_of_get? hTyped .dialect value hGet
      rcases hFits with ⟨table, hTable, hTokens⟩
      refine
        (readDialect_eq_ok_iff (hKeyed.value_of_get? hGet)
          (hTabular.dialect value hGet)).trans ?_
      simp [hTable, hTokens]

theorem forall₂_congr_of_mem
    {β : Type}
    {R S : α → β → Prop}
    {xs : List α}
    {ys : List β}
    (hSame : ∀ x ∈ xs, ∀ y, R x y ↔ S x y) :
    List.Forall₂ R xs ys ↔ List.Forall₂ S xs ys := by
  induction xs generalizing ys with
  | nil => cases ys <;> simp
  | cons x xs ih =>
      rw [List.forall_mem_cons] at hSame
      cases ys with
      | nil => simp
      | cons y ys =>
          rw [List.forall₂_cons, List.forall₂_cons, hSame.1 y,
            ih hSame.2]

/- Groups are read one after another. -/
theorem told_groups_iff
    (hKeyed : entries.Keyed)
    (hTabular : Tabular entries)
    (hTyped : Typed ConfigField.key ConfigField.Fits entries)
    {groups : List MergeGroup} :
    Told (listOf readGroup) []
        (entries.get? ConfigField.groups.key) groups ↔
      List.Forall₂
        (fun item g =>
          ∃ table, item.table? = some table ∧ GroupHolds table g)
        (entries.items ConfigField.groups.key) groups := by
  cases hGet : entries.get? ConfigField.groups.key with
  | none => simp [Told, Toml.Entries.items, hGet]
  | some value =>
      have hFits :=
        configFields.fits_of_get? hTyped .groups value hGet
      rcases hFits with ⟨items, hItems, hAll⟩
      have hGroups := groups_keyed hKeyed hTabular hGet hItems
      simp only [Told, listOf_eq_ok_iff, hItems,
        Option.some.injEq, exists_eq_left',
        items_of_get? hGet hItems]
      apply forall₂_congr_of_mem
      intro item hMem g
      rw [readGroup_eq_ok_iff (hGroups item hMem).1
        (hGroups item hMem).2]
      rcases hAll item hMem with ⟨table, hTable, hEntries⟩
      simp [hTable, hEntries]

/- A document is read as the configuration that it holds. -/
theorem ofEntries_eq_ok_iff
    (hKeyed : entries.Keyed)
    (hTabular : Tabular entries)
    {c : Config} :
    ofEntries entries = .ok c ↔
      Typed ConfigField.key ConfigField.Fits entries ∧
        Holds entries c := by
  have hRun :=
    configFields.readEntries_eq_ok_iff (s := .standard) (t := c)
      hKeyed.distinct
  refine hRun.trans ?_
  rw [show configFields.key = ConfigField.key from rfl,
    typed_config_iff hKeyed hTabular]
  apply and_congr_right
  intro hTyped
  have hFits := configFields.fits_of_get? hTyped
  constructor
  · intro hTold
    have hPolicy := told_policy_iff.mp (hTold .onMissing)
    exact
      { moduleName :=
          (told_text_iff (hFits .moduleName)).mp
            (hTold .moduleName)
        policy := hPolicy.1
        noPolicy := hPolicy.2
        dialect :=
          (told_dialect_iff hKeyed hTabular hTyped).mp
            (hTold .dialect)
        groups :=
          (told_groups_iff hKeyed hTabular hTyped).mp
            (hTold .groups) }
  · intro hHolds field
    cases field with
    | moduleName =>
        exact
          (told_text_iff (hFits .moduleName)).mpr
            hHolds.moduleName
    | onMissing =>
        exact
          told_policy_iff.mpr ⟨hHolds.policy, hHolds.noPolicy⟩
    | dialect =>
        exact
          (told_dialect_iff hKeyed hTabular hTyped).mpr
            hHolds.dialect
    | groups =>
        exact
          (told_groups_iff hKeyed hTabular hTyped).mpr
            hHolds.groups

theorem exists_ofEntries_iff
    (hKeyed : entries.Keyed)
    (hTabular : Tabular entries) :
    (∃ c, ofEntries entries = .ok c) ↔
      Typed ConfigField.key ConfigField.Fits entries :=
  configFields.exists_readEntries_iff.trans
    (typed_config_iff hKeyed hTabular)

/- The names of groups are those in the document. -/
theorem Holds.namesIn_eq
    {c : Config}
    (hHolds : Holds entries c) :
    namesIn entries = c.groups.map (·.name) := by
  rcases hHolds with ⟨-, -, -, -, hGroups⟩
  unfold namesIn
  generalize entries.items ConfigField.groups.key = items at hGroups
  generalize c.groups = groups at hGroups
  induction hGroups with
  | nil => rfl
  | @cons item g items groups hGroup hRest ih =>
      rcases hGroup with ⟨table, hTable, hHolds⟩
      have hName : nameIn? item = some g.name := by
        rw [nameIn?, hTable]
        exact hHolds.name
      rw [List.filterMap_cons_some hName, List.map_cons, ih]

theorem Holds.wellNamed_iff
    {c : Config}
    (hHolds : Holds entries c) :
    WellNamed c.groups ↔
      (∀ name ∈ namesIn entries, name.allBlank = false) ∧
        (namesIn entries).Nodup := by
  rw [hHolds.namesIn_eq, List.forall_mem_map]
  exact ⟨fun h => ⟨h.named, h.distinct⟩, fun h => ⟨h.1, h.2⟩⟩

/- A text is accepted as the configuration in its document. -/
theorem ofText_eq_ok_iff_holds
    {text : Text}
    (hParse : Toml.parse? text = some entries)
    (hTabular : Tabular entries)
    {c : Config} :
    ofText text = .ok c ↔ Admissible entries ∧ Holds entries c := by
  have hKeyed := Toml.keyed_of_parse? hParse
  rw [ofText_eq_ok_iff]
  simp only [hParse, Option.some.injEq, exists_eq_left',
    ofEntries_eq_ok_iff hKeyed hTabular]
  constructor
  · rintro ⟨⟨hTyped, hHolds⟩, hNamed⟩
    have hNames := hHolds.wellNamed_iff.mp hNamed
    exact ⟨⟨hTyped, hNames.1, hNames.2⟩, hHolds⟩
  · rintro ⟨⟨hTyped, hNamed, hDistinct⟩, hHolds⟩
    exact
      ⟨⟨hTyped, hHolds⟩,
        hHolds.wellNamed_iff.mpr ⟨hNamed, hDistinct⟩⟩

theorem exists_ofText_iff
    {text : Text}
    (hParse : Toml.parse? text = some entries)
    (hTabular : Tabular entries) :
    (∃ c, ofText text = .ok c) ↔ Admissible entries := by
  have hKeyed := Toml.keyed_of_parse? hParse
  simp only [ofText_eq_ok_iff_holds hParse hTabular,
    exists_and_left, and_iff_left_iff_imp]
  intro hAdmissible
  rcases (exists_ofEntries_iff hKeyed hTabular).mpr
    hAdmissible.typed with ⟨c, hRead⟩
  exact
    ⟨c, ((ofEntries_eq_ok_iff hKeyed hTabular).mp hRead).2⟩

end Config

end Collate
