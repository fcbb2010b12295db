import Collate.Config.Basic
import Collate.Proofs.Toml.Keys

/-
  Records that are read field by field from a table.  When no
  key is given twice, what is read is the one record in which
  each field is what its key says, and a table is refused
  exactly when one of its keys or values is out of place.

  Key definitions include:
    * `Config.Typed`
    * `Config.Told`
    * `Config.Fields`
    * `Config.tokenFields`
    * `Config.groupFields`
    * `Config.configFields`

  Main declarations:
    * `Config.Fields.take_eq_ok_iff`
    * `Config.Fields.exists_readEntries_iff`
    * `Config.Fields.readEntries_eq_ok_iff`
-/

------------------------------------------------------------
-- Typed Tables
------------------------------------------------------------

namespace Collate

namespace Config

/- Each key is that of a field, and each value fits its field. -/
def Typed
    {φ : Type}
    (key : φ → Text)
    (Fits : φ → Toml.Value → Prop)
    (entries : Toml.Entries) : Prop :=
  ∀ entry ∈ entries,
    ∃ field, entry.1 = key field ∧ Fits field entry.2

theorem typed_cons
    {φ : Type}
    {key : φ → Text}
    {Fits : φ → Toml.Value → Prop}
    {entry : Text × Toml.Value}
    {rest : Toml.Entries} :
    Typed key Fits (entry :: rest) ↔
      (∃ field, entry.1 = key field ∧ Fits field entry.2) ∧
        Typed key Fits rest :=
  List.forall_mem_cons

theorem typed_congr
    {φ : Type}
    {key : φ → Text}
    {Fits Suits : φ → Toml.Value → Prop}
    {entries : Toml.Entries}
    (hSame :
      ∀ field value, (key field, value) ∈ entries →
        (Fits field value ↔ Suits field value)) :
    Typed key Fits entries ↔ Typed key Suits entries := by
  apply forall₂_congr
  rintro ⟨k, value⟩ hMem
  apply exists_congr
  intro field
  apply and_congr_right
  rintro rfl
  exact hSame field value hMem

------------------------------------------------------------
-- Fields
------------------------------------------------------------

/- What is read from a value, or was there if there is none. -/
def Told
    {α : Type}
    (read : Toml.Value → Except ShapeFault α)
    (before : α) : Option Toml.Value → α → Prop
  | none, x => x = before
  | some value, x => read value = .ok x

/- A record, with how its fields are read and taken in. -/
structure Fields (σ φ : Type) where
  -- What a field can hold.
  Slot : φ → Type
  get : (field : φ) → σ → Slot field
  set : (field : φ) → Slot field → σ → σ
  key : φ → Text
  ofKey? : Text → Option φ
  read : (field : φ) → Toml.Value → Except ShapeFault (Slot field)
  take : σ → Text × Toml.Value → Except ShapeFault σ
  get_set :
    ∀ field x s, get field (set field x s) = x
  get_set_of_ne :
    ∀ field other x s, other ≠ field →
      get other (set field x s) = get other s
  ext :
    ∀ s t, (∀ field, get field s = get field t) → s = t
  ofKey?_eq_some_iff :
    ∀ k field, ofKey? k = some field ↔ k = key field
  take_of_none :
    ∀ s t entry, ofKey? entry.1 = none → take s entry ≠ .ok t
  take_of_some :
    ∀ s entry field, ofKey? entry.1 = some field →
      take s entry = (read field entry.2).map (set field · s)

namespace Fields

variable {σ φ : Type}
variable (F : Fields σ φ)
variable {s t : σ}
variable {entries : Toml.Entries}

/- A value that can be read as a field. -/
def Readable
    (field : φ)
    (value : Toml.Value) : Prop :=
  ∃ x, F.read field value = .ok x

theorem key_injective
    {field other : φ}
    (hKey : F.key field = F.key other) :
    field = other := by
  have hField := (F.ofKey?_eq_some_iff _ field).mpr rfl
  rw [(F.ofKey?_eq_some_iff _ other).mpr hKey] at hField
  exact (Option.some.inj hField).symm

/- The value under the key of a field fits that field. -/
theorem fits_of_get?
    {Fits : φ → Toml.Value → Prop}
    (hTyped : Typed F.key Fits entries)
    (field : φ)
    (value : Toml.Value)
    (hGet : entries.get? (F.key field) = some value) :
    Fits field value := by
  rcases hTyped _ (Toml.Entries.mem_of_get?_eq_some hGet) with
    ⟨other, hKey, hFits⟩
  rw [F.key_injective hKey]
  exact hFits

/- What one entry does to a record. -/
theorem take_eq_ok_iff
    {entry : Text × Toml.Value} :
    F.take s entry = .ok t ↔
      ∃ field x,
        entry.1 = F.key field ∧
          F.read field entry.2 = .ok x ∧
          t = F.set field x s := by
  constructor
  · intro hTake
    cases hField : F.ofKey? entry.1 with
    | none => exact absurd hTake (F.take_of_none s t entry hField)
    | some field =>
        rw [F.take_of_some s entry field hField] at hTake
        cases hRead : F.read field entry.2 with
        | error fault =>
            rw [hRead] at hTake
            cases hTake
        | ok x =>
            rw [hRead] at hTake
            cases hTake
            exact
              ⟨field, x, (F.ofKey?_eq_some_iff _ _).mp hField,
                hRead, rfl⟩
  · rintro ⟨field, x, hKey, hRead, rfl⟩
    rw [F.take_of_some s entry field
      ((F.ofKey?_eq_some_iff _ _).mpr hKey), hRead]
    rfl

theorem readEntries_cons_eq_ok_iff
    {entry : Text × Toml.Value}
    {rest : Toml.Entries} :
    readEntries F.take s (entry :: rest) = .ok t ↔
      ∃ next,
        F.take s entry = .ok next ∧
          readEntries F.take next rest = .ok t := by
  cases hTake : F.take s entry with
  | error fault => simp [readEntries, hTake, bind, Except.bind]
  | ok next => simp [readEntries, hTake, bind, Except.bind]

/-
  A table can be read when its keys are known and its values
  can be read.  What is there already makes no difference.
-/
theorem exists_readEntries_iff :
    (∃ t, readEntries F.take s entries = .ok t) ↔
      Typed F.key F.Readable entries := by
  induction entries generalizing s with
  | nil => simp [readEntries, Typed]
  | cons entry rest ih =>
      simp only [readEntries_cons_eq_ok_iff, typed_cons]
      constructor
      · rintro ⟨t, next, hTake, hRest⟩
        rcases F.take_eq_ok_iff.mp hTake with
          ⟨field, x, hKey, hRead, -⟩
        exact ⟨⟨field, hKey, x, hRead⟩, ih.mp ⟨t, hRest⟩⟩
      · rintro ⟨⟨field, hKey, x, hRead⟩, hRest⟩
        rcases ih.mpr hRest with ⟨t, hRun⟩
        exact
          ⟨t, _,
            F.take_eq_ok_iff.mpr ⟨field, x, hKey, hRead, rfl⟩,
            hRun⟩

/- A field that was taken in is not told again. -/
theorem told_cons_iff
    {field : φ}
    {value : Toml.Value}
    {x : F.Slot field}
    (hRead : F.read field value = .ok x)
    {rest : Toml.Entries}
    (hNew : rest.get? (F.key field) = none)
    (other : φ)
    (y : F.Slot other) :
    Told (F.read other) (F.get other s)
        (Toml.Entries.get? (F.key other)
          ((F.key field, value) :: rest)) y ↔
      Told (F.read other) (F.get other (F.set field x s))
        (rest.get? (F.key other)) y := by
  by_cases hOther : other = field
  · subst hOther
    rw [Toml.Entries.get?, if_pos rfl, hNew, F.get_set]
    simp only [Told, hRead, Except.ok.injEq]
    exact eq_comm
  · have hKey : F.key field ≠ F.key other := by
      intro hSame
      exact hOther (F.key_injective hSame).symm
    rw [Toml.Entries.get?, if_neg hKey,
      F.get_set_of_ne field other x s hOther]

/-
  The record in a table: keys and values are in place, and
  each field is what is told of it.
-/
theorem readEntries_eq_ok_iff
    (hDistinct : (entries.map (·.1)).Nodup) :
    readEntries F.take s entries = .ok t ↔
      Typed F.key F.Readable entries ∧
        ∀ field,
          Told (F.read field) (F.get field s)
            (entries.get? (F.key field)) (F.get field t) := by
  induction entries generalizing s with
  | nil =>
      simp only [readEntries, Except.ok.injEq, Toml.Entries.get?,
        Told]
      constructor
      · rintro rfl
        exact ⟨by simp [Typed], fun _ => rfl⟩
      · rintro ⟨-, hSame⟩
        exact F.ext s t fun field => (hSame field).symm
  | cons entry rest ih =>
      rcases entry with ⟨k, value⟩
      rw [List.map_cons, List.nodup_cons] at hDistinct
      have hNew : Toml.Entries.get? k rest = none :=
        Toml.Entries.get?_eq_none_iff.mpr hDistinct.1
      rw [readEntries_cons_eq_ok_iff, typed_cons]
      constructor
      · rintro ⟨next, hTake, hRest⟩
        rcases F.take_eq_ok_iff.mp hTake with
          ⟨field, x, hKey, hRead, rfl⟩
        obtain rfl : k = F.key field := hKey
        rcases (ih hDistinct.2).mp hRest with ⟨hTyped, hTold⟩
        refine ⟨⟨⟨field, rfl, x, hRead⟩, hTyped⟩, ?_⟩
        intro other
        exact
          (F.told_cons_iff hRead hNew other _).mpr (hTold other)
      · rintro ⟨⟨⟨field, hKey, x, hRead⟩, hTyped⟩, hTold⟩
        obtain rfl : k = F.key field := hKey
        refine
          ⟨F.set field x s,
            F.take_eq_ok_iff.mpr ⟨field, x, rfl, hRead, rfl⟩,
            (ih hDistinct.2).mpr ⟨hTyped, ?_⟩⟩
        intro other
        exact
          (F.told_cons_iff hRead hNew other _).mp (hTold other)

end Fields

------------------------------------------------------------
-- Tokens
------------------------------------------------------------

/- A key that is looked for among those of all fields. -/
theorem find?_key_eq_some_iff
    {φ : Type}
    {key : φ → Text}
    {all : List φ}
    (hAll :
      ∀ field, all.find? (fun f => key f = key field) =
        some field)
    {k : Text}
    {field : φ} :
    all.find? (fun f => key f = k) = some field ↔
      k = key field := by
  constructor
  · intro hFind
    have hKey : key field = k := by
      simpa using List.find?_some hFind
    exact hKey.symm
  · rintro rfl
    exact hAll field

/- The tokens of a dialect are read from a table. -/
def tokenFields : Fields Dialect Token where
  Slot := fun _ => Text
  get := fun token d => d.get token
  set := fun token text d => d.set token text
  key := Token.key
  ofKey? := Token.ofKey?
  read := fun _ => textOf .string
  take := takeToken
  get_set := by
    rintro (_ | _ | _ | _ | _ | _) text d <;> rfl
  get_set_of_ne := by
    intro token other text d hOther
    cases token <;> cases other <;> first | rfl | contradiction
  ext := by
    intro d e hSame
    cases d
    cases e
    simp only [Dialect.mk.injEq]
    exact
      ⟨hSame .moduleKeyword, hSame .importKeyword,
        hSame .blockOpen, hSame .blockClose,
        hSame .commentMark, hSame .indent⟩
  ofKey?_eq_some_iff := by
    intro k token
    apply find?_key_eq_some_iff
    rintro (_ | _ | _ | _ | _ | _) <;> rfl
  take_of_none := by
    intro d e entry hNone hTake
    unfold takeToken at hTake
    rw [hNone] at hTake
    cases hTake
  take_of_some := by
    intro d entry token hSome
    unfold takeToken
    rw [hSome]
    cases textOf .string entry.2 <;> rfl

------------------------------------------------------------
-- Groups
------------------------------------------------------------

/- What is known of a field of a group. -/
def GroupField.Slot : GroupField → Type
  | .name => Option Text
  | .inputs => Option (List Path)
  | .output => Option Path
  | .moduleName => Option Text

def GroupDraft.get : (field : GroupField) → GroupDraft → field.Slot
  | .name, draft => draft.name
  | .inputs, draft => draft.inputs
  | .output, draft => draft.output
  | .moduleName, draft => draft.moduleName

def GroupDraft.set :
    (field : GroupField) → field.Slot → GroupDraft → GroupDraft
  | .name, x, draft => { draft with name := x }
  | .inputs, x, draft => { draft with inputs := x }
  | .output, x, draft => { draft with output := x }
  | .moduleName, x, draft => { draft with moduleName := x }

def GroupField.read :
    (field : GroupField) → Toml.Value →
      Except ShapeFault field.Slot
  | .name, value => (textOf .string value).map some
  | .inputs, value => (listOf (textOf .path) value).map some
  | .output, value => (textOf .path value).map some
  | .moduleName, value => (textOf .string value).map some

/- The fields of a group are read from a table. -/
def groupFields : Fields GroupDraft GroupField where
  Slot := GroupField.Slot
  get := GroupDraft.get
  set := GroupDraft.set
  key := GroupField.key
  ofKey? := GroupField.ofKey?
  read := GroupField.read
  take := takeGroupEntry
  get_set := by
    rintro (_ | _ | _ | _) x draft <;> rfl
  get_set_of_ne := by
    intro field other x draft hOther
    cases field <;> cases other <;> first | rfl | contradiction
  ext := by
    intro draft other hSame
    cases draft
    cases other
    simp only [GroupDraft.mk.injEq]
    exact
      ⟨hSame .name, hSame .inputs, hSame .output,
        hSame .moduleName⟩
  ofKey?_eq_some_iff := by
    intro k field
    apply find?_key_eq_some_iff
    rintro (_ | _ | _ | _) <;> rfl
  take_of_none := by
    intro draft other entry hNone hTake
    unfold takeGroupEntry at hTake
    rw [hNone] at hTake
    cases hTake
  take_of_some := by
    intro draft entry field hSome
    unfold takeGroupEntry
    rw [hSome]
    cases field with
    | name =>
        dsimp only [takeGroupField, GroupField.read]
        cases textOf .string entry.2 <;> rfl
    | inputs =>
        dsimp only [takeGroupField, GroupField.read]
        cases listOf (textOf .path) entry.2 <;> rfl
    | output =>
        dsimp only [takeGroupField, GroupField.read]
        cases textOf .path entry.2 <;> rfl
    | moduleName =>
        dsimp only [takeGroupField, GroupField.read]
        cases textOf .string entry.2 <;> rfl

------------------------------------------------------------
-- Documents
------------------------------------------------------------

/- What a field of a configuration can be. -/
def ConfigField.Slot : ConfigField → Type
  | .moduleName => Option Text
  | .onMissing => MissingPolicy
  | .dialect => Dialect
  | .groups => List MergeGroup

def get : (field : ConfigField) → Config → field.Slot
  | .moduleName, c => c.moduleName
  | .onMissing, c => c.onMissing
  | .dialect, c => c.dialect
  | .groups, c => c.groups

def set : (field : ConfigField) → field.Slot → Config → Config
  | .moduleName, x, c => { c with moduleName := x }
  | .onMissing, x, c => { c with onMissing := x }
  | .dialect, x, c => { c with dialect := x }
  | .groups, x, c => { c with groups := x }

def ConfigField.read :
    (field : ConfigField) → Toml.Value →
      Except ShapeFault field.Slot
  | .moduleName, value => (textOf .string value).map some
  | .onMissing, value => readPolicy value
  | .dialect, value => readDialect value
  | .groups, value => listOf readGroup value

/- The fields of a configuration are read from a document. -/
def configFields : Fields Config ConfigField where
  Slot := ConfigField.Slot
  get := get
  set := set
  key := ConfigField.key
  ofKey? := ConfigField.ofKey?
  read := ConfigField.read
  take := takeEntry
  get_set := by
    rintro (_ | _ | _ | _) x c <;> rfl
  get_set_of_ne := by
    intro field other x c hOther
    cases field <;> cases other <;> first | rfl | contradiction
  ext := by
    intro c d hSame
    cases c
    cases d
    simp only [mk.injEq]
    exact
      ⟨hSame .moduleName, hSame .onMissing, hSame .dialect,
        hSame .groups⟩
  ofKey?_eq_some_iff := by
    intro k field
    apply find?_key_eq_some_iff
    rintro (_ | _ | _ | _) <;> rfl
  take_of_none := by
    intro c d entry hNone hTake
    unfold takeEntry at hTake
    rw [hNone] at hTake
    cases hTake
  take_of_some := by
    intro c entry field hSome
    unfold takeEntry
    rw [hSome]
    cases field with
    | moduleName =>
        dsimp only [ConfigField.read]
        cases textOf .string entry.2 <;> rfl
    | onMissing =>
        dsimp only [ConfigField.read]
        cases readPolicy entry.2 <;> rfl
    | dialect =>
        dsimp only [ConfigField.read]
        cases readDialect entry.2 <;> rfl
    | groups =>
        dsimp only [ConfigField.read]
        cases listOf readGroup entry.2 <;> rfl

end Config

end Collate
