import Collate.Proofs.Admissible

/-
  Configurations in documents that differ in the order of
  keys.  Reading stops at the first fault in that order, but
  neither whether a document is accepted nor what is read from
  it depends on the order.

  Main declarations:
    * `Config.typed_of_alike`
    * `Config.admissible_congr`
    * `Config.holds_congr`
    * `Config.ofText_accepted`
-/

------------------------------------------------------------
-- Rearranged Values
------------------------------------------------------------

namespace Collate

namespace Config

variable {α β : Type}
variable {value other : Toml.Value}
variable {entries others : Toml.Entries}

theorem isText_congr
    (hAlike : value.Alike other) :
    IsText other ↔ IsText value := by
  unfold IsText
  rw [hAlike.text?_eq]

/- A property of all elements is kept when each keeps it. -/
theorem forall_mem_congr
    {R : α → β → Prop}
    {xs : List α}
    {ys : List β}
    (hPairs : List.Forall₂ R xs ys)
    {P : α → Prop}
    {Q : β → Prop}
    (hSame : ∀ x y, R x y → (Q y ↔ P x)) :
    (∀ y ∈ ys, Q y) ↔ ∀ x ∈ xs, P x := by
  induction hPairs with
  | nil => simp
  | cons hPair hRest ih =>
      rw [List.forall_mem_cons, List.forall_mem_cons,
        hSame _ _ hPair, ih]

/- An array of values of a kind stays one. -/
theorem elements_congr
    {P : Toml.Value → Prop}
    (hSame :
      ∀ item moved : Toml.Value, item.Alike moved →
        (P moved ↔ P item))
    (hAlike : value.Alike other) :
    (∃ items, other.elements? = some items ∧
        ∀ item ∈ items, P item) ↔
      ∃ items, value.elements? = some items ∧
        ∀ item ∈ items, P item := by
  rcases Toml.rel_cases hAlike.elements?_rel with
    ⟨hItems, hOthers⟩ | ⟨own, moved, hItems, hOthers, hPairs⟩
  · simp [hItems, hOthers]
  · simp only [hItems, hOthers, Option.some.injEq,
      exists_eq_left']
    exact forall_mem_congr hPairs hSame

/- A table with entries of a kind stays one. -/
theorem table_congr
    {P : Toml.Entries → Prop}
    (hSame :
      ∀ table moved : Toml.Entries, table.Alike moved →
        (P moved ↔ P table))
    (hAlike : value.Alike other) :
    (∃ table, other.table? = some table ∧ P table) ↔
      ∃ table, value.table? = some table ∧ P table := by
  rcases Toml.rel_cases hAlike.table?_rel with
    ⟨hTable, hOther⟩ | ⟨own, moved, hTable, hOther, hTables⟩
  · simp [hTable, hOther]
  · simp only [hTable, hOther, Option.some.injEq,
      exists_eq_left']
    exact hSame own moved hTables

/- Typed entries stay typed. -/
theorem typed_of_alike
    {φ : Type}
    {key : φ → Text}
    {Fits : φ → Toml.Value → Prop}
    (hSame :
      ∀ field (value other : Toml.Value), value.Alike other →
        (Fits field other ↔ Fits field value))
    (hAlike : entries.Alike others) :
    Typed key Fits others ↔ Typed key Fits entries := by
  have hLookup :
      ∀ {table : Toml.Entries}, table.Keyed →
        (Typed key Fits table ↔
          ∀ k value, table.get? k = some value →
            ∃ field, k = key field ∧ Fits field value) := by
    intro table hKeyed
    simp only [Toml.Entries.get?_eq_some_iff hKeyed.distinct]
    exact Prod.forall.trans Iff.rfl
  rw [hLookup hAlike.keyed, hLookup hAlike.otherKeyed]
  apply forall_congr'
  intro k
  rcases Toml.rel_cases (hAlike.get?_rel k) with
    ⟨hValue, hOther⟩ | ⟨own, moved, hValue, hOther, hPair⟩
  · simp [hValue, hOther]
  · simp [hValue, hOther, hSame _ own moved hPair]

/- Empty values stay empty. -/
theorem empty_congr
    (hAlike : value.Alike other) :
    (other.elements? = some [] ∨ other.table? = some []) ↔
      (value.elements? = some [] ∨ value.table? = some []) := by
  apply or_congr
  · rcases Toml.rel_cases hAlike.elements?_rel with
      ⟨hItems, hOthers⟩ | ⟨own, moved, hItems, hOthers, hPairs⟩
    · simp [hItems, hOthers]
    · rw [hItems, hOthers, Option.some.injEq, Option.some.injEq,
        ← List.length_eq_zero_iff, ← List.length_eq_zero_iff,
        hPairs.length_eq]
  · rcases Toml.rel_cases hAlike.table?_rel with
      ⟨hTable, hOther⟩ | ⟨own, moved, hTable, hOther, hTables⟩
    · simp [hTable, hOther]
    · rw [hTable, hOther, Option.some.injEq, Option.some.injEq,
        ← List.map_eq_nil_iff (f := Prod.fst),
        ← List.map_eq_nil_iff (l := own) (f := Prod.fst)]
      exact ⟨fun h => (h ▸ hTables.keys).eq_nil,
        fun h => (h ▸ hTables.keys).nil_eq.symm⟩

theorem eq_single_iff
    {key : Text} :
    entries = [(key, value)] ↔
      entries.map (·.1) = [key] ∧
        entries.get? key = some value := by
  constructor
  · rintro rfl
    simp [Toml.Entries.get?]
  · rintro ⟨hKeys, hGet⟩
    rcases List.map_eq_singleton_iff.mp hKeys with
      ⟨⟨k, own⟩, rfl, rfl⟩
    simpa [Toml.Entries.get?] using hGet

theorem namesPolicy_congr
    (policy : MissingPolicy)
    (hAlike : value.Alike other) :
    NamesPolicy policy other ↔ NamesPolicy policy value := by
  rw [namesPolicy_iff, namesPolicy_iff, hAlike.text?_eq]
  apply or_congr_right
  refine table_congr ?_ hAlike
  intro table moved hTables
  simp only [eq_single_iff]
  have hKeys :
      moved.map (·.1) = [policy.key] ↔
        table.map (·.1) = [policy.key] := by
    rw [← List.perm_singleton, ← List.perm_singleton]
    exact ⟨hTables.keys.trans, hTables.keys.symm.trans⟩
  rcases Toml.rel_cases (hTables.get?_rel policy.key) with
    ⟨hValue, hOther⟩ | ⟨own, inner, hValue, hOther, hPair⟩
  · simp [hValue, hOther]
  · simp [hValue, hOther, hKeys, empty_congr hPair]

theorem typed_token_congr
    (hAlike : entries.Alike others) :
    Typed Token.key (fun _ => IsText) others ↔
      Typed Token.key (fun _ => IsText) entries :=
  typed_of_alike (fun _ _ _ => isText_congr) hAlike

theorem dialectHolds_congr
    (d : Dialect)
    (hAlike : entries.Alike others) :
    DialectHolds others d ↔ DialectHolds entries d := by
  simp only [DialectHolds, hAlike.text?_eq]

theorem groupField_fits_congr
    (field : GroupField)
    (hAlike : value.Alike other) :
    field.Fits other ↔ field.Fits value := by
  cases field with
  | name => exact isText_congr hAlike
  | inputs =>
      exact elements_congr (fun _ _ => isText_congr) hAlike
  | output => exact isText_congr hAlike
  | moduleName => exact isText_congr hAlike

theorem groupEntries_congr
    (hAlike : entries.Alike others) :
    GroupEntries others ↔ GroupEntries entries := by
  have hTyped :
      Typed GroupField.key GroupField.Fits others ↔
        Typed GroupField.key GroupField.Fits entries :=
    typed_of_alike (fun field _ _ => groupField_fits_congr field)
      hAlike
  constructor
  · intro h
    exact
      ⟨hTyped.mp h.typed, fun field hField =>
        hAlike.keys.mem_iff.mpr (h.complete field hField)⟩
  · intro h
    exact
      ⟨hTyped.mpr h.typed, fun field hField =>
        hAlike.keys.mem_iff.mp (h.complete field hField)⟩

theorem map_eq_of_forall₂
    {R : α → β → Prop}
    {xs : List α}
    {ys : List β}
    (hPairs : List.Forall₂ R xs ys)
    {γ : Type}
    {f : α → γ}
    {g : β → γ}
    (hSame : ∀ x y, R x y → g y = f x) :
    ys.map g = xs.map f := by
  induction hPairs with
  | nil => rfl
  | cons hPair hRest ih =>
      rw [List.map_cons, List.map_cons, hSame _ _ hPair, ih]

theorem groupHolds_congr
    (g : MergeGroup)
    (hAlike : entries.Alike others) :
    GroupHolds others g ↔ GroupHolds entries g := by
  have hInputs :=
    map_eq_of_forall₂ (hAlike.items_rel GroupField.inputs.key)
      fun _ _ => Toml.Value.Alike.text?_eq
  simp only [groupHolds_iff, hAlike.text?_eq, hInputs]

/- Values go on to fit their fields. -/
theorem configField_fits_congr
    (field : ConfigField)
    (hAlike : value.Alike other) :
    field.Fits other ↔ field.Fits value := by
  cases field with
  | moduleName => exact isText_congr hAlike
  | onMissing =>
      exact exists_congr fun p => namesPolicy_congr p hAlike
  | dialect =>
      exact table_congr (fun _ _ => typed_token_congr) hAlike
  | groups =>
      refine elements_congr ?_ hAlike
      intro item moved hItems
      exact table_congr (fun _ _ => groupEntries_congr) hItems

------------------------------------------------------------
-- Rearranged Documents
------------------------------------------------------------

/- What holds of the value under a key goes on to hold. -/
theorem forall_get?_congr
    {P : Toml.Value → Prop}
    (hSame :
      ∀ value other : Toml.Value, value.Alike other →
        (P other ↔ P value))
    (hAlike : entries.Alike others)
    (key : Text) :
    (∀ value, others.get? key = some value → P value) ↔
      ∀ value, entries.get? key = some value → P value := by
  rcases Toml.rel_cases (hAlike.get?_rel key) with
    ⟨hValue, hOther⟩ | ⟨own, moved, hValue, hOther, hPair⟩
  · simp [hValue, hOther]
  · simp [hValue, hOther, hSame own moved hPair]

theorem elements?_eq_none_congr
    (hAlike : value.Alike other) :
    other.elements? = none ↔ value.elements? = none := by
  rcases Toml.rel_cases hAlike.elements?_rel with
    ⟨hItems, hOthers⟩ | ⟨own, moved, hItems, hOthers, -⟩
  · simp [hItems, hOthers]
  · simp [hItems, hOthers]

theorem tabular_congr
    (hAlike : entries.Alike others) :
    Tabular others ↔ Tabular entries := by
  have hDialect :=
    forall_get?_congr (fun _ _ => elements?_eq_none_congr) hAlike
      ConfigField.dialect.key
  have hGroups :=
    forall_mem_congr (hAlike.items_rel ConfigField.groups.key)
      fun _ _ => elements?_eq_none_congr
  rw [tabular_iff, tabular_iff, hDialect, hGroups]

theorem nameIn?_eq
    (hAlike : value.Alike other) :
    nameIn? other = nameIn? value := by
  unfold nameIn?
  rcases Toml.rel_cases hAlike.table?_rel with
    ⟨hTable, hOther⟩ | ⟨own, moved, hTable, hOther, hTables⟩
  · rw [hTable, hOther]
  · rw [hTable, hOther]
    exact hTables.text?_eq _

theorem namesIn_eq_of_alike
    (hAlike : entries.Alike others) :
    namesIn others = namesIn entries := by
  have hNames :=
    map_eq_of_forall₂ (hAlike.items_rel ConfigField.groups.key)
      fun _ _ => nameIn?_eq
  have hReduced := congrArg (List.filterMap id) hNames
  rw [List.filterMap_map, List.filterMap_map] at hReduced
  exact hReduced

/- Whether a document is admissible is not up to its order. -/
theorem admissible_congr
    (hAlike : entries.Alike others) :
    Admissible others ↔ Admissible entries := by
  have hTyped :
      Typed ConfigField.key ConfigField.Fits others ↔
        Typed ConfigField.key ConfigField.Fits entries :=
    typed_of_alike
      (fun field _ _ => configField_fits_congr field) hAlike
  rw [admissible_iff, admissible_iff, hTyped,
    namesIn_eq_of_alike hAlike]

theorem forall₂_congr_left
    {R : α → β → Prop}
    {xs : List α}
    {ys : List β}
    (hPairs : List.Forall₂ R xs ys)
    {γ : Type}
    {P : α → γ → Prop}
    {Q : β → γ → Prop}
    (hSame : ∀ x y, R x y → ∀ z, Q y z ↔ P x z)
    (zs : List γ) :
    List.Forall₂ Q ys zs ↔ List.Forall₂ P xs zs := by
  induction hPairs generalizing zs with
  | nil => cases zs <;> simp
  | cons hPair hRest ih =>
      cases zs with
      | nil => simp
      | cons z zs =>
          rw [List.forall₂_cons, List.forall₂_cons,
            hSame _ _ hPair z, ih]

/- Nor is what it holds. -/
theorem holds_congr
    (c : Config)
    (hAlike : entries.Alike others) :
    Holds others c ↔ Holds entries c := by
  have hPolicy :=
    forall_get?_congr (fun _ _ => namesPolicy_congr c.onMissing)
      hAlike ConfigField.onMissing.key
  have hNoPolicy :
      others.get? ConfigField.onMissing.key = none ↔
        entries.get? ConfigField.onMissing.key = none := by
    rw [Toml.Entries.get?_eq_none_iff,
      Toml.Entries.get?_eq_none_iff, hAlike.keys.mem_iff]
  have hDialect :=
    dialectHolds_congr c.dialect
      (hAlike.inner_alike ConfigField.dialect.key)
  have hGroups :=
    forall₂_congr_left
      (hAlike.items_rel ConfigField.groups.key)
      (fun _ _ hItems g =>
        table_congr (fun _ _ => groupHolds_congr g) hItems)
      c.groups
  rw [holds_iff, holds_iff, hAlike.text?_eq, hPolicy, hNoPolicy,
    hDialect, hGroups]

/-
  Which documents are accepted as configurations, and as
  which.  A document is accepted if and only if it is
  admissible; what is read is then the one configuration that
  it holds; and documents that differ in the order of keys
  agree in both.
-/
theorem ofText_accepted
    {text : Text}
    (hParse : Toml.parse? text = some entries)
    (hTabular : Tabular entries) :
    ((∃ c, ofText text = .ok c) ↔ Admissible entries) ∧
      (∀ c,
        ofText text = .ok c ↔
          Admissible entries ∧ Holds entries c) ∧
      ∀ otherText others,
        Toml.parse? otherText = some others →
          entries.Rearranged others →
            ∀ c, ofText otherText = .ok c ↔ ofText text = .ok c := by
  refine
    ⟨exists_ofText_iff hParse hTabular,
      fun c => ofText_eq_ok_iff_holds hParse hTabular, ?_⟩
  intro otherText others hOther hRearranged c
  have hAlike : entries.Alike others :=
    Toml.Entries.alike_of_rearranged
      (Toml.keyed_of_parse? hParse) (Toml.keyed_of_parse? hOther)
      hRearranged
  rw [ofText_eq_ok_iff_holds hParse hTabular,
    ofText_eq_ok_iff_holds hOther
      ((tabular_congr hAlike).mpr hTabular),
    admissible_congr hAlike, holds_congr c hAlike]

/- A policy, a dialect and a group, each in a table. -/
def orderedText : Text :=
  ("[on_missing]\nfail = []\n" ++
    "[syntax]\nindent = '-'\nblock_open = '['\n" ++
    "[[group]]\nname = 'a'\ninputs = ['x']\noutput = 'o'").toList

/- The same with the keys of all tables in the opposite order. -/
def reversedText : Text :=
  ("[[group]]\noutput = 'o'\ninputs = ['x']\nname = 'a'\n" ++
    "[syntax]\nblock_open = '['\nindent = '-'\n" ++
    "[on_missing]\nfail = []").toList

def orderedTokens : Toml.Entries :=
  [ ("indent".toList, .string "-".toList),
    ("block_open".toList, .string "[".toList) ]

def orderedGroup : Toml.Entries :=
  [ ("name".toList, .string "a".toList),
    ("inputs".toList, .array [.string "x".toList]),
    ("output".toList, .string "o".toList) ]

def orderedEntries : Toml.Entries :=
  [ ("on_missing".toList,
      .table .header [("fail".toList, .array [])]),
    ("syntax".toList, .table .header orderedTokens),
    ("group".toList, .tables [.table .header orderedGroup]) ]

def reversedEntries : Toml.Entries :=
  [ ("group".toList,
      .tables [.table .header orderedGroup.reverse]),
    ("syntax".toList, .table .header orderedTokens.reverse),
    ("on_missing".toList,
      .table .header [("fail".toList, .array [])]) ]

def orderedConfig : Config where
  moduleName := none
  onMissing := .fail
  dialect :=
    { Dialect.go with
      blockOpen := "[".toList
      indent := "-".toList }
  groups := [⟨"a".toList, ["x".toList], "o".toList, none⟩]

set_option maxRecDepth 10000 in
theorem parse?_orderedText :
    Toml.parse? orderedText = some orderedEntries := by
  rfl

set_option maxRecDepth 10000 in
theorem parse?_reversedText :
    Toml.parse? reversedText = some reversedEntries := by
  rfl

theorem tabular_orderedEntries :
    Tabular orderedEntries where
  dialect := by
    intro value hGet
    cases hGet
    rfl
  groups := by
    intro item hMem
    rw [List.mem_singleton.mp hMem]
    rfl

theorem rearranged_reversedEntries :
    orderedEntries.Rearranged reversedEntries := by
  have hReversed := List.reverse_perm orderedEntries
  refine
    Toml.Value.rearranged_of_perm (by decide) hReversed.symm rfl
      (.cons ?_ (.cons ?_ (.cons ?_ .nil)))
  · refine .array rfl rfl (.cons ?_ .nil)
    exact
      Toml.Value.rearranged_perm (by decide)
        (List.reverse_perm orderedGroup).symm
  · exact
      Toml.Value.rearranged_perm (by decide)
        (List.reverse_perm orderedTokens).symm
  · exact .same _

theorem ofText_accepted_reversedText :
    Toml.parse? orderedText = some orderedEntries ∧
      Tabular orderedEntries ∧
      Admissible orderedEntries ∧
      Holds orderedEntries orderedConfig ∧
      orderedEntries.Rearranged reversedEntries ∧
      ofText reversedText = .ok orderedConfig := by
  have hText : ofText orderedText = .ok orderedConfig := by
    decide +kernel
  rcases ofText_accepted parse?_orderedText
    tabular_orderedEntries with ⟨-, hExact, hReordered⟩
  have hHolds := (hExact orderedConfig).mp hText
  refine
    ⟨parse?_orderedText, tabular_orderedEntries, hHolds.1,
      hHolds.2, rearranged_reversedEntries, ?_⟩
  rw [hReordered reversedText reversedEntries
    parse?_reversedText rearranged_reversedEntries]
  exact hText

end Config

end Collate
