import Collate.Toml.Document
import Mathlib.Data.List.Nodup

/-
  The keys of TOML documents.  However a document is written,
  no table in it has a key twice, so a key stands for one value
  wherever it is looked up.

  Key definitions include:
    * `Toml.Value.Keyed`
    * `Toml.Entries.Keyed`
    * `Toml.ReadsKeyed`

  Main declarations:
    * `Toml.Entries.get?_eq_some_iff`
    * `Toml.keyed_of_alterAt?`
    * `Toml.readsKeyed_value?`
    * `Toml.keyed_of_parse?`
-/

------------------------------------------------------------
-- Tables without Repeated Keys
------------------------------------------------------------

namespace Collate

namespace Toml

/- No table within a value has a key twice. -/
inductive Value.Keyed : Value → Prop where
  | string (text : Text) : Keyed (.string text)
  | integer (n : Int) : Keyed (.integer n)
  | float (x : Float) : Keyed (.float x)
  | boolean (b : Bool) : Keyed (.boolean b)
  | moment (written : Text) : Keyed (.moment written)
  | array
      {items : List Value}
      (hItems : ∀ item ∈ items, Keyed item) :
      Keyed (.array items)
  | tables
      {items : List Value}
      (hItems : ∀ item ∈ items, Keyed item) :
      Keyed (.tables items)
  | table
      {form : TableForm}
      {entries : List (Text × Value)}
      (hDistinct : (entries.map (·.1)).Nodup)
      (hValues : ∀ entry ∈ entries, Keyed entry.2) :
      Keyed (.table form entries)

/- Entries without repeated keys, of values of that kind. -/
structure Entries.Keyed
    (entries : Entries) : Prop where
  distinct : (entries.map (·.1)).Nodup
  values : ∀ entry ∈ entries, entry.2.Keyed

namespace Value

theorem keyed_table_iff
    {form : TableForm}
    {entries : Entries} :
    (table form entries).Keyed ↔ entries.Keyed := by
  constructor
  · rintro (_ | _ | _ | _ | _ | _ | _ | ⟨hDistinct, hValues⟩)
    exact ⟨hDistinct, hValues⟩
  · rintro ⟨hDistinct, hValues⟩
    exact .table hDistinct hValues

/- The elements of an array are of the kind that it is of. -/
theorem keyed_iff_of_elements?
    {value : Value}
    {items : List Value}
    (hElements : value.elements? = some items) :
    value.Keyed ↔ ∀ item ∈ items, item.Keyed := by
  cases value with
  | array own =>
      cases hElements
      exact ⟨fun | .array h => h, .array⟩
  | tables own =>
      cases hElements
      exact ⟨fun | .tables h => h, .tables⟩
  | _ => cases hElements

end Value

------------------------------------------------------------
-- Entries
------------------------------------------------------------

namespace Entries

variable {entries : Entries}
variable {key : Text}
variable {value : Value}

theorem keyed_nil : Keyed [] :=
  ⟨List.nodup_nil, by simp⟩

theorem mem_of_get?_eq_some
    (hGet : entries.get? key = some value) :
    (key, value) ∈ entries := by
  induction entries with
  | nil => cases hGet
  | cons entry rest ih =>
      unfold get? at hGet
      split at hGet
      · rename_i hKey
        cases hGet
        rw [← hKey]
        exact List.mem_cons_self
      · exact List.mem_cons_of_mem _ (ih hGet)

theorem get?_eq_none_iff :
    entries.get? key = none ↔ key ∉ entries.map (·.1) := by
  induction entries with
  | nil => simp [get?]
  | cons entry rest ih =>
      unfold get?
      by_cases hKey : entry.1 = key
      · simp [hKey]
      · rw [if_neg hKey, ih, List.map_cons, List.mem_cons, not_or]
        exact ⟨fun h => ⟨Ne.symm hKey, h⟩, And.right⟩

/- A key that is not repeated stands for the value it has. -/
theorem get?_eq_some_iff
    (hDistinct : (entries.map (·.1)).Nodup) :
    entries.get? key = some value ↔ (key, value) ∈ entries := by
  refine ⟨mem_of_get?_eq_some, fun hMem => ?_⟩
  cases hGet : entries.get? key with
  | none =>
      rw [get?_eq_none_iff] at hGet
      exact absurd (List.mem_map_of_mem hMem) hGet
  | some found =>
      have hSame :=
        List.inj_on_of_nodup_map hDistinct
          (mem_of_get?_eq_some hGet) hMem rfl
      rw [(Prod.mk.inj hSame).2]

theorem Keyed.value_of_get?
    (hKeyed : entries.Keyed)
    (hGet : entries.get? key = some value) :
    value.Keyed :=
  hKeyed.values _ (mem_of_get?_eq_some hGet)

theorem Keyed.append
    (hKeyed : entries.Keyed)
    (hNew : entries.get? key = none)
    (hValue : value.Keyed) :
    Keyed (entries ++ [(key, value)]) := by
  rw [get?_eq_none_iff] at hNew
  constructor
  · rw [List.map_append, List.map_singleton,
      List.nodup_append_comm, List.singleton_append,
      List.nodup_cons]
    exact ⟨hNew, hKeyed.distinct⟩
  · intro entry hMem
    rcases List.mem_append.mp hMem with hMem | hMem
    · exact hKeyed.values entry hMem
    · rw [List.mem_singleton.mp hMem]
      exact hValue

theorem Keyed.set
    (hKeyed : entries.Keyed)
    (hValue : value.Keyed) :
    Keyed (entries.set key value) := by
  have hKeys :
      (entries.set key value).map (·.1) = entries.map (·.1) := by
    unfold Entries.set
    rw [List.map_map]
    apply List.map_congr_left
    intro entry _
    by_cases hKey : entry.1 = key <;> simp [hKey]
  constructor
  · rw [hKeys]
    exact hKeyed.distinct
  · intro entry hMem
    rcases List.mem_map.mp hMem with ⟨old, hOld, rfl⟩
    split
    · exact hValue
    · exact hKeyed.values old hOld

theorem Keyed.erase
    (hKeyed : entries.Keyed) :
    Keyed (entries.erase key) := by
  have hPart : (entries.erase key).Sublist entries :=
    List.filter_sublist
  exact
    ⟨(hPart.map _).nodup hKeyed.distinct,
      fun entry hMem => hKeyed.values entry (hPart.subset hMem)⟩

theorem get?_erase :
    (entries.erase key).get? key = none := by
  rw [get?_eq_none_iff]
  unfold Entries.erase
  simp

end Entries

------------------------------------------------------------
-- Definitions
------------------------------------------------------------

/- A change that gives no table a key twice. -/
def KeepsKeys
    (change : TableForm → Entries → Option Entries) : Prop :=
  ∀ form entries changed,
    entries.Keyed → change form entries = some changed →
      changed.Keyed

/- A change at the end of a path is one of the whole. -/
theorem keyed_of_alterAt?
    {dotted : Bool}
    {change : TableForm → Entries → Option Entries}
    (hChange : KeepsKeys change)
    {path : List Text}
    {form : TableForm}
    {entries changed : Entries}
    (hKeyed : entries.Keyed)
    (hAlter :
      alterAt? dotted change path form entries = some changed) :
    changed.Keyed := by
  induction path generalizing form entries changed with
  | nil => exact hChange form entries changed hKeyed hAlter
  | cons part path ih =>
      unfold alterAt? at hAlter
      split at hAlter
      · rename_i hNone
        rcases Option.map_eq_some_iff.mp hAlter with
          ⟨inner, hInner, rfl⟩
        exact
          hKeyed.append hNone
            (Value.keyed_table_iff.mpr
              (ih Entries.keyed_nil hInner))
      · rename_i innerForm inner hSome
        have hTable := hKeyed.value_of_get? hSome
        split at hAlter
        · cases hAlter
        · rcases Option.map_eq_some_iff.mp hAlter with
            ⟨altered, hAltered, rfl⟩
          exact
            hKeyed.set
              (Value.keyed_table_iff.mpr
                (ih (Value.keyed_table_iff.mp hTable) hAltered))
      · rename_i items hSome
        have hItems :=
          (Value.keyed_iff_of_elements? rfl).mp
            (hKeyed.value_of_get? hSome)
        split at hAlter
        · rename_i innerForm inner hLast
          rcases Option.map_eq_some_iff.mp hAlter with
            ⟨altered, hAltered, rfl⟩
          have hTable := hItems _ (List.mem_of_getLast? hLast)
          have hInner :=
            ih (Value.keyed_table_iff.mp hTable) hAltered
          refine hKeyed.set (.tables ?_)
          intro item hMem
          rcases List.mem_append.mp hMem with hMem | hMem
          · exact hItems item (List.dropLast_subset _ hMem)
          · rw [List.mem_singleton.mp hMem]
            exact Value.keyed_table_iff.mpr hInner
        · cases hAlter
      · cases hAlter

/- To set a key is such a change. -/
theorem keepsKeys_assign?
    {key : List Text}
    {value : Value}
    (hValue : value.Keyed) :
    KeepsKeys (assign? key value) := by
  intro form entries changed hKeyed hAssign
  unfold assign? at hAssign
  split at hAssign
  · cases hAssign
  · rename_i name hName
    refine keyed_of_alterAt? ?_ hKeyed hAssign
    intro innerForm inner altered hInner hPut
    dsimp only at hPut
    split at hPut
    · cases hPut
    · split at hPut
      · cases hPut
      · rename_i hNew
        cases hPut
        exact hInner.append (by simpa using hNew) hValue

theorem keyed_of_foldl_assign?
    {pairs : List (List Text × Value)}
    (hPairs : ∀ pair ∈ pairs, pair.2.Keyed)
    {start : Option Entries}
    (hStart : ∀ entries, start = some entries → entries.Keyed)
    {entries : Entries}
    (hFold :
      pairs.foldl
        (fun entries pair =>
          entries.bind (assign? pair.1 pair.2 .inline)) start =
        some entries) :
    entries.Keyed := by
  induction pairs generalizing start with
  | nil => exact hStart entries hFold
  | cons pair pairs ih =>
      rw [List.forall_mem_cons] at hPairs
      refine ih hPairs.2 ?_ hFold
      intro next hNext
      rcases Option.bind_eq_some_iff.mp hNext with
        ⟨before, hBefore, hAssign⟩
      exact
        keepsKeys_assign? hPairs.1 _ _ _ (hStart before hBefore)
          hAssign

/- So braces hold no key twice. -/
theorem keyed_of_inlineTable?
    {pairs : List (List Text × Value)}
    (hPairs : ∀ pair ∈ pairs, pair.2.Keyed)
    {value : Value}
    (hTable : inlineTable? pairs = some value) :
    value.Keyed := by
  rcases Option.map_eq_some_iff.mp hTable with
    ⟨entries, hFold, rfl⟩
  refine
    Value.keyed_table_iff.mpr
      (keyed_of_foldl_assign? hPairs ?_ hFold)
  rintro _ ⟨⟩
  exact Entries.keyed_nil

------------------------------------------------------------
-- Readers of Values
------------------------------------------------------------

/- A reader of values in which no table has a key twice. -/
def ReadsKeyed
    (item : Reader Value) : Prop :=
  ∀ t value rest, item t = some (value, rest) → value.Keyed

theorem keyed_of_integerValue?
    {n : Int}
    {value : Value}
    (hValue : integerValue? n = some value) :
    value.Keyed := by
  unfold integerValue? at hValue
  split at hValue
  · cases hValue
    exact .integer n
  · cases hValue

theorem keyed_of_floatValue?
    {negative : Bool}
    {whole part : Text}
    {power : Int}
    {value : Value}
    (hValue :
      floatValue? negative whole part power = some value) :
    value.Keyed := by
  unfold floatValue? at hValue
  dsimp only at hValue
  split at hValue
  · cases hValue
  · cases hValue
    exact .float _

theorem readsKeyed_based?
    (base : Nat) :
    ReadsKeyed (based? base) := by
  intro t value rest hRead
  unfold based? at hRead
  dsimp only at hRead
  split at hRead
  · cases hRead
  · rcases Option.map_eq_some_iff.mp hRead with
      ⟨found, hFound, hSame⟩
    cases hSame
    exact keyed_of_integerValue? hFound

theorem readsKeyed_decimal? :
    ReadsKeyed decimal? := by
  intro t value rest hRead
  unfold decimal? at hRead
  dsimp only at hRead
  split at hRead
  · cases hRead
  · split at hRead <;>
      rcases Option.map_eq_some_iff.mp hRead with
        ⟨found, hFound, hSame⟩ <;>
      cases hSame
    · exact keyed_of_integerValue? hFound
    · exact keyed_of_floatValue? hFound
    · exact keyed_of_floatValue? hFound

theorem readsKeyed_special? :
    ReadsKeyed special? := by
  intro t value rest hRead
  unfold special? at hRead
  dsimp only at hRead
  split at hRead
  · cases hRead
    exact .float _
  · cases hRead
    exact .float _
  · cases hRead

theorem readsKeyed_number? :
    ReadsKeyed number? := by
  intro t value rest hRead
  unfold number? at hRead
  split at hRead
  · exact readsKeyed_based? 16 _ _ _ hRead
  · exact readsKeyed_based? 8 _ _ _ hRead
  · exact readsKeyed_based? 2 _ _ _ hRead
  · rcases Option.or_eq_some_iff.mp hRead with hRead | ⟨-, hRead⟩
    · exact readsKeyed_special? _ _ _ hRead
    · exact readsKeyed_decimal? _ _ _ hRead

theorem readsKeyed_scalarValue? :
    ReadsKeyed scalarValue? := by
  intro t value rest hRead
  unfold scalarValue? at hRead
  split at hRead
  · cases hRead
    exact .boolean true
  · cases hRead
    exact .boolean false
  · split at hRead
    · rcases Option.map_eq_some_iff.mp hRead with
        ⟨⟨text, after⟩, -, hSame⟩
      cases hSame
      exact .string text
    · rcases Option.or_eq_some_iff.mp hRead with
        hRead | ⟨-, hRead⟩
      · rcases Option.map_eq_some_iff.mp hRead with
          ⟨after, -, hSame⟩
        cases hSame
        exact .moment _
      · exact readsKeyed_number? _ _ _ hRead
  · cases hRead

variable {item : Reader Value}

theorem keyed_of_elements?
    (hItem : ReadsKeyed item)
    {count : Nat}
    {t rest : Text}
    {values : List Value}
    (hRead : elements? item count t = some (values, rest)) :
    ∀ value ∈ values, value.Keyed := by
  induction count generalizing t rest values with
  | zero => cases hRead
  | succ count ih =>
      unfold elements? at hRead
      split at hRead
      · cases hRead
        simp
      · split at hRead
        · cases hRead
        · rename_i first after hFirst
          have hKeyed := hItem _ _ _ hFirst
          split at hRead
          · rcases Option.map_eq_some_iff.mp hRead with
              ⟨⟨others, last⟩, hOthers, hSame⟩
            cases hSame
            exact List.forall_mem_cons.mpr ⟨hKeyed, ih hOthers⟩
          · cases hRead
            simpa using hKeyed
          · cases hRead

theorem keyed_of_pair?
    (hItem : ReadsKeyed item)
    {t rest : Text}
    {pair : List Text × Value}
    (hRead : pair? item t = some (pair, rest)) :
    pair.2.Keyed := by
  unfold pair? at hRead
  split at hRead
  · rcases Option.map_eq_some_iff.mp hRead with
      ⟨⟨value, after⟩, hValue, hSame⟩
    cases hSame
    exact hItem _ _ _ hValue
  · cases hRead

theorem keyed_of_pairs?
    (hItem : ReadsKeyed item)
    {count : Nat}
    {t rest : Text}
    {pairs : List (List Text × Value)}
    (hRead : pairs? item count t = some (pairs, rest)) :
    ∀ pair ∈ pairs, pair.2.Keyed := by
  induction count generalizing t rest pairs with
  | zero => cases hRead
  | succ count ih =>
      unfold pairs? at hRead
      split at hRead
      · cases hRead
      · rename_i first after hFirst
        have hKeyed := keyed_of_pair? hItem hFirst
        split at hRead
        · rcases Option.map_eq_some_iff.mp hRead with
            ⟨⟨others, last⟩, hOthers, hSame⟩
          cases hSame
          exact List.forall_mem_cons.mpr ⟨hKeyed, ih hOthers⟩
        · cases hRead
          simpa using hKeyed
        · cases hRead

theorem readsKeyed_braces?
    (hItem : ReadsKeyed item) :
    ReadsKeyed (braces? item) := by
  intro t value rest hRead
  unfold braces? at hRead
  split at hRead
  · cases hRead
    exact Value.keyed_table_iff.mpr Entries.keyed_nil
  · split at hRead
    · cases hRead
    · rename_i pairs after hPairs
      rcases Option.map_eq_some_iff.mp hRead with
        ⟨found, hFound, hSame⟩
      cases hSame
      exact
        keyed_of_inlineTable? (keyed_of_pairs? hItem hPairs) hFound

/- Values of any depth are read without repeated keys. -/
theorem readsKeyed_valueWithin?
    (depth : Nat) :
    ReadsKeyed (valueWithin? depth) := by
  induction depth with
  | zero =>
      intro t value rest hRead
      exact readsKeyed_scalarValue? t value rest hRead
  | succ depth ih =>
      intro t value rest hRead
      unfold valueWithin? at hRead
      split at hRead
      · contradiction
      · rename_i hDepth
        cases hDepth
        rcases Option.map_eq_some_iff.mp hRead with
          ⟨⟨items, after⟩, hItems, hSame⟩
        cases hSame
        exact .array (keyed_of_elements? ih hItems)
      · rename_i hDepth
        cases hDepth
        exact readsKeyed_braces? ih _ _ _ hRead
      · exact readsKeyed_scalarValue? _ _ _ hRead

theorem readsKeyed_value? :
    ReadsKeyed value? :=
  readsKeyed_valueWithin? depthLimit

------------------------------------------------------------
-- Documents
------------------------------------------------------------

/- A statement whose value has no table with a key twice. -/
def Statement.Keyed : Statement → Prop
  | .pair _ value => value.Keyed
  | .header _ => True
  | .element _ => True

theorem keyed_of_statement?
    {t rest : Text}
    {statement : Statement}
    (hRead : statement? t = some (statement, rest)) :
    statement.Keyed := by
  unfold statement? at hRead
  split at hRead
  · split at hRead
    · rcases Option.map_eq_some_iff.mp hRead with ⟨_, -, hSame⟩
      cases hSame
      trivial
    · cases hRead
  · split at hRead
    · rcases Option.map_eq_some_iff.mp hRead with ⟨_, -, hSame⟩
      cases hSame
      trivial
    · cases hRead
  · split at hRead
    · rename_i key value after hPair
      rcases Option.map_eq_some_iff.mp hRead with ⟨_, -, hSame⟩
      cases hSame
      exact keyed_of_pair? readsKeyed_value? hPair
    · cases hRead

theorem keyed_of_statementsWithin?
    {count : Nat}
    {t : Text}
    {statements : List Statement}
    (hRead : statementsWithin? count t = some statements) :
    ∀ statement ∈ statements, statement.Keyed := by
  induction count generalizing t statements with
  | zero => cases hRead
  | succ count ih =>
      unfold statementsWithin? at hRead
      split at hRead
      · cases hRead
        simp
      · split at hRead
        · rcases Option.bind_eq_some_iff.mp hRead with
            ⟨after, -, hAfter⟩
          exact ih hAfter
        · split at hRead
          · cases hRead
          · rename_i first after hFirst
            rcases Option.map_eq_some_iff.mp hRead with
              ⟨others, hOthers, rfl⟩
            exact
              List.forall_mem_cons.mpr
                ⟨keyed_of_statement? hFirst, ih hOthers⟩

theorem keyed_of_openTable?
    {name : Text}
    {entries changed : Entries}
    (hKeyed : entries.Keyed)
    (hOpen : openTable? name entries = some changed) :
    changed.Keyed := by
  unfold openTable? at hOpen
  split at hOpen
  · rename_i hNone
    cases hOpen
    exact
      hKeyed.append hNone
        (Value.keyed_table_iff.mpr Entries.keyed_nil)
  · rename_i inner hSome
    cases hOpen
    have hInner :=
      Value.keyed_table_iff.mp (hKeyed.value_of_get? hSome)
    exact
      hKeyed.erase.append Entries.get?_erase
        (Value.keyed_table_iff.mpr hInner)
  · cases hOpen

theorem keyed_of_openElement?
    {name : Text}
    {entries changed : Entries}
    (hKeyed : entries.Keyed)
    (hOpen : openElement? name entries = some changed) :
    changed.Keyed := by
  have hFresh : (Value.table .header []).Keyed :=
    Value.keyed_table_iff.mpr Entries.keyed_nil
  unfold openElement? at hOpen
  split at hOpen
  · rename_i hNone
    cases hOpen
    exact hKeyed.append hNone (.tables (by simpa using hFresh))
  · rename_i items hSome
    cases hOpen
    have hItems :=
      (Value.keyed_iff_of_elements? rfl).mp
        (hKeyed.value_of_get? hSome)
    refine hKeyed.set (.tables ?_)
    intro item hMem
    rcases List.mem_append.mp hMem with hMem | hMem
    · exact hItems item hMem
    · rw [List.mem_singleton.mp hMem]
      exact hFresh
  · cases hOpen

theorem keyed_of_openAt?
    {change : Text → Entries → Option Entries}
    (hChange : ∀ name, KeepsKeys fun _ => change name)
    {key : List Text}
    {root changed : Entries}
    (hKeyed : root.Keyed)
    (hOpen : openAt? change key root = some changed) :
    changed.Keyed := by
  unfold openAt? at hOpen
  split at hOpen
  · cases hOpen
  · exact keyed_of_alterAt? (hChange _) hKeyed hOpen

/- Each statement keeps the keys of what is defined apart. -/
theorem keyed_of_define?
    {statements : List Statement}
    (hStatements : ∀ statement ∈ statements, statement.Keyed)
    {here : List Text}
    {root entries : Entries}
    (hKeyed : root.Keyed)
    (hDefine : define? statements here root = some entries) :
    entries.Keyed := by
  induction statements generalizing here root with
  | nil =>
      cases hDefine
      exact hKeyed
  | cons statement rest ih =>
      rw [List.forall_mem_cons] at hStatements
      cases statement with
      | pair key value =>
          rcases Option.bind_eq_some_iff.mp hDefine with
            ⟨next, hNext, hRest⟩
          refine ih hStatements.2 ?_ hRest
          refine keyed_of_alterAt? ?_ hKeyed hNext
          intro _ inner changed hInner hAssign
          exact
            keepsKeys_assign? hStatements.1 _ _ _ hInner hAssign
      | header key =>
          rcases Option.bind_eq_some_iff.mp hDefine with
            ⟨next, hNext, hRest⟩
          refine ih hStatements.2 ?_ hRest
          exact
            keyed_of_openAt?
              (fun _ _ _ _ => keyed_of_openTable?) hKeyed hNext
      | element key =>
          rcases Option.bind_eq_some_iff.mp hDefine with
            ⟨next, hNext, hRest⟩
          refine ih hStatements.2 ?_ hRest
          exact
            keyed_of_openAt?
              (fun _ _ _ _ => keyed_of_openElement?) hKeyed hNext

/- No table of a document has a key twice. -/
theorem keyed_of_parse?
    {text : Text}
    {entries : Entries}
    (hParse : parse? text = some entries) :
    entries.Keyed := by
  rcases Option.bind_eq_some_iff.mp hParse with
    ⟨statements, hStatements, hDefine⟩
  refine keyed_of_define? ?_ Entries.keyed_nil hDefine
  unfold statements? at hStatements
  split at hStatements
  · cases hStatements
    simp
  · split at hStatements <;>
      exact keyed_of_statementsWithin? hStatements

end Toml

end Collate
