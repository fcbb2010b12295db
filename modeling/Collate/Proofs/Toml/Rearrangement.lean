import Collate.Proofs.Toml.Keys
import Mathlib.Data.List.Forall2
import Mathlib.Data.Option.Basic

/-
  Documents that differ in the order of keys.  The tables of
  a document may be rearranged at any depth; what is found
  under a key stays the same up to such rearrangement.

  Key definitions include:
    * `Toml.Value.text?`
    * `Toml.Value.table?`
    * `Toml.Value.Rearranged`
    * `Toml.Entries.Rearranged`
    * `Toml.Value.Alike`
    * `Toml.Entries.Alike`

  Main declarations:
    * `Toml.Value.rearranged_of_perm`
    * `Toml.Value.Alike.text?_eq`
    * `Toml.Value.Alike.elements?_rel`
    * `Toml.Value.Alike.table?_rel`
    * `Toml.Entries.alike_of_rearranged`
-/

------------------------------------------------------------
-- Views of Values
------------------------------------------------------------

namespace Collate

namespace Toml

/- The text of a string. -/
def Value.text? : Value → Option Text
  | .string text => some text
  | _ => none

/- The entries of a table. -/
def Value.table? : Value → Option Entries
  | .table _ entries => some entries
  | _ => none

namespace Entries

/- The text under a key. -/
def text?
    (key : Text)
    (entries : Entries) : Option Text :=
  (entries.get? key).bind Value.text?

/- The elements of the array under a key. -/
def items
    (key : Text)
    (entries : Entries) : List Value :=
  ((entries.get? key).bind Value.elements?).getD []

/- The entries of the table under a key. -/
def inner
    (key : Text)
    (entries : Entries) : Entries :=
  ((entries.get? key).bind Value.table?).getD []

end Entries

------------------------------------------------------------
-- Rearranged Values
------------------------------------------------------------

/-
  Values that differ in the order of keys, within any of
  their tables.  How arrays and tables are written makes no
  difference.
-/
inductive Value.Rearranged : Value → Value → Prop where
  | same (value : Value) : Rearranged value value
  | array
      {value other : Value}
      {items others : List Value}
      (hValue : value.elements? = some items)
      (hOther : other.elements? = some others)
      (hItems : List.Forall₂ Rearranged items others) :
      Rearranged value other
  | table
      {form otherForm : TableForm}
      {entries others : List (Text × Value)}
      (hKeys : (entries.map (·.1)).Perm (others.map (·.1)))
      (hValues :
        ∀ key value other,
          Entries.get? key entries = some value →
            Entries.get? key others = some other →
              Rearranged value other) :
      Rearranged (.table form entries) (.table otherForm others)

/- Documents that differ so. -/
def Entries.Rearranged
    (entries others : Entries) : Prop :=
  (Value.table .header entries).Rearranged (.table .header others)

/- Such values, without repeated keys. -/
structure Value.Alike
    (value other : Value) : Prop where
  keyed : value.Keyed
  otherKeyed : other.Keyed
  rearranged : value.Rearranged other

/- Entries with the same keys, and such values under them. -/
structure Entries.Alike
    (entries others : Entries) : Prop where
  keyed : entries.Keyed
  otherKeyed : others.Keyed
  keys : (entries.map (·.1)).Perm (others.map (·.1))
  values :
    ∀ key value other,
      entries.get? key = some value →
        others.get? key = some other → value.Alike other

/- The order of keys does not matter to a lookup. -/
theorem Entries.get?_of_perm
    {entries moved : Entries}
    (hDistinct : (entries.map (·.1)).Nodup)
    (hMoved : entries.Perm moved)
    (key : Text) :
    moved.get? key = entries.get? key := by
  have hOther : (moved.map (·.1)).Nodup :=
    (hMoved.map _).nodup_iff.mp hDistinct
  apply Option.ext
  intro value
  rw [get?_eq_some_iff hOther, get?_eq_some_iff hDistinct,
    hMoved.mem_iff]

/- Lookups in tables with the same keys find related values. -/
theorem Entries.related_of_get?
    {R : Value → Value → Prop}
    {entries others : Entries}
    (hKeys : entries.map (·.1) = others.map (·.1))
    (hValues :
      List.Forall₂ R (entries.map (·.2)) (others.map (·.2)))
    {key : Text}
    {value other : Value}
    (hValue : entries.get? key = some value)
    (hOther : others.get? key = some other) :
    R value other := by
  induction entries generalizing others with
  | nil => cases hValue
  | cons entry entries ih =>
      cases others with
      | nil => cases hKeys
      | cons moved others =>
          rw [List.map_cons, List.map_cons, List.cons.injEq]
            at hKeys
          rw [List.map_cons, List.map_cons, List.forall₂_cons]
            at hValues
          unfold get? at hValue hOther
          rw [← hKeys.1] at hOther
          split at hValue
          · rename_i hKey
            rw [if_pos hKey] at hOther
            cases hValue
            cases hOther
            exact hValues.1
          · rename_i hKey
            rw [if_neg hKey] at hOther
            exact ih hKeys.2 hValues.2 hValue hOther

/-
  To permute the entries of a table, and to rearrange their
  values in turn, is to rearrange it.
-/
theorem Value.rearranged_of_perm
    {form otherForm : TableForm}
    {entries moved others : Entries}
    (hDistinct : (entries.map (·.1)).Nodup)
    (hMoved : entries.Perm moved)
    (hKeys : moved.map (·.1) = others.map (·.1))
    (hValues :
      List.Forall₂ Rearranged (moved.map (·.2))
        (others.map (·.2))) :
    (table form entries).Rearranged (table otherForm others) := by
  refine .table ?_ ?_
  · rw [← hKeys]
    exact hMoved.map _
  · intro key value other hValue hOther
    have hFound := Entries.get?_of_perm hDistinct hMoved key
    rw [hValue] at hFound
    exact Entries.related_of_get? hKeys hValues hFound hOther

theorem Value.rearranged_perm
    {form otherForm : TableForm}
    {entries moved : Entries}
    (hDistinct : (entries.map (·.1)).Nodup)
    (hMoved : entries.Perm moved) :
    (table form entries).Rearranged (table otherForm moved) := by
  refine rearranged_of_perm hDistinct hMoved rfl ?_
  exact List.forall₂_same.mpr fun value _ => .same value

/- Two results stay related when what is in them is. -/
theorem rel_of_rel
    {α β : Type}
    {R S : α → β → Prop}
    {a : Option α}
    {b : Option β}
    (hRel : Option.Rel R a b)
    (hStep : ∀ x y, a = some x → b = some y → R x y → S x y) :
    Option.Rel S a b := by
  cases hRel with
  | some hPair => exact .some (hStep _ _ rfl rfl hPair)
  | none => exact .none

theorem rel_cases
    {α β : Type}
    {R : α → β → Prop}
    {a : Option α}
    {b : Option β}
    (hRel : Option.Rel R a b) :
    (a = none ∧ b = none) ∨
      ∃ x y, a = some x ∧ b = some y ∧ R x y := by
  cases hRel with
  | some hPair => exact .inr ⟨_, _, rfl, rfl, hPair⟩
  | none => exact .inl ⟨rfl, rfl⟩

theorem Entries.alike_of_rearranged
    {form otherForm : TableForm}
    {entries others : Entries}
    (hKeyed : entries.Keyed)
    (hOthers : others.Keyed)
    (hRearranged :
      (Value.table form entries).Rearranged
        (.table otherForm others)) :
    entries.Alike others := by
  have hTables :
      (entries.map (·.1)).Perm (others.map (·.1)) ∧
        ∀ key value other,
          entries.get? key = some value →
            others.get? key = some other →
              value.Rearranged other := by
    cases hRearranged with
    | same =>
        refine ⟨.refl _, fun key value other hValue hOther => ?_⟩
        rw [hValue] at hOther
        cases hOther
        exact .same value
    | array hValue => cases hValue
    | table hKeys hValues => exact ⟨hKeys, hValues⟩
  refine ⟨hKeyed, hOthers, hTables.1, ?_⟩
  intro key value other hValue hOther
  exact
    ⟨hKeyed.value_of_get? hValue, hOthers.value_of_get? hOther,
      hTables.2 key value other hValue hOther⟩

------------------------------------------------------------
-- Views of Rearranged Values
------------------------------------------------------------

namespace Value

variable {value other : Value}

theorem Alike.text?_eq
    (hAlike : value.Alike other) :
    other.text? = value.text? := by
  rcases hAlike with ⟨-, -, hRearranged⟩
  cases hRearranged with
  | same => rfl
  | array hValue hOther =>
      cases value <;> cases hValue <;>
        cases other <;> cases hOther <;> rfl
  | table => rfl

/- Arrays keep their elements, rearranged in turn. -/
theorem Alike.elements?_rel
    (hAlike : value.Alike other) :
    Option.Rel (List.Forall₂ Alike) value.elements?
      other.elements? := by
  rcases hAlike with ⟨hKeyed, hOtherKeyed, hRearranged⟩
  have hRel :
      Option.Rel (List.Forall₂ Rearranged) value.elements?
        other.elements? := by
    cases hRearranged with
    | same =>
        cases value.elements? with
        | none => exact .none
        | some items =>
            refine .some (List.forall₂_same.mpr ?_)
            exact fun item _ => .same item
    | array hItems hOthers hPairs =>
        rw [hItems, hOthers]
        exact .some hPairs
    | table => exact .none
  refine rel_of_rel hRel ?_
  intro items others hItems hOthers hPairs
  have hItemKeyed := (keyed_iff_of_elements? hItems).mp hKeyed
  have hOtherItemKeyed :=
    (keyed_iff_of_elements? hOthers).mp hOtherKeyed
  rw [List.forall₂_iff_get] at hPairs ⊢
  refine ⟨hPairs.1, fun i hItem hOther => ?_⟩
  exact
    ⟨hItemKeyed _ (List.get_mem _ _),
      hOtherItemKeyed _ (List.get_mem _ _),
      hPairs.2 i hItem hOther⟩

/- Tables keep their keys, with the values rearranged in turn. -/
theorem Alike.table?_rel
    (hAlike : value.Alike other) :
    Option.Rel Entries.Alike value.table? other.table? := by
  rcases hAlike with ⟨hKeyed, hOtherKeyed, hRearranged⟩
  have hRel :
      Option.Rel (fun _ _ => True) value.table? other.table? := by
    cases hRearranged with
    | same =>
        cases value.table? with
        | none => exact .none
        | some entries => exact .some trivial
    | array hItems hOthers =>
        cases value <;> cases hItems <;>
          cases other <;> cases hOthers <;> exact .none
    | table => exact .some trivial
  refine rel_of_rel hRel ?_
  intro entries others hEntries hOthers _
  cases value <;> cases hEntries
  cases other <;> cases hOthers
  exact
    Entries.alike_of_rearranged (keyed_table_iff.mp hKeyed)
      (keyed_table_iff.mp hOtherKeyed) hRearranged

end Value

------------------------------------------------------------
-- Views of Rearranged Entries
------------------------------------------------------------

namespace Entries

variable {entries others : Entries}

theorem alike_nil :
    Alike [] [] :=
  ⟨keyed_nil, keyed_nil, .refl _, by simp [get?]⟩

/- What is found under a key. -/
theorem Alike.get?_rel
    (hAlike : entries.Alike others)
    (key : Text) :
    Option.Rel Value.Alike (entries.get? key)
      (others.get? key) := by
  have hNone :
      entries.get? key = none ↔ others.get? key = none := by
    rw [get?_eq_none_iff, get?_eq_none_iff, hAlike.keys.mem_iff]
  cases hValue : entries.get? key with
  | none =>
      rw [hNone.mp hValue]
      exact .none
  | some value =>
      cases hOther : others.get? key with
      | none =>
          rw [hNone.mpr hOther] at hValue
          cases hValue
      | some other =>
          exact .some (hAlike.values key value other hValue hOther)

theorem Alike.text?_eq
    (hAlike : entries.Alike others)
    (key : Text) :
    others.text? key = entries.text? key := by
  unfold Entries.text?
  rcases rel_cases (hAlike.get?_rel key) with
    ⟨hValue, hOther⟩ | ⟨value, other, hValue, hOther, hPair⟩
  · rw [hValue, hOther]
  · rw [hValue, hOther]
    exact hPair.text?_eq

theorem Alike.items_rel
    (hAlike : entries.Alike others)
    (key : Text) :
    List.Forall₂ Value.Alike (entries.items key)
      (others.items key) := by
  unfold items
  rcases rel_cases (hAlike.get?_rel key) with
    ⟨hValue, hOther⟩ | ⟨value, other, hValue, hOther, hPair⟩
  · rw [hValue, hOther]
    exact .nil
  · rw [hValue, hOther, Option.bind_some, Option.bind_some]
    rcases rel_cases hPair.elements?_rel with
      ⟨hItems, hOthers⟩ | ⟨own, others, hItems, hOthers, hPairs⟩
    · rw [hItems, hOthers]
      exact .nil
    · rw [hItems, hOthers]
      exact hPairs

theorem Alike.inner_alike
    (hAlike : entries.Alike others)
    (key : Text) :
    (entries.inner key).Alike (others.inner key) := by
  unfold inner
  rcases rel_cases (hAlike.get?_rel key) with
    ⟨hValue, hOther⟩ | ⟨value, other, hValue, hOther, hPair⟩
  · rw [hValue, hOther]
    exact alike_nil
  · rw [hValue, hOther, Option.bind_some, Option.bind_some]
    rcases rel_cases hPair.table?_rel with
      ⟨hTable, hOthers⟩ | ⟨own, others, hTable, hOthers, hTables⟩
    · rw [hTable, hOthers]
      exact alike_nil
    · rw [hTable, hOthers]
      exact hTables

end Entries

end Toml

end Collate
