import Collate.Proofs.Config
import Collate.Proofs.Text.Gist
import Mathlib.Data.List.Forall2

/-
  The groups that are selected from a configuration, and the
  paths of these groups under a base directory.  A selection
  is a set of names: neither the order in which names are
  selected nor how often one is selected makes a difference,
  except that the first unknown name is the one reported.

  Key definitions include:
    * `Path.parts`
    * `Path.PutUnder`
    * `Config.IsName`
    * `Config.Resolved`
    * `Config.Selects`

  Main declarations:
    * `Path.putUnder_join`
    * `Config.resolve_eq_error_iff`
    * `Config.selects_of_known`
    * `Config.resolve_of_mem_iff`
    * `Config.resolve_of_all`
    * `Config.resolve_selected`
-/

------------------------------------------------------------
-- Paths under a Base Directory
------------------------------------------------------------

namespace Collate

/- A mark divides a text into what is before and behind it. -/
theorem Text.splitOn_append_mark
    (mark : Char)
    (a b : Text) :
    splitOn mark (a ++ mark :: b) =
      splitOn mark a ++ splitOn mark b := by
  induction a with
  | nil => simp [splitOn]
  | cons c a ih =>
      by_cases hMark : c = mark
      · simp [splitOn, hMark, ih]
      · cases hPieces : splitOn mark a with
        | nil => exact absurd hPieces (splitOn_ne_nil _ a)
        | cons piece pieces =>
            rw [hPieces] at ih
            simp [splitOn, hMark, ih, hPieces]

namespace Path

/- The pieces of a path that lead somewhere. -/
def parts
    (p : Path) : List Text :=
  (pieces p).filter fun piece => !isIdle piece

/- A path that was put under a base directory. -/
structure PutUnder
    (base p q : Path) : Prop where
  -- An absolute path stays where it is.
  kept : p.isAbsolute = true → q = p
  -- A relative one follows the base, behind one slash at most.
  follows :
    p.isAbsolute = false →
      q = base ++ p ∨ q = base ++ '/' :: p
  -- It starts where the base starts, and goes on from there.
  origin :
    p.isAbsolute = false → q.isAbsolute = base.isAbsolute
  leads :
    p.isAbsolute = false → parts q = parts base ++ parts p

theorem parts_append_slash
    (base p : Path) :
    parts (base ++ '/' :: p) = parts base ++ parts p := by
  unfold parts pieces
  rw [Text.splitOn_append_mark, List.filter_append]

/- A slash at the end of a base is not written twice. -/
theorem parts_append_of_endsInSlash
    {base : Path}
    (hSlash : endsInSlash base = true)
    (p : Path) :
    parts (base ++ p) = parts base ++ parts p := by
  have hLast : base.getLast? = some '/' := by
    simpa [endsInSlash] using hSlash
  rcases List.getLast?_eq_some_iff.mp hLast with ⟨front, rfl⟩
  have hNone : parts [] = [] := rfl
  rw [List.append_assoc, List.singleton_append,
    parts_append_slash, parts_append_slash, hNone,
    List.append_nil]

theorem putUnder_join
    (base p : Path) :
    PutUnder base p (join base p) := by
  unfold join
  by_cases hAbsolute : p.isAbsolute = true
  · rw [if_pos hAbsolute]
    refine ⟨fun _ => rfl, ?_, ?_, ?_⟩ <;>
      intro hRelative <;> simp [hAbsolute] at hRelative
  rw [if_neg hAbsolute]
  cases base with
  | nil =>
      have hNone : isAbsolute [] = false := rfl
      refine
        ⟨fun h => absurd h hAbsolute, fun _ => .inl rfl, ?_,
          fun _ => rfl⟩
      intro hRelative
      exact hRelative.trans hNone.symm
  | cons c base =>
      by_cases hSlash : endsInSlash (c :: base) = true
      · rw [if_pos (by simp [hSlash])]
        exact
          ⟨fun h => absurd h hAbsolute, fun _ => .inl rfl,
            fun _ => rfl,
            fun _ => parts_append_of_endsInSlash hSlash p⟩
      · rw [if_neg (by simp [hSlash])]
        exact
          ⟨fun h => absurd h hAbsolute, fun _ => .inr rfl,
            fun _ => rfl, fun _ => parts_append_slash _ p⟩

end Path

------------------------------------------------------------
-- Unknown Names
------------------------------------------------------------

namespace Config

/- Whether a group has a name. -/
def IsName
    (c : Config)
    (name : Text) : Prop :=
  ∃ g ∈ c.groups, g.name = name

variable {c : Config}
variable {base : Path}
variable {selected : List Text}

theorem hasGroup_eq_true_iff
    {name : Text} :
    c.hasGroup name = true ↔ c.IsName name := by
  simp [hasGroup, IsName]

/- The first selected name that no group has is reported. -/
theorem resolve_eq_error_iff
    {fault : ConfigFault} :
    c.resolve base selected = .error fault ↔
      ∃ before name after,
        selected = before ++ name :: after ∧
          (∀ earlier ∈ before, c.IsName earlier) ∧
          ¬ c.IsName name ∧ fault = .unknownGroup name := by
  have hFind :
      ∀ name,
        (selected.find? fun name => !c.hasGroup name) =
            some name ↔
          ∃ before after,
            selected = before ++ name :: after ∧
              (∀ earlier ∈ before, c.IsName earlier) ∧
              ¬ c.IsName name := by
    intro name
    rw [List.find?_eq_some_iff_append]
    simp only [Bool.not_eq_true', Bool.not_not,
      ← hasGroup_eq_true_iff, Bool.not_eq_true]
    constructor
    · rintro ⟨hName, before, after, hSplit, hBefore⟩
      exact ⟨before, after, hSplit, hBefore, hName⟩
    · rintro ⟨before, after, hSplit, hBefore, hName⟩
      exact ⟨hName, before, after, hSplit, hBefore⟩
  unfold resolve
  split
  · rename_i name hName
    rcases (hFind name).mp hName with
      ⟨before, after, hSplit, hBefore, hUnknown⟩
    rw [Except.error.injEq]
    constructor
    · rintro rfl
      exact
        ⟨before, name, after, hSplit, hBefore, hUnknown, rfl⟩
    · rintro ⟨_, other, _, hOther, hEarlier, hNot, rfl⟩
      have hSame :=
        (hFind other).mpr ⟨_, _, hOther, hEarlier, hNot⟩
      rw [hName] at hSame
      rw [Option.some.inj hSame]
  · rename_i hNone
    simp only [reduceCtorEq, false_iff]
    rintro ⟨before, name, after, hSplit, hBefore, hUnknown, -⟩
    have hSome :=
      (hFind name).mpr ⟨before, after, hSplit, hBefore, hUnknown⟩
    rw [hNone] at hSome
    cases hSome

------------------------------------------------------------
-- Selected Groups
------------------------------------------------------------

/- A group as it is configured, and as it is run. -/
structure Resolved
    (base : Path)
    (g r : MergeGroup) : Prop where
  name : r.name = g.name
  moduleName : r.moduleName = g.moduleName
  -- As many inputs, in the same order.
  inputs : List.Forall₂ (Path.PutUnder base) g.inputs r.inputs
  output : Path.PutUnder base g.output r.output

theorem resolved_resolveGroup
    (base : Path)
    (g : MergeGroup) :
    Resolved base g (resolveGroup base g) where
  name := rfl
  moduleName := rfl
  inputs := by
    rw [show (resolveGroup base g).inputs =
      g.inputs.map (Path.join base) from rfl,
      List.forall₂_map_right_iff, List.forall₂_same]
    intro p _
    exact Path.putUnder_join base p
  output := Path.putUnder_join base g.output

/- The groups that a selection of known names asks for. -/
structure Selects
    (c : Config)
    (base : Path)
    (selected : List Text)
    (groups : List MergeGroup) : Prop where
  -- They are groups of the configuration, in its order.
  ordered :
    ∃ chosen,
      chosen.Sublist c.groups ∧
        List.Forall₂ (Resolved base) chosen groups
  -- No two have one name.
  distinct : (groups.map (·.name)).Nodup
  -- Each name is there if it is selected, or if none is.
  names :
    selected ≠ [] →
      ∀ name, name ∈ groups.map (·.name) ↔ name ∈ selected
  all :
    selected = [] →
      List.Forall₂ (Resolved base) c.groups groups

/- What is asked for, before paths are put under the base. -/
def chosen
    (c : Config)
    (selected : List Text) : List MergeGroup :=
  c.groups.filter fun g =>
    selected.isEmpty || selected.contains g.name

theorem resolve_of_known
    (hKnown : ∀ name ∈ selected, c.IsName name) :
    c.resolve base selected =
      .ok ((c.chosen selected).map (resolveGroup base)) :=
  resolve_eq_ok_iff.mpr ⟨hKnown, rfl⟩

theorem names_resolved
    (groups : List MergeGroup) :
    (groups.map (resolveGroup base)).map (·.name) =
      groups.map (·.name) := by
  rw [List.map_map]
  rfl

theorem mem_names_chosen
    (hSelected : selected ≠ [])
    {name : Text} :
    name ∈ (c.chosen selected).map (·.name) ↔
      c.IsName name ∧ name ∈ selected := by
  have hSome : selected.isEmpty = false := by
    simpa using hSelected
  simp only [chosen, hSome, Bool.false_or, List.contains_iff_mem,
    List.mem_map, List.mem_filter, IsName]
  constructor
  · rintro ⟨g, ⟨hMem, hName⟩, rfl⟩
    exact ⟨⟨g, hMem, rfl⟩, hName⟩
  · rintro ⟨⟨g, hMem, rfl⟩, hName⟩
    exact ⟨g, ⟨hMem, hName⟩, rfl⟩

theorem chosen_nil :
    c.chosen [] = c.groups := by
  simp [chosen]

/- A selection of known names is answered as it should be. -/
theorem selects_of_known
    (hNamed : WellNamed c.groups)
    (hKnown : ∀ name ∈ selected, c.IsName name) :
    c.Selects base selected
      ((c.chosen selected).map (resolveGroup base)) := by
  have hResolved :
      ∀ groups : List MergeGroup,
        List.Forall₂ (Resolved base) groups
          (groups.map (resolveGroup base)) := by
    intro groups
    rw [List.forall₂_map_right_iff, List.forall₂_same]
    intro g _
    exact resolved_resolveGroup base g
  have hOrder : (c.chosen selected).Sublist c.groups :=
    List.filter_sublist
  refine
    { ordered := ⟨_, hOrder, hResolved _⟩
      distinct := ?_
      names := ?_
      all := ?_ }
  · rw [names_resolved]
    exact (hOrder.map _).nodup hNamed.distinct
  · intro hSelected name
    rw [names_resolved, mem_names_chosen hSelected]
    exact ⟨And.right, fun hMem => ⟨hKnown name hMem, hMem⟩⟩
  · rintro rfl
    rw [chosen_nil]
    exact hResolved _

/- Only which names are selected makes a difference. -/
theorem resolve_of_mem_iff
    {other : List Text}
    (hKnown : ∀ name ∈ selected, c.IsName name)
    (hSame : ∀ name, name ∈ other ↔ name ∈ selected) :
    c.resolve base other = c.resolve base selected := by
  have hOther : ∀ name ∈ other, c.IsName name := by
    intro name hMem
    exact hKnown name ((hSame name).mp hMem)
  have hEmpty : other.isEmpty = selected.isEmpty := by
    rw [Bool.eq_iff_iff, List.isEmpty_iff, List.isEmpty_iff,
      List.eq_nil_iff_forall_not_mem,
      List.eq_nil_iff_forall_not_mem]
    simp only [hSame]
  have hChosen : c.chosen other = c.chosen selected := by
    unfold chosen
    congr 1
    funext g
    rw [hEmpty, Bool.eq_iff_iff]
    simp only [Bool.or_eq_true, List.contains_iff_mem, hSame]
  rw [resolve_of_known hOther, resolve_of_known hKnown, hChosen]

/- To select every name is to select none. -/
theorem resolve_of_all
    (hKnown : ∀ name ∈ selected, c.IsName name)
    (hAll : ∀ name, c.IsName name → name ∈ selected) :
    c.resolve base selected = c.resolve base [] := by
  have hNone : ∀ name ∈ ([] : List Text), c.IsName name := by
    simp
  have hChosen : c.chosen selected = c.chosen [] := by
    rw [chosen_nil]
    unfold chosen
    rw [List.filter_eq_self]
    intro g hMem
    have hSelected := hAll g.name ⟨g, hMem, rfl⟩
    simp [hSelected]
  rw [resolve_of_known hKnown, resolve_of_known hNone, hChosen]

/-
  The groups that are selected from an accepted configuration.
  A selection fails at its first unknown name.  Otherwise the
  answer has one group for each selected name, in the order of
  the configuration and with its paths put under the base, and
  it depends only on which names are selected.
-/
theorem resolve_selected
    {text : Text}
    (hText : ofText text = .ok c)
    (base : Path)
    (selected : List Text) :
    WellNamed c.groups ∧
      ((∃ fault, c.resolve base selected = .error fault) ↔
        ∃ name ∈ selected, ¬ c.IsName name) ∧
      (∀ before name after,
        selected = before ++ name :: after →
          (∀ earlier ∈ before, c.IsName earlier) →
            ¬ c.IsName name →
              c.resolve base selected =
                .error (.unknownGroup name)) ∧
      ((∀ name ∈ selected, c.IsName name) →
        ∃ groups,
          c.resolve base selected = .ok groups ∧
            c.Selects base selected groups ∧
            (∀ other,
              (∀ name, name ∈ other ↔ name ∈ selected) →
                c.resolve base other = .ok groups) ∧
            ((∀ name, c.IsName name → name ∈ selected) →
              c.resolve base [] = .ok groups)) := by
  have hNamed := (ofText_eq_ok_iff.mp hText).2
  refine ⟨hNamed, ⟨?_, ?_⟩, ?_, ?_⟩
  · rintro ⟨fault, hFault⟩
    rcases resolve_eq_error_iff.mp hFault with
      ⟨before, name, after, hSplit, -, hUnknown, -⟩
    exact ⟨name, by simp [hSplit], hUnknown⟩
  · rintro ⟨name, hMem, hUnknown⟩
    cases hResolve : c.resolve base selected with
    | error fault => exact ⟨fault, rfl⟩
    | ok groups =>
        have hKnown := (resolve_eq_ok_iff.mp hResolve).1
        exact absurd (hKnown name hMem) hUnknown
  · intro before name after hSplit hBefore hUnknown
    exact
      resolve_eq_error_iff.mpr
        ⟨before, name, after, hSplit, hBefore, hUnknown, rfl⟩
  · intro hKnown
    refine
      ⟨_, resolve_of_known hKnown,
        selects_of_known hNamed hKnown, ?_, ?_⟩
    · intro other hSame
      rw [resolve_of_mem_iff hKnown hSame,
        resolve_of_known hKnown]
    · intro hAll
      rw [← resolve_of_all hKnown hAll, resolve_of_known hKnown]

/- Two groups, one of which has an absolute input. -/
def pairedText : Text :=
  ("[[group]]\nname = 'a'\ninputs = ['/x', 'y']\n" ++
    "output = 'o'\n" ++
    "[[group]]\nname = 'b'\ninputs = []\noutput = 'p'\n").toList

def pairedConfig : Config :=
  { Config.standard with
    groups :=
      [ ⟨"a".toList, ["/x".toList, "y".toList], "o".toList,
          none⟩,
        ⟨"b".toList, [], "p".toList, none⟩ ] }

theorem resolve_selected_pairedText :
    ofText pairedText = .ok pairedConfig ∧
      pairedConfig.resolve "d".toList
          ["b".toList, "a".toList, "b".toList] =
        pairedConfig.resolve "d".toList [] ∧
      pairedConfig.resolve "d".toList
          ["b".toList, "c".toList, "e".toList] =
        .error (.unknownGroup "c".toList) ∧
      ∃ groups,
        pairedConfig.resolve "d".toList
            ["b".toList, "a".toList, "b".toList] =
          .ok groups ∧
          pairedConfig.Selects "d".toList
            ["b".toList, "a".toList, "b".toList] groups := by
  have hText : ofText pairedText = .ok pairedConfig := by
    decide +kernel
  have hIsName :
      ∀ name,
        pairedConfig.IsName name ↔
          name = "a".toList ∨ name = "b".toList := by
    intro name
    simp only [IsName, pairedConfig, List.mem_cons,
      List.not_mem_nil, or_false, exists_eq_or_imp,
      exists_eq_left, eq_comm]
  have hBoth :=
    resolve_selected hText "d".toList
      ["b".toList, "a".toList, "b".toList]
  have hFirst :=
    resolve_selected hText "d".toList
      ["b".toList, "c".toList, "e".toList]
  rcases hBoth.2.2.2 (by simp [hIsName]) with
    ⟨groups, hGroups, hSelects, -, hAll⟩
  refine ⟨hText, ?_, ?_, groups, hGroups, hSelects⟩
  · rw [hGroups, hAll (by simp [hIsName])]
  · exact
      hFirst.2.2.1 ["b".toList] "c".toList ["e".toList] rfl
        (by simp [hIsName]) (by rw [hIsName]; decide)

end Config

end Collate
