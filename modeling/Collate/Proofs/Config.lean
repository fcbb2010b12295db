import Collate.Config.Basic

/-
  Configurations that are accepted, and the groups that are
  selected from them.

  Key definitions include:
    * `Config.WellNamed`

  Main declarations:
    * `Config.checkNames_eq_none_iff`
    * `Config.ofText_eq_ok_iff`
    * `Config.ofFile_eq_ok_iff`
    * `Config.resolve_eq_ok_iff`
-/

------------------------------------------------------------
-- Accepted Configurations
------------------------------------------------------------

namespace Collate

namespace Config

/- Groups that can be told apart by names, none of them blank. -/
structure WellNamed
    (groups : List MergeGroup) : Prop where
  named : ∀ g ∈ groups, g.name.allBlank = false
  distinct : (groups.map (·.name)).Nodup

theorem wellNamed_cons
    {g : MergeGroup}
    {rest : List MergeGroup} :
    WellNamed (g :: rest) ↔
      g.name.allBlank = false ∧
        (∀ other ∈ rest, other.name ≠ g.name) ∧
        WellNamed rest := by
  constructor
  · rintro ⟨hNamed, hDistinct⟩
    rw [List.map_cons, List.nodup_cons] at hDistinct
    rw [List.forall_mem_cons] at hNamed
    refine ⟨hNamed.1, ?_, hNamed.2, hDistinct.2⟩
    intro other hMem hSame
    exact hDistinct.1 (List.mem_map.mpr ⟨other, hMem, hSame⟩)
  · rintro ⟨hName, hOthers, hRest⟩
    refine ⟨List.forall_mem_cons.mpr ⟨hName, hRest.named⟩, ?_⟩
    rw [List.map_cons, List.nodup_cons]
    refine ⟨?_, hRest.distinct⟩
    intro hMem
    rcases List.mem_map.mp hMem with ⟨other, hOther, hSame⟩
    exact hOthers other hOther hSame

/- Names pass that are neither blank nor seen before. -/
theorem checkNames_eq_none_iff
    {seen : List Text}
    {groups : List MergeGroup} :
    checkNames seen groups = none ↔
      WellNamed groups ∧ ∀ g ∈ groups, g.name ∉ seen := by
  induction groups generalizing seen with
  | nil =>
      have hNone : WellNamed [] := ⟨by simp, by simp⟩
      simp [checkNames, hNone]
  | cons g rest ih =>
      rw [checkNames, wellNamed_cons, List.forall_mem_cons]
      by_cases hName : g.name.allBlank = true
      · simp [hName]
      by_cases hSeen : g.name ∈ seen
      · simp [hName, hSeen]
      -- Those seen later are the ones seen now and this one.
      rw [if_neg hName, if_neg hSeen, ih]
      simp only [List.mem_cons, not_or, forall_and]
      constructor
      · rintro ⟨hRest, hOthers, hNew⟩
        exact
          ⟨⟨by simpa using hName, hOthers, hRest⟩, hSeen, hNew⟩
      · rintro ⟨⟨-, hOthers, hRest⟩, -, hNew⟩
        exact ⟨hRest, hOthers, hNew⟩

/- A text holds a configuration whose groups are well named. -/
theorem ofText_eq_ok_iff
    {text : Text}
    {config : Config} :
    ofText text = .ok config ↔
      (∃ entries,
        Toml.parse? text = some entries ∧
          ofEntries entries = .ok config) ∧
        WellNamed config.groups := by
  have hNames :
      ∀ groups,
        checkNames [] groups = none ↔ WellNamed groups := by
    intro groups
    simp [checkNames_eq_none_iff]
  unfold ofText
  cases Toml.parse? text with
  | none => simp
  | some entries =>
      cases hRead : ofEntries entries with
      | error fault => simp [hRead]
      | ok found =>
          simp only [Option.some.injEq, exists_eq_left', hRead,
            Except.ok.injEq]
          split
          · rename_i fault hCheck
            simp only [reduceCtorEq, false_iff]
            rintro ⟨rfl, hGroups⟩
            rw [(hNames _).mpr hGroups] at hCheck
            cases hCheck
          · rename_i hCheck
            rw [Except.ok.injEq]
            constructor
            · rintro rfl
              exact ⟨rfl, (hNames _).mp hCheck⟩
            · rintro ⟨rfl, -⟩
              rfl

/- A file has to be read before it holds anything. -/
theorem ofFile_eq_ok_iff
    {path : Path}
    {got : Except FileFault Text}
    {config : Config} :
    ofFile path got = .ok config ↔
      ∃ text, got = .ok text ∧ ofText text = .ok config := by
  cases got with
  | error cause => simp [ofFile]
  | ok text =>
      cases hText : ofText text with
      | error fault => simp [ofFile, hText]
      | ok found => simp [ofFile, hText]

------------------------------------------------------------
-- Selected Groups
------------------------------------------------------------

/- Every selected name has to be that of a group. -/
theorem resolve_eq_ok_iff
    {config : Config}
    {base : Path}
    {selected : List Text}
    {groups : List MergeGroup} :
    config.resolve base selected = .ok groups ↔
      (∀ name ∈ selected, ∃ g ∈ config.groups,
        g.name = name) ∧
      groups =
        (config.groups.filter fun g =>
          selected.isEmpty || selected.contains g.name).map
            (resolveGroup base) := by
  have hHas :
      ∀ name,
        config.hasGroup name = true ↔
          ∃ g ∈ config.groups, g.name = name := by
    simp [hasGroup]
  unfold resolve
  cases hFind :
      selected.find? fun name => !config.hasGroup name with
  | some name =>
      have hMem := List.mem_of_find?_eq_some hFind
      have hNot := List.find?_some hFind
      simp only [reduceCtorEq, false_iff]
      rintro ⟨hAll, -⟩
      rw [(hHas name).mpr (hAll name hMem)] at hNot
      cases hNot
  | none =>
      have hAll :
          ∀ name ∈ selected, ∃ g ∈ config.groups,
            g.name = name := by
        intro name hMem
        have hName := List.find?_eq_none.mp hFind name hMem
        exact (hHas name).mp (by simpa using hName)
      simp only [Except.ok.injEq]
      exact ⟨fun hEq => ⟨hAll, hEq.symm⟩,
        fun ⟨_, hEq⟩ => hEq.symm⟩

end Config

end Collate
