import Collate.Proofs.AllOrNothing
import Collate.Proofs.File.Turns

/-
  Groups merged one after another on the same file tree.  A
  group that fails leaves no trace for those after it.  When
  no group reads what another writes, each ends as it would
  alone, and a second run changes nothing.

  Key definitions include:
    * `MergeGroup.Spares`
    * `Merger.patches`
    * `keptAt`

  Main declarations:
    * `Merger.within_runGroup`
    * `Merger.run_runGroups_append`
    * `Merger.tree_of_failed`
    * `Merger.run_runGroups_of_alike`
    * `Merger.runGroups_keptAt`
    * `Merger.runGroups_again`
-/

------------------------------------------------------------
-- Files of a Group
------------------------------------------------------------

namespace Collate

namespace Merger

variable {m : Merger}
variable {t u : FileTree}

theorem within_gather
    (m : Merger)
    (group : Text)
    (paths : List Path) :
    (m.gather group paths).Within paths none := by
  induction paths with
  | nil => exact .done _
  | cons path rest ih =>
      have hRest :
          (m.gather group rest).Within (path :: rest) none :=
        ih.mono (List.subset_cons_self path rest)
      rw [gather]
      apply FileJob.Within.bind
      · exact .read (by simp) fun _ => .done _
      · intro got
        split
        · exact hRest.bind fun _ => .done _
        · exact hRest.bind fun _ => .done _
        · exact .done _

theorem within_finish
    (m : Merger)
    (g : MergeGroup)
    (gathered : Gathered) :
    (m.finish g gathered).Within g.inputs (some g.output) := by
  unfold finish
  split
  · exact .done _
  · dsimp only
    split
    · exact .done _
    · refine .write rfl ?_
      intro went
      cases went with
      | ok _ => exact ⟨_, rfl⟩
      | error cause => exact ⟨_, rfl⟩

/- A group reads its inputs and writes its output. -/
theorem within_runGroup
    (m : Merger)
    (g : MergeGroup) :
    (m.runGroup g).Within g.inputs (some g.output) := by
  rw [runGroup]
  apply (m.within_gather g.name g.inputs).bind
  rintro ⟨notices, got⟩
  cases got with
  | error fault => exact .done _
  | ok gathered => exact (m.within_finish g gathered).map _

/- The files that a group puts into a tree. -/
def patches
    (m : Merger)
    (t : FileTree)
    (g : MergeGroup) : List Patch :=
  ((m.runGroup g).deeds t).filterMap (Deed.patch? t)

/- A group puts a file only where its output leads. -/
theorem target_of_mem_patches
    {g : MergeGroup}
    {w : Patch}
    (hMem : w ∈ m.patches t g) :
    t.target g.output = .ok w.place := by
  rcases (m.within_runGroup g).patches t with
    ⟨made, hMade, hTarget⟩
  unfold patches at hMem
  rw [hMade, Option.mem_toList] at hMem
  exact hTarget w hMem

end Merger

------------------------------------------------------------
-- Groups in Order
------------------------------------------------------------

namespace Merger

variable {m : Merger}
variable {t u : FileTree}

theorem run_runGroups_cons
    (m : Merger)
    (g : MergeGroup)
    (rest : List MergeGroup)
    (t : FileTree) :
    (m.runGroups (g :: rest)).run t =
      let first := (m.runGroup g).run t
      let others := (m.runGroups rest).run first.2
      (first.1 :: others.1, others.2) := by
  rw [runGroups, FileJob.run_bind, FileJob.run_bind]
  rfl

/- Groups behind others find the tree that those left. -/
theorem run_runGroups_append
    (m : Merger)
    (before after : List MergeGroup)
    (t : FileTree) :
    (m.runGroups (before ++ after)).run t =
      let first := (m.runGroups before).run t
      let others := (m.runGroups after).run first.2
      (first.1 ++ others.1, others.2) := by
  induction before generalizing t with
  | nil => rfl
  | cons g before ih =>
      simp only [List.cons_append, run_runGroups_cons, ih]

theorem name_runGroup
    (m : Merger)
    (g : MergeGroup)
    (t : FileTree) :
    ((m.runGroup g).run t).1.name = g.name := by
  rw [FileJob.run_eq_runWith, runWith_runGroup]
  cases m.planFrom t.readText g with
  | error fault => rfl
  | ok plan =>
      cases hDry : m.options.dryRun with
      | true => rfl
      | false => rfl

/- There is one outcome for each group, in their order. -/
theorem names_runGroups
    (m : Merger)
    (groups : List MergeGroup)
    (t : FileTree) :
    ((m.runGroups groups).run t).1.map (·.name) =
      groups.map (·.name) := by
  induction groups generalizing t with
  | nil => rfl
  | cons g rest ih =>
      simp only [run_runGroups_cons, List.map_cons,
        name_runGroup, ih]

end Merger

------------------------------------------------------------
-- Groups That Fail
------------------------------------------------------------

/- The members of a list at the indices that are kept. -/
def keptAt
    {α : Type} : (Nat → Bool) → List α → List α
  | _, [] => []
  | keep, a :: rest =>
      let others := keptAt (fun i => keep (i + 1)) rest
      if keep 0 then a :: others else others

namespace Merger

/- A group that failed left the tree as it was. -/
theorem tree_of_failed
    {m : Merger}
    {g : MergeGroup}
    {t : FileTree}
    {fault : GroupFault}
    (hFailed :
      ((m.runGroup g).run t).1.result = .error fault) :
    ((m.runGroup g).run t).2 = t := by
  rw [FileJob.run_eq_runWith] at hFailed ⊢
  have hWhole :=
    m.allOrNothing_of_settles (t.settles_writeDirect g.output)
  exact hWhole.failed fault hFailed

/- Without writing, all groups leave the tree as it was. -/
theorem tree_runGroups_of_dry
    {m : Merger}
    (hDry : m.options.dryRun = true)
    (groups : List MergeGroup)
    (t : FileTree) :
    ((m.runGroups groups).run t).2 = t := by
  have hGroup : ∀ g, ((m.runGroup g).run t).2 = t := by
    intro g
    rw [FileJob.run_eq_runWith]
    exact
      (m.allOrNothing_of_settles
        (t.settles_writeDirect g.output)).dry hDry
  induction groups with
  | nil => rfl
  | cons g rest ih =>
      simp only [run_runGroups_cons, hGroup, ih]

/- A group that needs all its inputs fails without one. -/
theorem failed_of_missing
    {m : Merger}
    (hPolicy : m.options.onMissing = .fail)
    {g : MergeGroup}
    {t : FileTree}
    {path : Path}
    (hInput : path ∈ g.inputs)
    {cause : FileFault}
    (hMissing : t.readText path = .error cause) :
    ∃ fault,
      ((m.runGroup g).run t).1.result = .error fault := by
  have hEnds : ¬ m.Proceeds t.readText g.inputs := by
    intro hProceeds
    have hRead := hProceeds hPolicy path hInput
    rw [hMissing] at hRead
    cases hRead
  rcases planFrom_of_not_proceeds hEnds with
    ⟨other, why, hFault⟩
  refine ⟨.inputNotFound other why, ?_⟩
  rw [FileJob.run_eq_runWith, runWith_runGroup, hFault]

/-
  There is one outcome for each group, in their order.  Groups
  that failed can be left out, and nothing else changes: the
  others end as they did, and so does the tree.
-/
theorem runGroups_keptAt
    (m : Merger)
    (groups : List MergeGroup)
    (t : FileTree) :
    let ended := (m.runGroups groups).run t
    ended.1.map (·.name) = groups.map (·.name) ∧
      ∀ keep : Nat → Bool,
        (∀ i outcome,
          ended.1[i]? = some outcome →
            keep i = false →
              ∃ fault, outcome.result = .error fault) →
          (m.runGroups (keptAt keep groups)).run t =
            (keptAt keep ended.1, ended.2) := by
  refine ⟨m.names_runGroups groups t, ?_⟩
  induction groups generalizing t with
  | nil => exact fun _ _ => rfl
  | cons g rest ih =>
      intro keep hFailed
      simp only [run_runGroups_cons] at hFailed ⊢
      have hRest :=
        ih ((m.runGroup g).run t).2 (fun i => keep (i + 1))
          fun i => hFailed (i + 1)
      cases hFirst : keep 0 with
      | true =>
          simp [keptAt, hFirst, run_runGroups_cons, hRest]
      | false =>
          -- The first group failed, so the others find the
          -- tree as it did.
          rcases hFailed 0 _ rfl hFirst with ⟨fault, hFault⟩
          rw [tree_of_failed hFault] at hRest ⊢
          simp [keptAt, hFirst, hRest]

/- A group whose output has no directory to be in. -/
def strayGroup : MergeGroup where
  name := "stray".toList
  inputs := ["b.go".toList]
  output := "gone/out.go".toList
  moduleName := none

/-
  The last group reads and replaces what the first one wrote,
  with or without the group that fails between them.
-/
theorem runGroups_keptAt_stray :
    let ended :=
      (standardMerger.runGroups
        [sharedGroup, strayGroup, sharedGroup]).run sharedTree
    (∃ fault,
        ended.1[1]?.map (·.result) = some (.error fault)) ∧
      (standardMerger.runGroups
          [sharedGroup, sharedGroup]).run sharedTree =
        (keptAt (· ≠ 1) ended.1, ended.2) := by
  intro ended
  have hStray :
      ended.1[1]?.map (·.result) =
        some
          (.error
            (.outputWrite strayGroup.output .noEntry)) := by
    decide +kernel
  refine ⟨⟨_, hStray⟩, ?_⟩
  refine
    (runGroups_keptAt standardMerger
      [sharedGroup, strayGroup, sharedGroup] sharedTree).2
      (· ≠ 1) ?_
  intro i outcome hOutcome hLeftOut
  obtain rfl : i = 1 := by simpa using hLeftOut
  rw [hOutcome] at hStray
  exact ⟨_, Option.some.inj hStray⟩

end Merger

------------------------------------------------------------
-- Groups That Spare Each Other
------------------------------------------------------------

/- What holds of a result can be decided if there is one. -/
instance decidableForallOk
    {ε α : Type}
    {P : α → Prop}
    [∀ a, Decidable (P a)] :
    (x : Except ε α) → Decidable (∀ a, x = .ok a → P a)
  | .error _ => .isTrue (by simp)
  | .ok a => decidable_of_iff (P a) (by simp)

namespace MergeGroup

/-
  A group that neither reads at a place nor passes it on the
  way to its files.
-/
structure Avoids
    (t : FileTree)
    (g : MergeGroup)
    (place : Location) : Prop where
  inputs : ∀ p ∈ g.inputs, place ∉ t.route p
  approach : place ∉ t.approach g.output

instance
    (t : FileTree)
    (g : MergeGroup)
    (place : Location) :
    Decidable (Avoids t g place) :=
  decidable_of_iff
    ((∀ p ∈ g.inputs, place ∉ t.route p) ∧
      place ∉ t.approach g.output)
    ⟨fun ⟨hInputs, hApproach⟩ => ⟨hInputs, hApproach⟩,
      fun hAvoids => ⟨hAvoids.inputs, hAvoids.approach⟩⟩

/- A group that writes where another group does not look. -/
def Spares
    (t : FileTree)
    (g h : MergeGroup) : Prop :=
  ∀ place, t.target g.output = .ok place → h.Avoids t place

instance
    (t : FileTree)
    (g h : MergeGroup) :
    Decidable (Spares t g h) :=
  inferInstanceAs
    (Decidable
      (∀ place,
        t.target g.output = .ok place → h.Avoids t place))

/- A group that avoids some places never looks at them. -/
theorem clear_of_avoids
    {t : FileTree}
    {g : MergeGroup}
    {off : Set Location}
    (hAvoids : ∀ place ∈ off, g.Avoids t place) :
    (∀ p ∈ g.inputs, ∀ place ∈ t.route p, place ∉ off) ∧
      ∀ place ∈ t.approach g.output, place ∉ off := by
  refine ⟨?_, ?_⟩
  · intro p hInput place hRoute hOff
    exact (hAvoids place hOff).inputs p hInput hRoute
  · intro place hApproach hOff
    exact (hAvoids place hOff).approach hApproach

end MergeGroup

namespace Merger

variable {m : Merger}
variable {t u : FileTree}

/- The files of groups differ at their outputs only. -/
theorem alikeOff_patches
    {off : Set Location}
    (hAlike : t.AlikeOff off u)
    {groups : List MergeGroup}
    (hOutputs :
      ∀ g ∈ groups, ∀ place,
        t.target g.output = .ok place → place ∈ off) :
    t.AlikeOff off
      (u.patchAll (groups.flatMap (m.patches t))) := by
  apply hAlike.patchAll
  intro w hMem
  rcases List.mem_flatMap.mp hMem with ⟨g, hGroup, hPatch⟩
  have hTarget := target_of_mem_patches hPatch
  exact
    ⟨hOutputs g hGroup _ hTarget,
      FileTree.not_directory_of_target hTarget⟩

/-
  Groups on a tree that is alike wherever they look: each ends
  as it does alone on the original, and puts the same files in
  place.
-/
theorem run_runGroups_of_alike
    {off : Set Location}
    (hAlike : t.AlikeOff off u)
    {groups : List MergeGroup}
    (hOutputs :
      ∀ g ∈ groups, ∀ place,
        t.target g.output = .ok place → place ∈ off)
    (hAvoids :
      ∀ g ∈ groups, ∀ place ∈ off, g.Avoids t place) :
    (m.runGroups groups).run u =
      (groups.map fun g => ((m.runGroup g).run t).1,
        u.patchAll (groups.flatMap (m.patches t))) := by
  induction groups generalizing u with
  | nil => rfl
  | cons g rest ih =>
      have hFirst :
          (m.runGroup g).run u =
            (((m.runGroup g).run t).1,
              u.patchAll (m.patches t g)) := by
        rcases MergeGroup.clear_of_avoids
            (hAvoids g (by simp)) with
          ⟨hInputs, hOutput⟩
        exact (m.within_runGroup g).run_eq hAlike hInputs
          hOutput
      have hAfter :
          t.AlikeOff off (u.patchAll (m.patches t g)) := by
        have hOne :
            t.AlikeOff off
              (u.patchAll ([g].flatMap (m.patches t))) :=
          alikeOff_patches hAlike
            (by simpa using hOutputs g (by simp))
        simpa using hOne
      have hRest :=
        ih hAfter (fun h hMem => hOutputs h (.tail _ hMem))
          (fun h hMem => hAvoids h (.tail _ hMem))
      simp only [run_runGroups_cons, hFirst, hRest,
        List.map_cons, List.flatMap_cons,
        FileTree.patchAll_append]

/-
  A second run of groups of which none writes where one of
  them looks ends as the first did, and leaves the tree as the
  first did.  Several groups may have the same output.
-/
theorem runGroups_again
    (m : Merger)
    (t : FileTree)
    (groups : List MergeGroup)
    (hSpares :
      ∀ g ∈ groups, ∀ h ∈ groups, g.Spares t h) :
    let first := (m.runGroups groups).run t
    (m.runGroups groups).run first.2 = first := by
  let off : Set Location :=
    fun place => ∃ g ∈ groups, t.target g.output = .ok place
  have hOutputs :
      ∀ g ∈ groups, ∀ place,
        t.target g.output = .ok place → place ∈ off :=
    fun g hMem place hTarget => ⟨g, hMem, hTarget⟩
  have hAvoids :
      ∀ h ∈ groups, ∀ place ∈ off, h.Avoids t place := by
    rintro h hMem place ⟨g, hOther, hTarget⟩
    exact hSpares g hOther h hMem place hTarget
  have hFirst :=
    run_runGroups_of_alike (m := m) (.refl t off) hOutputs
      hAvoids
  have hAfter :=
    alikeOff_patches (m := m) (.refl t off) hOutputs
  have hSecond :=
    run_runGroups_of_alike (m := m) hAfter hOutputs hAvoids
  simp only [hFirst, hSecond, FileTree.patchAll_patchAll]

/- A group with an input that is not there. -/
def leftGroup : MergeGroup where
  name := "left".toList
  inputs := ["a.go".toList, "gone.go".toList]
  output := "../w/out.go".toList
  moduleName := none

/- A group with the output of `leftGroup`. -/
def rightGroup : MergeGroup where
  name := "right".toList
  inputs := ["./b.go".toList]
  output := "out.go".toList
  moduleName := some "r".toList

/- Two groups write the same file, and one between them fails. -/
theorem runGroups_again_sameOutput :
    let groups := [leftGroup, strayGroup, rightGroup]
    let first := (standardMerger.runGroups groups).run sharedTree
    (∀ g ∈ groups, ∀ h ∈ groups, g.Spares sharedTree h) ∧
      (standardMerger.runGroups groups).run first.2 = first := by
  have hSpares :
      ∀ g ∈ [leftGroup, strayGroup, rightGroup],
        ∀ h ∈ [leftGroup, strayGroup, rightGroup],
          g.Spares sharedTree h := by
    decide +kernel
  exact
    ⟨hSpares,
      runGroups_again standardMerger sharedTree _ hSpares⟩

end Merger

end Collate
