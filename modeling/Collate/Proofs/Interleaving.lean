import Collate.Proofs.Runs

/-
  Groups merged at the same time.  Each group takes its steps
  in order, and the steps of different groups come in any
  order.  Groups that keep apart end as if they were merged
  one after another: no step of one is decided by what another
  has written.

  Key definitions include:
    * `MergeGroup.Apart`
    * `Merger.crew`
    * `Merger.notice?`
    * `Crew.owed`
    * `Merger.Underway`

  Main declarations:
    * `Merger.underway_turn`
    * `Merger.underway_play`
    * `Merger.play_of_results?`
    * `Merger.play_eq_runGroups`
-/

------------------------------------------------------------
-- Groups That Keep Apart
------------------------------------------------------------

namespace Collate

namespace MergeGroup

/-
  Neither of two groups writes where the other looks, and they
  write to different places.
-/
structure Apart
    (t : FileTree)
    (g h : MergeGroup) : Prop where
  spares : g.Spares t h
  spared : h.Spares t g
  outputs :
    ∀ place,
      t.target g.output = .ok place →
        t.target h.output ≠ .ok place

instance
    (t : FileTree)
    (g h : MergeGroup) :
    Decidable (Apart t g h) :=
  decidable_of_iff
    (g.Spares t h ∧ h.Spares t g ∧
      ∀ place,
        t.target g.output = .ok place →
          t.target h.output ≠ .ok place)
    ⟨fun ⟨hSpares, hSpared, hOutputs⟩ =>
        ⟨hSpares, hSpared, hOutputs⟩,
      fun hApart =>
        ⟨hApart.spares, hApart.spared, hApart.outputs⟩⟩

theorem Apart.symm
    {t : FileTree}
    {g h : MergeGroup}
    (hApart : g.Apart t h) :
    h.Apart t g :=
  { spares := hApart.spared
    spared := hApart.spares
    outputs := fun place hH hG =>
      hApart.outputs place hG hH }

end MergeGroup

------------------------------------------------------------
-- What Is Owed
------------------------------------------------------------

namespace Crew

variable {κ α : Type}

/-
  The deeds that the jobs of a crew would do on a tree, each
  job alone.
-/
def owed
    (t : FileTree)
    (c : Crew κ α) : List (κ × Deed) :=
  c.jobs.flatMap fun entry =>
    (entry.2.deeds t).map (entry.1, ·)

/- The results that the jobs would have, each job alone. -/
def promised
    (t : FileTree)
    (c : Crew κ α) : List α :=
  c.jobs.map fun entry => (entry.2.run t).1

/-
  A crew after some deeds: the owners are the same, the
  results will be, and what was done and what is still owed
  are all that was owed.
-/
structure Continues
    (t : FileTree)
    (c : Crew κ α)
    (log : List (κ × Deed))
    (next : Crew κ α) : Prop where
  owners : next.jobs.map (·.1) = c.jobs.map (·.1)
  promised : next.promised t = c.promised t
  owed : (log ++ next.owed t).Perm (c.owed t)

namespace Continues

variable {t : FileTree}
variable {c mid next : Crew κ α}
variable {log more : List (κ × Deed)}

theorem refl
    (t : FileTree)
    (c : Crew κ α) :
    Continues t c [] c :=
  ⟨rfl, rfl, .refl _⟩

theorem trans
    (hFirst : Continues t c log mid)
    (hThen : Continues t mid more next) :
    Continues t c (log ++ more) next := by
  refine
    ⟨hThen.owners.trans hFirst.owners,
      hThen.promised.trans hFirst.promised, ?_⟩
  rw [List.append_assoc]
  exact (hThen.owed.append_left log).trans hFirst.owed

/- When all jobs are done, nothing is owed any more. -/
theorem of_results?
    (hContinues : Continues t c log next)
    {results : List α}
    (hResults : next.results? = some results) :
    results = c.promised t ∧ log.Perm (c.owed t) := by
  rw [results?_eq_some_iff] at hResults
  have hDone :
      ∀ entry ∈ next.jobs, ∃ result,
        entry.2 = .done result := by
    intro entry hMem
    have hJob : entry.2 ∈ next.jobs.map (·.2) :=
      List.mem_map_of_mem hMem
    rw [hResults] at hJob
    rcases List.mem_map.mp hJob with ⟨result, -, hEq⟩
    exact ⟨result, hEq.symm⟩
  refine ⟨?_, ?_⟩
  · have hMap :=
      congrArg
        (List.map fun job : FileJob α => (job.run t).1)
        hResults
    rw [List.map_map, List.map_map] at hMap
    rw [← hContinues.promised]
    simpa [Function.comp_def, FileJob.run_done, Crew.promised]
      using hMap.symm
  · have hNothing : next.owed t = [] := by
      apply List.flatMap_eq_nil_iff.mpr
      intro entry hMem
      rcases hDone entry hMem with ⟨result, hEq⟩
      simp [hEq, FileJob.deeds]
    simpa [hNothing] using hContinues.owed

end Continues

end Crew

------------------------------------------------------------
-- Groups Under Way
------------------------------------------------------------

namespace Merger

variable {m : Merger}
variable {t : FileTree}
variable {c : Crew MergeGroup Outcome}
variable {ws : List Patch}

/- The files that deeds put into a tree. -/
def patchesOf
    (t : FileTree)
    (log : List (MergeGroup × Deed)) : List Patch :=
  log.filterMap fun entry => entry.2.patch? t

/-
  Groups under way from a tree: the tree has changed by files
  that were put in place, and a group that is not done yet
  avoids all of them.
-/
structure Underway
    (t : FileTree)
    (c : Crew MergeGroup Outcome)
    (ws : List Patch) : Prop where
  tree : c.tree = t.patchAll ws
  within :
    ∀ entry ∈ c.jobs,
      entry.2.Within entry.1.inputs (some entry.1.output)
  files : ∀ w ∈ ws, t.node? w.place ≠ some .directory
  avoids :
    ∀ w ∈ ws, ∀ entry ∈ c.jobs,
      entry.2.result? = none → entry.1.Avoids t w.place

/- A group that keeps apart from those before and after it. -/
theorem apart_middle
    {before after : List (MergeGroup × FileJob Outcome)}
    {g : MergeGroup}
    {job : FileJob Outcome}
    (hApart :
      ((before ++ (g, job) :: after).map (·.1)).Pairwise
        (MergeGroup.Apart t))
    {entry : MergeGroup × FileJob Outcome}
    (hMem : entry ∈ before ++ after) :
    g.Apart t entry.1 := by
  rw [List.map_append, List.map_cons,
    List.pairwise_append, List.pairwise_cons] at hApart
  rcases hApart with ⟨-, ⟨hAfter, -⟩, hBefore⟩
  rcases List.mem_append.mp hMem with hMem | hMem
  · have hOther :=
      hBefore entry.1 (List.mem_map_of_mem hMem) g (by simp)
    exact hOther.symm
  · exact hAfter entry.1 (List.mem_map_of_mem hMem)

section Step

variable {before after : List (MergeGroup × FileJob Outcome)}
variable {g : MergeGroup}
variable {job rest : FileJob Outcome}
variable {deed : Deed}
variable {now tree : FileTree}

/-
  The next step of a group is the one that it would take if it
  were alone.
-/
theorem Underway.step?_eq
    (hUnderway :
      Underway t ⟨before ++ (g, job) :: after, now⟩ ws)
    (hStep : job.step? now = some (deed, rest, tree)) :
    (∃ alone, job.step? t = some (deed, rest, alone)) ∧
      tree = t.patchAll (ws ++ (deed.patch? t).toList) := by
  have hMem : (g, job) ∈ before ++ (g, job) :: after := by
    simp
  let off : Set Location := fun place =>
    ∃ w ∈ ws, w.place = place
  have hNow : now = t.patchAll ws := hUnderway.tree
  have hAlike : t.AlikeOff off now := by
    rw [hNow]
    apply (FileTree.AlikeOff.refl t off).patchAll
    intro w hW
    exact ⟨⟨w, hW, rfl⟩, hUnderway.files w hW⟩
  have hAvoids : ∀ place ∈ off, g.Avoids t place := by
    rintro place ⟨w, hW, rfl⟩
    exact hUnderway.avoids w hW _ hMem
      (FileJob.result?_of_step? hStep)
  rcases MergeGroup.clear_of_avoids hAvoids with
    ⟨hInputs, hOutput⟩
  have hSame :=
    (hUnderway.within _ hMem).step?_eq hAlike hInputs hOutput
  rw [hStep] at hSame
  rcases Option.map_eq_some_iff.mp hSame.symm with
    ⟨⟨deed', rest', alone⟩, hAlone, hEq⟩
  cases hEq
  refine ⟨⟨alone, hAlone⟩, ?_⟩
  rw [hNow, FileTree.patchAll_append]

/-
  Groups stay under way after a step.  A group that has just
  written is done, and all others avoid what it wrote.
-/
theorem Underway.after_step
    (hApart :
      ((before ++ (g, job) :: after).map (·.1)).Pairwise
        (MergeGroup.Apart t))
    (hUnderway :
      Underway t ⟨before ++ (g, job) :: after, now⟩ ws)
    (hStep : job.step? now = some (deed, rest, tree)) :
    Underway t ⟨before ++ (g, rest) :: after, tree⟩
      (ws ++ (deed.patch? t).toList) := by
  rcases hUnderway.step?_eq hStep with
    ⟨⟨alone, hAlone⟩, hTree⟩
  rcases (hUnderway.within (g, job) (by simp)).of_step?
      hAlone with
    ⟨hWithin, -, -, hPatch⟩
  have hEntries :
      ∀ entry ∈ before ++ (g, rest) :: after,
        entry = (g, rest) ∨ entry ∈ before ++ after := by
    intro entry hEntry
    simpa [or_left_comm] using hEntry
  have hOld :
      ∀ entry ∈ before ++ after,
        entry ∈ before ++ (g, job) :: after := by
    intro entry hEntry
    simp only [List.mem_append, List.mem_cons] at hEntry ⊢
    tauto
  refine
    { tree := hTree
      within := ?_
      files := ?_
      avoids := ?_ }
  · intro entry hEntry
    rcases hEntries entry hEntry with rfl | hEntry
    · exact hWithin
    · exact hUnderway.within entry (hOld entry hEntry)
  · intro w hW
    rcases List.mem_append.mp hW with hW | hW
    · exact hUnderway.files w hW
    · rw [Option.mem_toList] at hW
      exact FileTree.not_directory_of_target (hPatch w hW).1
  · intro w hW entry hEntry hOpen
    rcases List.mem_append.mp hW with hW | hW
    · rcases hEntries entry hEntry with rfl | hEntry
      · exact hUnderway.avoids w hW (g, job) (by simp)
          (FileJob.result?_of_step? hStep)
      · exact hUnderway.avoids w hW entry (hOld entry hEntry)
          hOpen
    · rw [Option.mem_toList] at hW
      rcases hPatch w hW with ⟨hTarget, hDone⟩
      rcases hEntries entry hEntry with rfl | hEntry
      · simp [hOpen] at hDone
      · exact (apart_middle hApart hEntry).spares w.place
          hTarget

/- A step pays one of the deeds that are owed. -/
theorem Underway.continues_step
    (hUnderway :
      Underway t ⟨before ++ (g, job) :: after, now⟩ ws)
    (hStep : job.step? now = some (deed, rest, tree)) :
    Crew.Continues t ⟨before ++ (g, job) :: after, now⟩
      [(g, deed)] ⟨before ++ (g, rest) :: after, tree⟩ := by
  rcases hUnderway.step?_eq hStep with ⟨⟨alone, hAlone⟩, -⟩
  rcases (hUnderway.within (g, job) (by simp)).of_step?
      hAlone with
    ⟨-, hDeeds, hRun, -⟩
  refine
    { owners := by simp
      promised := by simp [Crew.promised, hRun]
      owed := ?_ }
  simp only [Crew.owed, List.flatMap_append,
    List.flatMap_cons, hDeeds, List.map_cons,
    List.cons_append, List.nil_append]
  exact List.perm_middle.symm

end Step

/- One turn among groups that keep apart. -/
theorem underway_turn
    (hApart :
      (c.jobs.map (·.1)).Pairwise (MergeGroup.Apart t))
    (hUnderway : Underway t c ws)
    (i : Nat) :
    Underway t (c.turn i).2
        (ws ++ patchesOf t (c.turn i).1.toList) ∧
      c.Continues t (c.turn i).1.toList (c.turn i).2 := by
  rcases c.turn_cases i with
    hIdle |
      ⟨before, g, job, after, deed, rest, tree, hJobs, hStep,
        hTurn⟩
  · rw [hIdle]
    refine ⟨?_, .refl t c⟩
    simpa [patchesOf] using hUnderway
  · rcases c with ⟨jobs, now⟩
    subst hJobs
    have hPatches :
        patchesOf t [(g, deed)] = (deed.patch? t).toList := by
      cases hDeed : deed.patch? t <;>
        simp [patchesOf, hDeed]
    rw [hTurn, Option.toList_some, hPatches]
    exact
      ⟨hUnderway.after_step hApart hStep,
        hUnderway.continues_step hStep⟩

/- Any number of turns in any order. -/
theorem underway_play
    (hApart :
      (c.jobs.map (·.1)).Pairwise (MergeGroup.Apart t))
    (hUnderway : Underway t c ws)
    (order : List Nat) :
    Underway t (c.play order).2
        (ws ++ patchesOf t (c.play order).1) ∧
      c.Continues t (c.play order).1 (c.play order).2 := by
  induction order generalizing c ws with
  | nil =>
      refine ⟨?_, .refl t c⟩
      simpa [Crew.play, patchesOf] using hUnderway
  | cons i order ih =>
      rcases underway_turn hApart hUnderway i with
        ⟨hFirst, hContinues⟩
      have hStill :
          ((c.turn i).2.jobs.map (·.1)).Pairwise
            (MergeGroup.Apart t) := by
        rw [hContinues.owners]
        exact hApart
      rcases ih hStill hFirst with ⟨hThen, hOthers⟩
      refine ⟨?_, hContinues.trans hOthers⟩
      simpa [Crew.play, patchesOf, List.append_assoc] using
        hThen

------------------------------------------------------------
-- Notices
------------------------------------------------------------

/- The notice that goes with a step of a group, if any. -/
def notice?
    (m : Merger)
    (group : Text) : Deed → Option Notice
  | .read path (.error _) =>
      match m.options.onMissing with
      | .skip => some ⟨group, path⟩
      | .fail => none
  | _ => none

/- The notices given in the course of some deeds. -/
def noticesOf
    (m : Merger)
    (log : List (MergeGroup × Deed)) : List Notice :=
  log.filterMap fun entry => m.notice? entry.1.name entry.2

theorem run_gather
    (m : Merger)
    (group : Text)
    (paths : List Path)
    (t : FileTree) :
    (m.gather group paths).run t =
      (m.gatherFrom t.readText group paths, t) := by
  rw [FileJob.run_eq_runWith, runWith_gather]

/- Gathering gives a notice for each input it goes without. -/
theorem notices_gather
    (m : Merger)
    (group : Text)
    (paths : List Path)
    (t : FileTree) :
    ((m.gather group paths).deeds t).filterMap
        (m.notice? group) =
      (m.gatherFrom t.readText group paths).1 := by
  induction paths with
  | nil => rfl
  | cons path rest ih =>
      rw [gather, FileJob.deeds_bind, List.filterMap_append]
      simp only [readSource, FileJob.run_read,
        FileJob.run_done, FileJob.deeds,
        gatherFrom]
      cases t.readText path with
      | ok text =>
          simp only [sourceAt]
          rw [← ih]
          exact congrArg (List.filterMap _)
            ((m.gather group rest).deeds_map _ t)
      | error cause =>
          cases hPolicy : m.options.onMissing with
          | skip =>
              simp only [sourceAt]
              rw [← ih]
              simp only [List.filterMap_cons, notice?, hPolicy]
              exact congrArg (Notice.mk group path :: ·)
                (congrArg (List.filterMap _)
                  ((m.gather group rest).deeds_map _ t))
          | fail =>
              simp only [sourceAt, List.filterMap_cons,
                notice?, hPolicy]
              rfl

/- Writing the output of a group gives no notice. -/
theorem notices_finish
    (m : Merger)
    (g : MergeGroup)
    (gathered : Gathered)
    (t : FileTree) :
    ((m.finish g gathered).deeds t).filterMap
        (m.notice? g.name) =
      [] := by
  unfold finish
  split
  · rfl
  · dsimp only
    split
    · rfl
    · rename_i merged hMerged hWet
      simp only [FileJob.deeds]
      generalize
        t.writeDirect g.output
            (Utf8.encode (merged.render m.options.dialect)) =
          wrote
      rcases wrote with ⟨went, after⟩
      cases went with
      | ok _ => rfl
      | error cause => rfl

/- The notices of a group are those that its steps gave. -/
theorem notices_runGroup
    (m : Merger)
    (g : MergeGroup)
    (t : FileTree) :
    ((m.runGroup g).deeds t).filterMap (m.notice? g.name) =
      ((m.runGroup g).run t).1.notices := by
  rw [runGroup, FileJob.deeds_bind, FileJob.run_bind,
    List.filterMap_append, notices_gather, run_gather]
  rcases m.gatherFrom t.readText g.name g.inputs with
    ⟨notices, got⟩
  cases got with
  | error fault => exact List.append_nil notices
  | ok gathered =>
      have hDeeds :=
        (m.finish g gathered).deeds_map
          (fun result => Outcome.mk g.name notices result) t
      have hNone := m.notices_finish g gathered t
      rw [← hDeeds] at hNone
      rw [FileJob.run_bind]
      exact (congrArg (notices ++ ·) hNone).trans
        (List.append_nil notices)

------------------------------------------------------------
-- Any Order of Steps
------------------------------------------------------------

/- Groups that are about to be merged on a tree. -/
def crew
    (m : Merger)
    (groups : List MergeGroup)
    (t : FileTree) : Crew MergeGroup Outcome :=
  ⟨groups.map fun g => (g, m.runGroup g), t⟩

theorem underway_crew
    (m : Merger)
    (groups : List MergeGroup)
    (t : FileTree) :
    Underway t (m.crew groups t) [] := by
  refine
    { tree := rfl
      within := ?_
      files := by simp
      avoids := by simp }
  intro entry hMem
  rcases List.mem_map.mp hMem with ⟨g, -, rfl⟩
  exact m.within_runGroup g

/- One group after another is a way to merge them. -/
theorem run_runGroups_eq_inTurn
    (m : Merger)
    (groups : List MergeGroup)
    (t : FileTree) :
    (m.runGroups groups).run t =
      let ended := Crew.inTurn (m.crew groups t).jobs t
      (ended.1.map (·.2), ended.2) := by
  unfold crew
  induction groups generalizing t with
  | nil => rfl
  | cons g rest ih =>
      simp only [run_runGroups_cons, ih, List.map_cons,
        Crew.inTurn]

theorem patchesOf_owed
    (m : Merger)
    (groups : List MergeGroup)
    (t : FileTree) :
    patchesOf t ((m.crew groups t).owed t) =
      groups.flatMap (m.patches t) := by
  unfold patchesOf Crew.owed crew patches
  simp only [List.flatMap_map, List.filterMap_flatMap,
    List.filterMap_map, Function.comp_def]

theorem noticesOf_owed
    (m : Merger)
    (groups : List MergeGroup)
    (t : FileTree) :
    m.noticesOf ((m.crew groups t).owed t) =
      ((m.crew groups t).promised t).flatMap (·.notices) := by
  unfold noticesOf Crew.owed Crew.promised crew
  simp only [List.flatMap_map, List.filterMap_flatMap,
    List.filterMap_map, Function.comp_def, List.map_map,
    notices_runGroup]

/- Groups that keep apart put their files at different places. -/
theorem nodup_places
    (m : Merger)
    {groups : List MergeGroup}
    (hApart : groups.Pairwise (MergeGroup.Apart t)) :
    ((groups.flatMap (m.patches t)).map (·.place)).Nodup := by
  rw [List.map_flatMap, List.nodup_flatMap]
  refine ⟨?_, ?_⟩
  · intro g hMem
    rcases (m.within_runGroup g).patches t with ⟨made, hMade, -⟩
    unfold patches
    rw [hMade]
    cases made with
    | none => simp
    | some w => simp
  · refine hApart.imp ?_
    intro g h hPair place hG hH
    rcases List.mem_map.mp hG with ⟨v, hV, rfl⟩
    rcases List.mem_map.mp hH with ⟨w, hW, hSame⟩
    apply hPair.outputs v.place (target_of_mem_patches hV)
    rw [← hSame]
    exact target_of_mem_patches hW

/-
  However groups that keep apart take turns, once all are done
  each has ended as it does alone, and the tree holds the
  files of all of them.
-/
theorem play_of_results?
    (m : Merger)
    {groups : List MergeGroup}
    (hApart : groups.Pairwise (MergeGroup.Apart t))
    {order : List Nat}
    {outcomes : List Outcome}
    (hResults :
      ((m.crew groups t).play order).2.results? =
        some outcomes) :
    outcomes = (m.crew groups t).promised t ∧
      ((m.crew groups t).play order).2.tree =
        t.patchAll (groups.flatMap (m.patches t)) ∧
      (m.noticesOf ((m.crew groups t).play order).1).Perm
        (outcomes.flatMap (·.notices)) := by
  have hOwners :
      ((m.crew groups t).jobs.map (·.1)).Pairwise
        (MergeGroup.Apart t) := by
    simpa [crew, Function.comp_def] using hApart
  rcases underway_play hOwners (m.underway_crew groups t)
      order with
    ⟨hUnderway, hContinues⟩
  rcases hContinues.of_results? hResults with
    ⟨rfl, hLog⟩
  refine ⟨rfl, ?_, ?_⟩
  · have hPatches :
        (patchesOf t ((m.crew groups t).play order).1).Perm
          (groups.flatMap (m.patches t)) := by
      rw [← patchesOf_owed]
      exact hLog.filterMap _
    rw [hUnderway.tree, List.nil_append]
    apply FileTree.patchAll_perm t _ hPatches
    rw [(hPatches.map (·.place)).nodup_iff]
    exact m.nodup_places hApart
  · rw [← noticesOf_owed]
    exact hLog.filterMap _

/- One after another, such groups end as each does alone. -/
theorem run_runGroups_of_apart
    (m : Merger)
    {groups : List MergeGroup}
    (hApart : groups.Pairwise (MergeGroup.Apart t)) :
    (m.runGroups groups).run t =
      ((m.crew groups t).promised t,
        t.patchAll (groups.flatMap (m.patches t))) := by
  rcases (m.crew groups t).exists_play_inTurn with
    ⟨order, hPlay⟩
  have hResults :
      ((m.crew groups t).play order).2.results? =
        some ((m.runGroups groups).run t).1 := by
    rw [hPlay, Crew.results?_finished,
      run_runGroups_eq_inTurn]
    rfl
  rcases m.play_of_results? hApart hResults with
    ⟨hOutcomes, hTree, -⟩
  rw [hPlay] at hTree
  apply Prod.ext hOutcomes
  rw [run_runGroups_eq_inTurn]
  exact hTree

/-
  Groups that keep apart can be merged at the same time.  Any
  steps that they have taken can be gone on with until all are
  done, and then the outcomes, the tree and, up to their order,
  the notices are those of one group after another.
-/
theorem play_eq_runGroups
    (m : Merger)
    (t : FileTree)
    (groups : List MergeGroup)
    (hApart : groups.Pairwise (MergeGroup.Apart t))
    (order : List Nat) :
    let ended := (m.runGroups groups).run t
    let played := (m.crew groups t).play order
    (∃ more,
      ((m.crew groups t).play
        (order ++ more)).2.results?.isSome) ∧
      ∀ outcomes,
        played.2.results? = some outcomes →
          outcomes = ended.1 ∧
            played.2.tree = ended.2 ∧
            (m.noticesOf played.1).Perm
              (ended.1.flatMap (·.notices)) := by
  intro ended played
  refine ⟨?_, ?_⟩
  · rcases played.2.exists_play_inTurn with ⟨more, hMore⟩
    refine ⟨more, ?_⟩
    rw [Crew.play_append, hMore, Crew.results?_finished]
    rfl
  · intro outcomes hResults
    rcases m.play_of_results? hApart hResults with
      ⟨rfl, hTree, hNotices⟩
    have hEnded : ended = _ := m.run_runGroups_of_apart hApart
    rw [hEnded]
    exact ⟨rfl, hTree, hNotices⟩

def asideGroup : MergeGroup :=
  { rightGroup with output := "aside.go".toList }

/-
  The second group reads and writes between the first and the
  second input of the first group.
-/
theorem play_eq_runGroups_twoGroups :
    [leftGroup, asideGroup].Pairwise
        (MergeGroup.Apart sharedTree) ∧
      ∃ outcomes,
        let crew :=
          standardMerger.crew [leftGroup, asideGroup] sharedTree
        let played := crew.play [0, 1, 1, 0, 0]
        let ended :=
          (standardMerger.runGroups
            [leftGroup, asideGroup]).run sharedTree
        played.2.results? = some outcomes ∧
          outcomes = ended.1 ∧
          played.2.tree = ended.2 ∧
          (standardMerger.noticesOf played.1).Perm
            (ended.1.flatMap (·.notices)) := by
  have hApart :
      [leftGroup, asideGroup].Pairwise
        (MergeGroup.Apart sharedTree) := by
    decide +kernel
  have hDone :
      ((standardMerger.crew [leftGroup, asideGroup]
          sharedTree).play [0, 1, 1, 0, 0]).2.results?.isSome =
        true := by
    decide +kernel
  rcases Option.isSome_iff_exists.mp hDone with
    ⟨outcomes, hOutcomes⟩
  have hTheorem :=
    play_eq_runGroups standardMerger sharedTree
      [leftGroup, asideGroup] hApart [0, 1, 1, 0, 0]
  exact
    ⟨hApart, outcomes, hOutcomes,
      hTheorem.2 outcomes hOutcomes⟩

end Merger

end Collate
