import Collate.Proofs.Group

/-
  A group changes a file tree as a whole or not at all.  Its
  output gets what its inputs merged to before the run, also
  when it is one of them, and nothing else changes.  A group
  that fails changes nothing, and leaves no file behind through
  which its output was to pass.

  Key definitions include:
    * `Merger.AllOrNothing`

  Main declarations:
    * `Merger.allOrNothing_of_settles`
    * `Merger.runGroup_allOrNothing`
-/

------------------------------------------------------------
-- Whole Runs
------------------------------------------------------------

namespace Collate

namespace Merger

/- What the run of a group on a tree does to the tree. -/
structure AllOrNothing
    (m : Merger)
    (g : MergeGroup)
    (t : FileTree)
    (ended : Outcome × FileTree) : Prop where
  failed :
    ∀ fault, ended.1.result = .error fault → ended.2 = t
  dry : m.options.dryRun = true → ended.2 = t
  written :
    ∀ report,
      ended.1.result = .ok report →
        m.options.dryRun = false →
          ∃ merged place,
            MergedFile.ofLoaded?
                (g.moduleName <|> m.options.defaultModule)
                (m.loadedFrom t.readText g.inputs) =
              some merged ∧
            t.Replaces g.output
              (Utf8.encode (merged.render m.options.dialect))
              ended.2 place

variable
  {put :
    FileTree → Path → Octets →
      Except FileFault Unit × FileTree}

/-
  A run is whole if every write to the output is.  The inputs
  are all read before, so they are taken as they were.
-/
theorem allOrNothing_of_settles
    (m : Merger)
    {g : MergeGroup}
    {t : FileTree}
    (hSettles :
      ∀ content,
        t.Settles g.output content (put t g.output content)) :
    m.AllOrNothing g t ((m.runGroup g).runWith put t) := by
  rw [runWith_runGroup]
  cases hPlan : m.planFrom t.readText g with
  | error fault =>
      refine ⟨fun _ _ => rfl, fun _ => rfl, ?_⟩
      intro report hResult
      cases hResult
  | ok plan =>
      rcases plan with ⟨report, text⟩
      cases hDry : m.options.dryRun with
      | true =>
          refine ⟨fun _ _ => rfl, fun _ => rfl, ?_⟩
          intro _ _ hWet
          cases hDry.symm.trans hWet
      | false =>
          simp only [Bool.false_eq_true, if_false]
          have hWrote := hSettles (Utf8.encode text)
          generalize put t g.output (Utf8.encode text) = wrote
            at hWrote ⊢
          cases hWrote with
          | failed fault =>
              refine ⟨fun _ _ => rfl, fun _ => rfl, ?_⟩
              intro _ hResult
              cases hResult
          | written hWrite =>
              refine ⟨?_, ?_, ?_⟩
              · intro fault hResult
                cases hResult
              · intro hDry'
                cases hDry.symm.trans hDry'
              · intro _ _ _
                rcases planFrom_eq_ok hPlan with
                  ⟨merged, hMerged, rfl, -⟩
                rcases FileTree.replaces_of_write hWrite with
                  ⟨place, hReplaces⟩
                exact ⟨merged, place, hMerged, hReplaces⟩

/-
  Without a mishap, a run that writes through a new file ends
  as a run that writes directly.
-/
theorem runWith_writeThrough
    (m : Merger)
    {g : MergeGroup}
    {t : FileTree}
    {passage : Passage}
    (hFresh : passage.IsFresh t g.output)
    (hMishap : passage.mishap = none) :
    let through :=
      (m.runGroup g).runWith (FileTree.writeThrough passage) t
    let direct := (m.runGroup g).run t
    through.2 = direct.2 ∧
      ∀ report,
        through.1.result = .ok report ↔
          direct.1.result = .ok report := by
  simp only [FileJob.run_eq_runWith, runWith_runGroup]
  cases m.planFrom t.readText g with
  | error fault => simp
  | ok plan =>
      rcases plan with ⟨report, text⟩
      cases m.options.dryRun with
      | true => simp
      | false =>
          simp only [Bool.false_eq_true, if_false]
          have hSettles :=
            FileTree.settles_writeThrough hFresh
              (Utf8.encode text)
          cases hWrite :
              t.write g.output (Utf8.encode text) with
          | ok t' =>
              rw [FileTree.writeThrough_of_write hFresh hMishap
                hWrite]
              simp [FileTree.writeDirect, hWrite]
          | error fault =>
              generalize
                FileTree.writeThrough passage t g.output
                    (Utf8.encode text) =
                  wrote at hSettles ⊢
              cases hSettles with
              | failed other =>
                  simp [FileTree.writeDirect, hWrite, resultOf]
              | written hOther =>
                  rw [hWrite] at hOther
                  cases hOther

/-
  A group is all or nothing, whether its output is written
  directly or through a new file of whatever free name, and
  whatever goes wrong on the way.
-/
theorem runGroup_allOrNothing
    (m : Merger)
    (g : MergeGroup)
    (t : FileTree) :
    m.AllOrNothing g t ((m.runGroup g).run t) ∧
      ∀ passage : Passage,
        passage.IsFresh t g.output →
          let through :=
            (m.runGroup g).runWith
              (FileTree.writeThrough passage) t
          let direct := (m.runGroup g).run t
          m.AllOrNothing g t through ∧
            (passage.mishap = none →
              through.2 = direct.2 ∧
                ∀ report,
                  through.1.result = .ok report ↔
                    direct.1.result = .ok report) := by
  refine ⟨?_, ?_⟩
  · rw [FileJob.run_eq_runWith]
    exact m.allOrNothing_of_settles
      (t.settles_writeDirect g.output)
  · intro passage hFresh
    refine ⟨?_, m.runWith_writeThrough hFresh⟩
    exact m.allOrNothing_of_settles
      (FileTree.settles_writeThrough hFresh)

/- Two files, of which the first is to take in the second. -/
def sharedTree : FileTree :=
  ((FileTree.empty ["w".toList]).addFile "a.go".toList
    (Utf8.encode "package p\nvar a\n".toList)).addFile
      "b.go".toList (Utf8.encode "package q\nvar b\n".toList)

def sharedGroup : MergeGroup where
  name := "g".toList
  inputs := ["a.go".toList, "b.go".toList]
  output := "./a.go".toList
  moduleName := none

def standardMerger : Merger :=
  ⟨.standard, Dialect.go.grammar⟩

def clearPassage : Passage :=
  ⟨".tmpa1B2c3".toList, none⟩

/- The disk was full after four octets. -/
def brokenPassage : Passage :=
  ⟨".tmpa1B2c3".toList,
    some
      (Utf8.encode "pack".toList,
        .other "No space left on device".toList)⟩

theorem runGroup_allOrNothing_shared :
    (clearPassage.IsFresh sharedTree sharedGroup.output ∧
      ∃ place,
        sharedTree.Replaces sharedGroup.output
          (Utf8.encode "package p\n\nvar a\n\nvar b\n".toList)
          ((standardMerger.runGroup sharedGroup).runWith
            (FileTree.writeThrough clearPassage) sharedTree).2
          place) ∧
      brokenPassage.IsFresh sharedTree sharedGroup.output ∧
        ((standardMerger.runGroup sharedGroup).runWith
          (FileTree.writeThrough brokenPassage) sharedTree).2 =
            sharedTree := by
  have hFresh :
      clearPassage.IsFresh sharedTree sharedGroup.output := by
    intro dir hDir
    have hHere :
        sharedTree.locate
            (Path.directory sharedGroup.output) =
          .ok ["w".toList] := by
      decide +kernel
    cases hHere.symm.trans hDir
    decide +kernel
  have hTheorem :=
    runGroup_allOrNothing standardMerger sharedGroup
      sharedTree
  refine ⟨⟨hFresh, ?_⟩, hFresh, ?_⟩
  · rcases (hTheorem.2 clearPassage hFresh).1.written _ rfl
        rfl with
      ⟨merged, place, hMerged, hReplaces⟩
    have hText :
        (MergedFile.ofLoaded? none
            (standardMerger.loadedFrom sharedTree.readText
              sharedGroup.inputs)).map
            (MergedFile.render Dialect.go) =
          some "package p\n\nvar a\n\nvar b\n".toList := by
      decide +kernel
    have hMerged :
        MergedFile.ofLoaded? none
            (standardMerger.loadedFrom sharedTree.readText
              sharedGroup.inputs) =
          some merged := hMerged
    have hRender :
        merged.render Dialect.go =
          "package p\n\nvar a\n\nvar b\n".toList := by
      rw [hMerged] at hText
      exact Option.some.inj hText
    rw [← hRender]
    exact ⟨place, hReplaces⟩
  · exact
      (hTheorem.2 brokenPassage hFresh).1.failed
        (.outputWrite sharedGroup.output
          (.other "No space left on device".toList))
        rfl

end Merger

end Collate
