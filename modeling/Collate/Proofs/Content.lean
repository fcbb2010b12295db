import Collate.Proofs.AllOrNothing
import Collate.Proofs.Text.Utf8

/-
  What a merged file holds, told by the sources in its inputs:
  their module, all their imports once and in the order of
  octets, and all their bodies.

  Key definitions include:
    * `MergedFile.layout`
    * `Merger.Content`

  Main declarations:
    * `MergedFile.render_named`
    * `Merger.result_eq_moduleUnknown_iff`
    * `Merger.runGroup_content`
-/

------------------------------------------------------------
-- Layout
------------------------------------------------------------

namespace Collate

namespace MergedFile

/-
  The lines of a merged file: the declaration, a block with
  the import entries if there are any, and the bodies, with one
  empty line before each.
-/
def layout
    (d : Dialect)
    (name : Text)
    (entries : List Text)
    (bodies : List (List Text)) : List Text :=
  (d.moduleKeyword.trim ++ ' ' :: name) ::
    ((if entries = [] then []
        else
          [] :: (d.importKeyword.trim ++ ' ' :: d.blockOpen.trim) ::
            (entries.map (d.indent ++ ·) ++
              [d.blockClose.trim])) ++
      bodies.flatMap ([] :: ·))

theorem firstModule?_eq_findSome?
    (loaded : List Loaded) :
    firstModule? loaded =
      loaded.findSome? (·.source.moduleName) := by
  induction loaded with
  | nil => rfl
  | cons item rest ih =>
      rw [firstModule?, List.findSome?_cons, ih]
      cases item.source.moduleName with
      | some name => rfl
      | none => rfl

/- Sources do not merge if no module is known. -/
theorem ofLoaded?_eq_none_iff
    {configured : Option Text}
    {loaded : List Loaded} :
    ofLoaded? configured loaded = none ↔
      configured = none ∧
        ∀ item ∈ loaded, item.source.moduleName = none := by
  unfold ofLoaded?
  rw [Option.map_eq_none_iff, firstModule?_eq_findSome?]
  cases configured with
  | some name => simp
  | none => simp

/- The bodies of sources that are not empty. -/
theorem lines_allBlocks
    (loaded : List Loaded) :
    (allBlocks loaded).map (·.lines) =
      (loaded.map (·.source.body)).filter (· ≠ []) := by
  induction loaded with
  | nil => rfl
  | cons item rest ih =>
      by_cases hEmpty : item.source.body = []
      · simpa [allBlocks, hEmpty] using ih
      · simpa [allBlocks, hEmpty] using ih

/- The text of merged sources, line by line. -/
theorem render_named
    (d : Dialect)
    (name : Text)
    (loaded : List Loaded) :
    (named name loaded).render d =
      Text.unlines
        (layout d name (allImports loaded).toList
          ((loaded.map (·.source.body)).filter (· ≠ []))) := by
  have hBlocks :
      ∀ block ∈ (named name loaded).blocks,
        block.lines ≠ [] :=
    fun _ hMem => lines_ne_nil_of_mem_allBlocks hMem
  rw [render_eq_unlines d hBlocks, outline_eq,
    ← lines_allBlocks]
  simp only [layout, named, declaration, importLines, spaced,
    isEmpty_imports_iff]

/- Import entries stand in the order of their octets. -/
theorem imports_ascending
    (imports : ImportSet) :
    imports.toList.Pairwise fun a b =>
      Utf8.encode a < Utf8.encode b :=
  Std.ExtTreeSet.ordered_toList.imp Utf8.encode_lt_of_compare

end MergedFile

------------------------------------------------------------
-- Results
------------------------------------------------------------

namespace FileTree

/- A file that was put under a path is read there. -/
theorem Replaces.read_eq
    {t t' : FileTree}
    {p : Path}
    {content : Octets}
    {place : Location}
    (hReplaces : t.Replaces p content t' place) :
    t'.read p = .ok content := by
  unfold read
  simp only [hReplaces.located, hReplaces.held]

end FileTree

namespace Merger

variable {m : Merger}
variable {g : MergeGroup}
variable {t : FileTree}

/- How a group ends, from its plan. -/
theorem result_runGroup
    (m : Merger)
    (g : MergeGroup)
    (t : FileTree) :
    ((m.runGroup g).run t).1.result =
      match m.planFrom t.readText g with
      | .error fault => .error fault
      | .ok (report, text) =>
          if m.options.dryRun then .ok report
          else
            resultOf g report
              (t.writeDirect g.output (Utf8.encode text)).1 := by
  rw [FileJob.run_eq_runWith, runWith_runGroup]
  cases m.planFrom t.readText g with
  | error fault => rfl
  | ok plan =>
      cases hDry : m.options.dryRun with
      | true => rfl
      | false => rfl

/- A group that succeeds has carried out its plan. -/
theorem planFrom_of_result
    {report : Report}
    (hResult :
      ((m.runGroup g).run t).1.result = .ok report) :
    ∃ text, m.planFrom t.readText g = .ok (report, text) := by
  rw [result_runGroup] at hResult
  split at hResult
  · cases hResult
  · rename_i planned text hPlan
    split at hResult
    · cases hResult
      exact ⟨text, hPlan⟩
    · unfold resultOf at hResult
      split at hResult
      · cases hResult
        exact ⟨text, hPlan⟩
      · cases hResult

/- Only the plan can fail for want of a module. -/
theorem result_eq_moduleUnknown_iff
    {name : Text} :
    ((m.runGroup g).run t).1.result =
        .error (.moduleUnknown name) ↔
      m.planFrom t.readText g =
        .error (.moduleUnknown name) := by
  rw [result_runGroup]
  split
  · rename_i fault hPlan
    simp [hPlan]
  · rename_i planned text hPlan
    rw [hPlan]
    split
    · simp
    · unfold resultOf
      split
      · simp
      · simp

------------------------------------------------------------
-- Content
------------------------------------------------------------

/-
  The module and the import entries of a group, told by the
  sources in its inputs.
-/
structure Content
    (m : Merger)
    (g : MergeGroup)
    (sources : List Loaded)
    (name : Text)
    (entries : List Text) : Prop where
  moduleName :
    (g.moduleName <|> m.options.defaultModule <|>
        sources.findSome? (·.source.moduleName)) =
      some name
  ascending :
    entries.Pairwise fun a b => Utf8.encode a < Utf8.encode b
  complete :
    ∀ entry,
      entry ∈ entries ↔
        ∃ item ∈ sources, entry ∈ item.source.imports

/- What a report counts. -/
structure Accounts
    (g : MergeGroup)
    (sources : List Loaded)
    (missing : List Path)
    (entries : List Text)
    (bodies : List (List Text))
    (report : Report) : Prop where
  declared : report.declared = g.inputs.length
  read : report.read = sources.length
  missing : report.missing = missing
  balance :
    report.declared = report.read + report.missing.length
  importCount : report.importCount = entries.length
  blockCount : report.blockCount = bodies.length

/- What is merged from sources under a name has their content. -/
theorem content_named
    {sources : List Loaded}
    {name : Text}
    (hName :
      ((g.moduleName <|> m.options.defaultModule) <|>
          MergedFile.firstModule? sources) =
        some name) :
    m.Content g sources name
      (MergedFile.allImports sources).toList := by
  refine
    { moduleName := ?_
      ascending := MergedFile.imports_ascending _
      complete := ?_ }
  · rw [← hName, MergedFile.firstModule?_eq_findSome?]
    cases g.moduleName <;> rfl
  · intro entry
    rw [Std.ExtTreeSet.mem_toList, MergedFile.mem_allImports]

theorem accounts_report
    (m : Merger)
    (g : MergeGroup)
    (read : Path → Except FileFault Text)
    (name : Text) :
    let sources := m.loadedFrom read g.inputs
    let missing := missingFrom read g.inputs
    Accounts g sources missing
      (MergedFile.allImports sources).toList
      ((sources.map (·.source.body)).filter (· ≠ []))
      (m.report g ⟨sources, missing⟩
        (MergedFile.named name sources)) := by
  intro sources missing
  refine
    { declared := rfl
      read := rfl
      missing := rfl
      balance := m.length_loadedFrom read g.inputs
      importCount := Std.ExtTreeSet.length_toList.symm
      blockCount := ?_ }
  rw [← MergedFile.lines_allBlocks, List.length_map]
  rfl

/- The file that a group has written. -/
theorem read_output
    {merged : MergedFile}
    (hMerged :
      MergedFile.ofLoaded?
          (g.moduleName <|> m.options.defaultModule)
          (m.loadedFrom t.readText g.inputs) =
        some merged)
    {report : Report}
    (hResult :
      ((m.runGroup g).run t).1.result = .ok report)
    (hWet : m.options.dryRun = false) :
    ((m.runGroup g).run t).2.read g.output =
      .ok
        (Utf8.encode (merged.render m.options.dialect)) := by
  rw [FileJob.run_eq_runWith] at hResult ⊢
  have hWhole :=
    m.allOrNothing_of_settles (t.settles_writeDirect g.output)
  rcases hWhole.written report hResult hWet with
    ⟨written, place, hWritten, hReplaces⟩
  cases hMerged.symm.trans hWritten
  exact hReplaces.read_eq

/-
  The file that a group writes has the module that is
  configured or else declared first, every import of its
  sources once and in the order of octets, and every body that
  is not empty.  Its report counts these.  A group lacks a
  module exactly if none is configured and none of the inputs
  that were read declares one.
-/
theorem runGroup_content
    (m : Merger)
    (g : MergeGroup)
    (t : FileTree) :
    let sources := m.loadedFrom t.readText g.inputs
    let missing := missingFrom t.readText g.inputs
    let bodies :=
      (sources.map (·.source.body)).filter (· ≠ [])
    let ended := (m.runGroup g).run t
    (∀ report,
      ended.1.result = .ok report →
        ∃ name entries,
          m.Content g sources name entries ∧
            Accounts g sources missing entries bodies report ∧
            (m.options.dryRun = false →
              ended.2.read g.output =
                .ok
                  (Utf8.encode
                    (Text.unlines
                      (MergedFile.layout m.options.dialect
                        name entries bodies))))) ∧
      ∀ name,
        ended.1.result = .error (.moduleUnknown name) ↔
          name = g.name ∧
            m.Proceeds t.readText g.inputs ∧
            g.moduleName = none ∧
            m.options.defaultModule = none ∧
            ∀ item ∈ sources,
              item.source.moduleName = none := by
  intro sources missing bodies ended
  refine ⟨?_, ?_⟩
  · intro report hResult
    rcases planFrom_of_result hResult with ⟨text, hPlan⟩
    rcases planFrom_eq_ok hPlan with
      ⟨merged, hMerged, -, rfl⟩
    rcases MergedFile.ofLoaded?_eq_some_iff.mp hMerged with
      ⟨name, hName, rfl⟩
    refine
      ⟨name, (MergedFile.allImports sources).toList,
        content_named hName,
        m.accounts_report g t.readText name, ?_⟩
    intro hWet
    rw [← MergedFile.render_named]
    exact read_output hMerged hResult hWet
  · intro name
    rw [result_eq_moduleUnknown_iff,
      planFrom_eq_moduleUnknown_iff,
      MergedFile.ofLoaded?_eq_none_iff]
    cases g.moduleName with
    | some configured => simp
    | none => simp [sources]

/- A file without a module, and one with a module. -/
def accentedTree : FileTree :=
  ((FileTree.empty ["w".toList]).addFile "a.go".toList
    (Utf8.encode
      "import \"é\"\nimport \"z\"\n".toList)).addFile
        "b.go".toList
        (Utf8.encode
          "package q\nimport \"z\"\n\nvar b\n".toList)

/- A group with an input twice, and with one not there. -/
def accentedGroup : MergeGroup where
  name := "g".toList
  inputs :=
    ["a.go".toList, "gone.go".toList, "b.go".toList,
      "./b.go".toList]
  output := "out.go".toList
  moduleName := none

def namelessGroup : MergeGroup :=
  { accentedGroup with inputs := ["a.go".toList] }

theorem runGroup_content_accented :
    let sources :=
      standardMerger.loadedFrom accentedTree.readText
        accentedGroup.inputs
    let bodies :=
      (sources.map (·.source.body)).filter (· ≠ [])
    let ended :=
      (standardMerger.runGroup accentedGroup).run accentedTree
    (∃ report name entries,
        ended.1.result = .ok report ∧
          standardMerger.Content accentedGroup sources name
            entries ∧
          Accounts accentedGroup sources ["gone.go".toList]
            entries bodies report ∧
          ended.2.read accentedGroup.output =
            .ok
              (Utf8.encode
                (Text.unlines
                  (MergedFile.layout Dialect.go name entries
                    bodies)))) ∧
      ((standardMerger.runGroup namelessGroup).run
          accentedTree).1.result =
        .error (.moduleUnknown namelessGroup.name) := by
  intro sources bodies ended
  have hResult :
      ended.1.result =
        .ok
          { name := accentedGroup.name
            output := accentedGroup.output
            declared := 4
            read := 3
            missing := ["gone.go".toList]
            importCount := 2
            blockCount := 2
            written := true } := by
    decide +kernel
  have hMissing :
      missingFrom accentedTree.readText accentedGroup.inputs =
        ["gone.go".toList] := by
    decide +kernel
  have hMerged :=
    runGroup_content standardMerger accentedGroup accentedTree
  have hNameless :=
    runGroup_content standardMerger namelessGroup accentedTree
  refine ⟨?_, ?_⟩
  · rcases hMerged.1 _ hResult with
      ⟨name, entries, hContent, hAccounts, hWritten⟩
    rw [hMissing] at hAccounts
    exact
      ⟨_, name, entries, hResult, hContent, hAccounts,
        hWritten rfl⟩
  · have hModules :
        ∀ item ∈
            standardMerger.loadedFrom accentedTree.readText
              namelessGroup.inputs,
          item.source.moduleName = none := by
      decide +kernel
    have hProceeds :
        standardMerger.Proceeds accentedTree.readText
          namelessGroup.inputs := by
      intro hFail
      cases hFail
    exact
      (hNameless.2 _).mpr
        ⟨rfl, hProceeds, rfl, rfl, hModules⟩

end Merger

end Collate
