import Collate.Proofs.Content
import Collate.Proofs.File.Likeness
import Collate.Proofs.Runs
import Collate.Proofs.Text.Gist

/-
  Ends of lines and trailing blanks.  A source depends on the
  gist of its text only, so groups end alike on file trees
  whose texts have the same gist, and write the same octets.

  Key definitions include:
    * `Source.ofLines`
    * `FileTree.Resembles`

  Main declarations:
    * `Source.contribute_blank`
    * `Source.read_eq_gist`
    * `Merger.run_runGroup_of_resembles`
    * `Merger.run_runGroups_of_resembles`
    * `Merger.run_of_gist`
-/

------------------------------------------------------------
-- Trailing Blanks
------------------------------------------------------------

namespace Collate

namespace LineGrammar

variable {g : LineGrammar}

/- A line has its role without the blanks at its end. -/
theorem classify_trimEnd
    (g : LineGrammar)
    (region : Region)
    (line : Text) :
    g.classify region line.trimEnd =
      g.classify region line := by
  unfold classify
  rw [line.trim_trimEnd]

theorem roles_trimEnd
    (g : LineGrammar)
    (region : Region)
    (lines : List Text) :
    g.roles region (lines.map Text.trimEnd) =
      (g.roles region lines).map
        (Prod.map Text.trimEnd id) := by
  induction lines generalizing region with
  | nil => rfl
  | cons line rest ih =>
      simp [roles, classify_trimEnd, ih]

/-
  The role of a blank line: it is blank, or an empty entry of
  a block of imports.
-/
theorem classify_blank
    (hUsable : g.Usable)
    {line : Text}
    (hBlank : line.allBlank = true)
    (region : Region) :
    (g.classify region line).1 = .blank ∨
      (g.classify region line).1 = .blockEntry [] := by
  rw [← Text.trim_eq_nil_iff] at hBlank
  cases region with
  | header => exact .inl (by simp [classify, hBlank])
  | body => exact .inl (by simp [classify, hBlank])
  | importBlock =>
      have hOpen : line.trim ≠ g.blockClose := by
        rw [hBlank]
        exact hUsable.blockClose.nonempty.symm
      rw [classify_entry hOpen, hBlank]
      exact .inr rfl

end LineGrammar

namespace Source

variable {g : LineGrammar}
variable {mark : Text}

/- Blanks at the ends of lines contribute nothing. -/
theorem contribute_trimEnd
    (mark : Text)
    (name : Option Text)
    (annotated : List (Text × LineRole)) :
    contribute mark name
        (annotated.map (Prod.map Text.trimEnd id)) =
      contribute mark name annotated := by
  induction annotated generalizing name with
  | nil => rfl
  | cons first rest ih =>
      rcases first with ⟨line, role⟩
      cases role with
      | moduleDeclaration declared =>
          simp [contribute, ih]
      | blockOpen | blockClose | headerComment =>
          simp [contribute, ih]
      | blockEntry entry | singleImport entry =>
          simp [contribute, ih]
      | code | blank =>
          simp [contribute, ih, addLine, Text.trimEnd_trimEnd]

------------------------------------------------------------
-- Blank Lines around a Text
------------------------------------------------------------

/-
  What lines contribute that are blank, whatever stands before
  them: blank lines for the body at most.
-/
theorem contribute_blank
    (hUsable : g.Usable)
    (mark : Text)
    (name : Option Text)
    (region : Region)
    {lines : List Text}
    (hBlank : ∀ line ∈ lines, line.allBlank = true) :
    ∃ blanks,
      (∀ line ∈ blanks, line.allBlank = true) ∧
        contribute mark name (g.roles region lines) =
          ⟨name, ∅, blanks⟩ := by
  induction lines generalizing region with
  | nil => exact ⟨[], by simp, rfl⟩
  | cons line rest ih =>
      rw [List.forall_mem_cons] at hBlank
      rcases ih (g.classify region line).2 hBlank.2 with
        ⟨blanks, hBlanks, hRest⟩
      have hLine : line.trimEnd.allBlank = true := by
        rw [← Text.trim_eq_nil_iff, line.trim_trimEnd,
          Text.trim_eq_nil_iff]
        exact hBlank.1
      rw [LineGrammar.roles]
      rcases LineGrammar.classify_blank hUsable hBlank.1
          region with hRole | hRole
      · simp only [hRole, contribute, hRest]
        cases name with
        | none => exact ⟨blanks, hBlanks, rfl⟩
        | some declared =>
            refine ⟨line.trimEnd :: blanks, ?_, rfl⟩
            exact List.forall_mem_cons.mpr ⟨hLine, hBlanks⟩
      · -- An empty entry of a block does not count.
        simp only [hRole, contribute, hRest]
        exact ⟨blanks, hBlanks, rfl⟩

/- The source in the lines of a file. -/
def ofLines
    (g : LineGrammar)
    (mark : Text)
    (lines : List Text) : Source :=
  let s := collect g mark lines
  { s with body := Text.trimBlankEdges s.body }

theorem read_eq_ofLines
    (g : LineGrammar)
    (mark text : Text) :
    read g mark text = ofLines g mark text.lines := rfl

/- Blanks at the ends of lines make no difference. -/
theorem ofLines_trimEnd
    (g : LineGrammar)
    (mark : Text)
    (lines : List Text) :
    ofLines g mark (lines.map Text.trimEnd) =
      ofLines g mark lines := by
  unfold ofLines collect
  rw [LineGrammar.roles_trimEnd, contribute_trimEnd]

/- Blank lines before all others belong to the header. -/
theorem ofLines_blank_append
    {pre : List Text}
    (hPre : ∀ line ∈ pre, line.allBlank = true)
    (lines : List Text) :
    ofLines g mark (pre ++ lines) = ofLines g mark lines := by
  have hHeader :
      ∀ line ∈ pre, g.keepsHeader line = true := by
    intro line hMem
    have hBlank := Text.trim_eq_nil_iff.mpr (hPre line hMem)
    simp [LineGrammar.keepsHeader, hBlank]
  unfold ofLines
  rw [collect_header_append hHeader]

/- Blank lines behind all others are trimmed from the body. -/
theorem ofLines_append_blank
    (hUsable : g.Usable)
    (lines : List Text)
    {post : List Text}
    (hPost : ∀ line ∈ post, line.allBlank = true) :
    ofLines g mark (lines ++ post) = ofLines g mark lines := by
  have hAppend := collect_append g mark lines post
  rcases contribute_blank hUsable mark
      (collect g mark lines).moduleName
      (g.regionAfter .header lines) hPost with
    ⟨blanks, hBlanks, hBlank⟩
  unfold ofLines
  simp only [hAppend, hBlank]
  apply ext_parts
  · rfl
  · intro entry
    simp [followedBy]
  · exact Text.trimBlankEdges_append_right _ hBlanks

/- A source depends on the gist of its text only. -/
theorem read_eq_gist
    (hUsable : g.Usable)
    (mark text : Text) :
    read g mark text = ofLines g mark text.gist := by
  rcases Edges.exists_surrounded Text.allBlank
      (text.lines.map Text.trimEnd) with
    ⟨pre, post, hSplit, hPre, hPost⟩
  rw [← Text.trimBlankEdges_eq_strip] at hSplit
  calc
    read g mark text =
        ofLines g mark (text.lines.map Text.trimEnd) := by
      rw [ofLines_trimEnd, read_eq_ofLines]
    _ = ofLines g mark (pre ++ (text.gist ++ post)) :=
      congrArg (ofLines g mark) hSplit
    _ = ofLines g mark text.gist := by
      rw [ofLines_blank_append hPre,
        ofLines_append_blank hUsable _ hPost]

end Source

------------------------------------------------------------
-- Merged Texts
------------------------------------------------------------

namespace MergedFile

/- The text of a merged file depends on its sources only. -/
theorem render_of_sources
    (d : Dialect)
    (configured : Option Text)
    {loaded others : List Loaded}
    (hSources :
      loaded.map (·.source) = others.map (·.source)) :
    (ofLoaded? configured loaded).map (render d) =
      (ofLoaded? configured others).map (render d) := by
  have hModule :
      firstModule? loaded = firstModule? others := by
    have hFound :=
      congrArg (List.findSome? Source.moduleName) hSources
    rw [List.findSome?_map, List.findSome?_map] at hFound
    rw [firstModule?_eq_findSome?, firstModule?_eq_findSome?]
    exact hFound
  have hImports : allImports loaded = allImports others := by
    have hMem :
        ∀ (items : List Loaded) (entry : Text),
          entry ∈ allImports items ↔
            ∃ s ∈ items.map (·.source), entry ∈ s.imports := by
      intro items entry
      simp [mem_allImports]
    apply Std.ExtTreeSet.ext_mem
    intro entry
    rw [hMem, hMem, hSources]
  have hBodies :
      loaded.map (·.source.body) =
        others.map (·.source.body) := by
    have hMapped := congrArg (List.map Source.body) hSources
    rw [List.map_map, List.map_map] at hMapped
    exact hMapped
  have hRender :
      ∀ name,
        (named name loaded).render d =
          (named name others).render d := by
    intro name
    rw [render_named, render_named, hImports, hBodies]
  unfold ofLoaded?
  rw [hModule, Option.map_map, Option.map_map]
  congr 1
  funext name
  exact hRender name

/- So it depends on the gists of the texts that are merged. -/
theorem render_of_gists
    {d : Dialect}
    {g : LineGrammar}
    (hUsable : g.Usable)
    (mark : Text)
    (configured : Option Text)
    {inputs others : List (Path × Text)}
    (hGists :
      inputs.map (·.2.gist) = others.map (·.2.gist)) :
    (ofLoaded? configured (Loaded.readAll g mark inputs)).map
        (render d) =
      (ofLoaded? configured (Loaded.readAll g mark others)).map
        (render d) := by
  have hSources :
      ∀ items : List (Path × Text),
        (Loaded.readAll g mark items).map (·.source) =
          (items.map (·.2.gist)).map
            (Source.ofLines g mark) := by
    intro items
    rw [Loaded.readAll, List.map_map, List.map_map]
    apply List.map_congr_left
    intro item _
    exact Source.read_eq_gist hUsable mark item.2
  apply render_of_sources
  rw [hSources, hSources, hGists]

end MergedFile

------------------------------------------------------------
-- Groups on Trees That Resemble Each Other
------------------------------------------------------------

/-
  Contents that are texts with the same gist, or both are no
  texts.
-/
def Octets.SameGist
    (a b : Octets) : Prop :=
  (Utf8.decode? a).map Text.gist =
    (Utf8.decode? b).map Text.gist

theorem Octets.SameGist.refl
    (content : Octets) :
    content.SameGist content := rfl

/- Trees whose files differ without a difference in gist. -/
def FileTree.Resembles
    (t u : FileTree) : Prop :=
  t.Alike Octets.SameGist u

namespace FileTree.Resembles

variable {t u : FileTree}

/- One content may stand for another with the same gist. -/
theorem replace
    (t : FileTree)
    {place : Location}
    (hPlace : place ≠ [])
    {a b : Octets}
    (hGist : a.SameGist b) :
    (t.set place (.file a)).Resembles
      (t.set place (.file b)) := by
  have hSame : t.Resembles t :=
    FileTree.Alike.refl Octets.SameGist.refl t
  exact FileTree.Alike.set_file hSame hPlace hGist

/- Reading a text fails alike, or finds the same gist. -/
theorem readText
    (hResembles : t.Resembles u)
    (p : Path) :
    (u.readText p).map Text.gist =
      (t.readText p).map Text.gist := by
  unfold FileTree.readText
  rcases FileTree.Alike.read_cases hResembles p with
    ⟨fault, hT, hU⟩ | ⟨a, b, hT, hU, hGist⟩
  · rw [hT, hU]
  · rw [hT, hU]
    unfold Octets.SameGist at hGist
    dsimp only
    cases hA : Utf8.decode? a with
    | none =>
        cases hB : Utf8.decode? b with
        | none => rfl
        | some text => simp [hA, hB] at hGist
    | some text =>
        cases hB : Utf8.decode? b with
        | none => simp [hA, hB] at hGist
        | some other =>
            have hSame : text.gist = other.gist := by
              simpa [hA, hB] using hGist
            simp [Except.map, hSame]

end FileTree.Resembles

namespace Merger

variable {m : Merger}
variable {t u : FileTree}

/- What is gathered depends on the sources in the files only. -/
theorem gatherFrom_congr
    {read other : Path → Except FileFault Text}
    (hSources :
      ∀ path,
        m.sourceAt path (other path) =
          m.sourceAt path (read path))
    (group : Text)
    (paths : List Path) :
    m.gatherFrom other group paths =
      m.gatherFrom read group paths := by
  induction paths with
  | nil => rfl
  | cons path rest ih =>
      simp only [gatherFrom, hSources, ih]

/- The same sources stand in trees that resemble each other. -/
theorem sourceAt_of_resembles
    (hUsable : m.grammar.Usable)
    (hResembles : t.Resembles u)
    (path : Path) :
    m.sourceAt path (u.readText path) =
      m.sourceAt path (t.readText path) := by
  have hGist := hResembles.readText path
  cases hT : t.readText path with
  | error fault =>
      cases hU : u.readText path with
      | error other => simp_all [Except.map]
      | ok text => simp [hT, hU, Except.map] at hGist
  | ok text =>
      cases hU : u.readText path with
      | error other => simp [hT, hU, Except.map] at hGist
      | ok other =>
          have hSame : other.gist = text.gist := by
            simpa [hT, hU, Except.map] using hGist
          simp only [sourceAt, source,
            Source.read_eq_gist hUsable, hSame]

theorem gatherFrom_of_resembles
    (hUsable : m.grammar.Usable)
    (hResembles : t.Resembles u)
    (group : Text)
    (paths : List Path) :
    m.gatherFrom u.readText group paths =
      m.gatherFrom t.readText group paths :=
  gatherFrom_congr (sourceAt_of_resembles hUsable hResembles)
    group paths

theorem planFrom_of_resembles
    (hUsable : m.grammar.Usable)
    (hResembles : t.Resembles u)
    (g : MergeGroup) :
    m.planFrom u.readText g = m.planFrom t.readText g := by
  unfold planFrom
  rw [gatherFrom_of_resembles hUsable hResembles]

/- A group ends alike on trees that resemble each other. -/
theorem run_runGroup_of_resembles
    (hUsable : m.grammar.Usable)
    (hResembles : t.Resembles u)
    (g : MergeGroup) :
    ((m.runGroup g).run u).1 = ((m.runGroup g).run t).1 ∧
      ((m.runGroup g).run t).2.Resembles
        ((m.runGroup g).run u).2 := by
  simp only [FileJob.run_eq_runWith, runWith_runGroup,
    gatherFrom_of_resembles hUsable hResembles,
    planFrom_of_resembles hUsable hResembles]
  cases m.planFrom t.readText g with
  | error fault => exact ⟨rfl, hResembles⟩
  | ok plan =>
      rcases plan with ⟨report, text⟩
      cases m.options.dryRun with
      | true => exact ⟨rfl, hResembles⟩
      | false =>
          rcases FileTree.Alike.writeDirect hResembles
              Octets.SameGist.refl g.output
              (Utf8.encode text) with
            ⟨hWent, hAfter⟩
          simp only [Bool.false_eq_true, if_false, hWent]
          exact ⟨trivial, hAfter⟩

/- And so do all groups of a run. -/
theorem run_runGroups_of_resembles
    (hUsable : m.grammar.Usable)
    (hResembles : t.Resembles u)
    (groups : List MergeGroup) :
    ((m.runGroups groups).run u).1 =
        ((m.runGroups groups).run t).1 ∧
      ((m.runGroups groups).run t).2.Resembles
        ((m.runGroups groups).run u).2 := by
  induction groups generalizing t u with
  | nil => exact ⟨rfl, hResembles⟩
  | cons g rest ih =>
      rcases run_runGroup_of_resembles hUsable hResembles g with
        ⟨hFirst, hAfter⟩
      rcases ih hAfter with ⟨hRest, hEnd⟩
      simp only [run_runGroups_cons]
      rw [hFirst, hRest]
      exact ⟨rfl, hEnd⟩

/- The octets that a group has written. -/
theorem read_output_of_plan
    {g : MergeGroup}
    {report : Report}
    {text : Text}
    (hPlan : m.planFrom t.readText g = .ok (report, text))
    (hResult : ((m.runGroup g).run t).1.result = .ok report)
    (hWet : m.options.dryRun = false) :
    ((m.runGroup g).run t).2.read g.output =
      .ok (Utf8.encode text) := by
  rcases planFrom_eq_ok hPlan with ⟨merged, hMerged, rfl, -⟩
  exact read_output hMerged hResult hWet

/-
  Texts with the same gist are read alike and merged alike.
  So are groups on a file tree in which one such text stands
  in place of another: they end alike, and write the same
  octets.  Texts have the same gist if the lines of one have
  other blanks at their ends, a carriage return among them,
  or if blanks follow the end of one, a line feed among them.
-/
theorem run_of_gist
    (hAccept : m.options.dialect.accept = .ok m.grammar) :
    (∀ mark a b : Text,
        a.gist = b.gist →
          Source.read m.grammar mark a =
            Source.read m.grammar mark b) ∧
      (∀ mark configured,
        ∀ inputs others : List (Path × Text),
          inputs.map (·.2.gist) = others.map (·.2.gist) →
            (MergedFile.ofLoaded? configured
                (Loaded.readAll m.grammar mark inputs)).map
                (MergedFile.render m.options.dialect) =
              (MergedFile.ofLoaded? configured
                (Loaded.readAll m.grammar mark others)).map
                (MergedFile.render m.options.dialect)) ∧
      (∀ t u : FileTree,
        t.Resembles u →
          (∀ groups,
            ((m.runGroups groups).run u).1 =
              ((m.runGroups groups).run t).1) ∧
          ∀ g report,
            ((m.runGroup g).run t).1.result = .ok report →
              m.options.dryRun = false →
                ∃ content,
                  ((m.runGroup g).run t).2.read g.output =
                      .ok content ∧
                    ((m.runGroup g).run u).2.read g.output =
                      .ok content) ∧
      (∀ (t : FileTree) (place : Location) (a b : Octets),
        place ≠ [] →
          a.SameGist b →
            (t.set place (.file a)).Resembles
              (t.set place (.file b))) ∧
      (∀ ls others : List Text,
        (∀ line ∈ ls ++ others, '\n' ∉ line) →
          ls.map Text.trimEnd = others.map Text.trimEnd →
            (Text.unlines ls).gist =
              (Text.unlines others).gist) ∧
      (∀ ls : List Text,
        (∀ line ∈ ls, '\n' ∉ line) →
          (Text.unlines (ls.map (· ++ ['\r']))).gist =
            (Text.unlines ls).gist) ∧
      ∀ text blanks : Text,
        (∀ c ∈ blanks, Text.isBlank c = true) →
          Text.gist (text ++ blanks) = text.gist := by
  have hUsable := Dialect.usable_of_accept hAccept
  refine ⟨?_, ?_, ?_, ?_, ?_, ?_, ?_⟩
  · intro mark a b hGist
    rw [Source.read_eq_gist hUsable,
      Source.read_eq_gist hUsable, hGist]
  · intro mark configured inputs others hGists
    exact MergedFile.render_of_gists hUsable mark configured
      hGists
  · intro t u hResembles
    refine ⟨?_, ?_⟩
    · intro groups
      exact
        (run_runGroups_of_resembles hUsable hResembles
          groups).1
    · intro g report hResult hWet
      have hPlans :=
        planFrom_of_resembles hUsable hResembles g
      rcases planFrom_of_result hResult with ⟨text, hPlan⟩
      have hOther :
          ((m.runGroup g).run u).1.result = .ok report := by
        rw [(run_runGroup_of_resembles hUsable hResembles
          g).1]
        exact hResult
      exact
        ⟨Utf8.encode text,
          read_output_of_plan hPlan hResult hWet,
          read_output_of_plan (hPlans.trans hPlan) hOther
            hWet⟩
  · intro t place a b hPlace hGist
    exact FileTree.Resembles.replace t hPlace hGist
  · intro ls others hLines hSame
    rw [List.forall_mem_append] at hLines
    rw [Text.gist_unlines hLines.1,
      Text.gist_unlines hLines.2, hSame]
  · intro ls hLines
    exact Text.gist_unlines_returns hLines
  · intro text blanks hBlanks
    exact text.gist_append_blanks hBlanks

/- A text with blanks at the ends of its lines. -/
def fedText : Text :=
  "package p \nimport (\n\t\"a\"  \n)\nvar x\t\n\n".toList

/- The same with carriage returns, and the last feed missing. -/
def returnedText : Text :=
  "\r\npackage p\r\nimport (\r\n\t\"a\"\r\n)\r\nvar x\r".toList

def fedPlace : Location :=
  ["w".toList, "a.go".toList]

def fedGroup : MergeGroup where
  name := "g".toList
  inputs := ["a.go".toList]
  output := "out.go".toList
  moduleName := none

theorem run_of_gist_returnedText :
    let t :=
      (FileTree.empty ["w".toList]).set fedPlace
        (.file (Utf8.encode fedText))
    let u :=
      (FileTree.empty ["w".toList]).set fedPlace
        (.file (Utf8.encode returnedText))
    fedText ≠ returnedText ∧
      Source.read Dialect.go.grammar [] fedText =
        Source.read Dialect.go.grammar [] returnedText ∧
      ∃ content,
        ((standardMerger.runGroup fedGroup).run t).2.read
            fedGroup.output =
            .ok content ∧
          ((standardMerger.runGroup fedGroup).run u).2.read
            fedGroup.output =
            .ok content := by
  intro t u
  have hAccept :
      standardMerger.options.dialect.accept =
        .ok standardMerger.grammar := by
    decide +kernel
  have hGist : fedText.gist = returnedText.gist := by
    decide +kernel
  have hContents :
      (Utf8.encode fedText).SameGist
        (Utf8.encode returnedText) := by
    unfold Octets.SameGist
    decide +kernel
  have hResult :
      ((standardMerger.runGroup fedGroup).run t).1.result =
        .ok
          { name := fedGroup.name
            output := fedGroup.output
            declared := 1
            read := 1
            missing := []
            importCount := 1
            blockCount := 1
            written := true } := by
    decide +kernel
  rcases run_of_gist hAccept with
    ⟨hRead, -, hRun, hReplace, -⟩
  have hResembles : t.Resembles u :=
    hReplace _ fedPlace _ _ (by decide) hContents
  exact
    ⟨by decide, hRead [] _ _ hGist,
      (hRun t u hResembles).2 fedGroup _ hResult rfl⟩

end Merger

end Collate
