import Collate.Merged
import Collate.Proofs.Source

/-
  What a merged file is made of, and the lines of its text.
  The layout of the blocks matters only through the lines
  that they put behind the imports, each block after one
  empty line.

  Key definitions include:
    * `Loaded.readAll`
    * `MergedFile.Clean`
    * `MergedFile.spaced`
    * `MergedFile.outline`

  Main declarations:
    * `MergedFile.clean_ofLoaded?`
    * `MergedFile.outline_eq`
    * `MergedFile.render_eq_unlines`
    * `MergedFile.render_congr`
    * `MergedFile.render_replace`
-/

------------------------------------------------------------
-- Sources of a Merged File
------------------------------------------------------------

namespace Collate

namespace Loaded

/- The sources in texts, each with the path of its text. -/
def readAll
    (g : LineGrammar)
    (mark : Text)
    (inputs : List (Path × Text)) : List Loaded :=
  inputs.map fun input =>
    ⟨input.1, Source.read g mark input.2⟩

@[simp] theorem readAll_append
    (g : LineGrammar)
    (mark : Text)
    (before after : List (Path × Text)) :
    readAll g mark (before ++ after) =
      readAll g mark before ++ readAll g mark after := by
  simp [readAll]

theorem clean_of_mem_readAll
    {g : LineGrammar}
    (hUsable : g.Usable)
    {mark : Text}
    {inputs : List (Path × Text)}
    {item : Loaded}
    (hMem : item ∈ readAll g mark inputs) :
    item.source.Clean g mark := by
  rcases List.mem_map.mp hMem with ⟨input, -, rfl⟩
  exact Source.clean_read hUsable mark input.2

end Loaded

namespace MergedFile

theorem isEmpty_imports_iff
    {imports : ImportSet} :
    imports.isEmpty = true ↔ imports.toList = [] := by
  rw [← Std.ExtTreeSet.isEmpty_toList, List.isEmpty_iff]

/- The imports of a merged file are those of its sources. -/
theorem mem_allImports
    {loaded : List Loaded}
    {entry : Text} :
    entry ∈ allImports loaded ↔
      ∃ item ∈ loaded, entry ∈ item.source.imports := by
  have hFold :
      ∀ imports : ImportSet,
        entry ∈ loaded.foldl
            (fun imports item =>
              imports ∪ item.source.imports) imports ↔
          entry ∈ imports ∨
            ∃ item ∈ loaded, entry ∈ item.source.imports := by
    induction loaded with
    | nil => simp
    | cons item rest ih =>
        intro imports
        simp only [List.foldl_cons, ih, List.mem_cons,
          exists_eq_or_imp, Std.ExtTreeSet.mem_union_iff]
        tauto
  simpa [allImports] using hFold ∅

theorem allImports_append
    (before after : List Loaded) :
    allImports (before ++ after) =
      allImports before ∪ allImports after := by
  apply Std.ExtTreeSet.ext_mem
  intro entry
  simp only [mem_allImports, Std.ExtTreeSet.mem_union_iff,
    List.mem_append, or_and_right, exists_or]

/- The first module declared by the sources in order. -/
theorem firstModule?_append
    (before after : List Loaded) :
    firstModule? (before ++ after) =
      (firstModule? before <|> firstModule? after) := by
  induction before with
  | nil => simp [firstModule?]
  | cons item rest ih =>
      cases hName : item.source.moduleName with
      | some name => simp [firstModule?, hName]
      | none => simp [firstModule?, hName, ih]

/- A declared module is the module of one of the sources. -/
theorem exists_of_firstModule?
    {loaded : List Loaded}
    {name : Text}
    (hName : firstModule? loaded = some name) :
    ∃ item ∈ loaded, item.source.moduleName = some name := by
  induction loaded with
  | nil => cases hName
  | cons item rest ih =>
      cases hFirst : item.source.moduleName with
      | some declared =>
          simp only [firstModule?, hFirst] at hName
          exact ⟨item, by simp, hFirst.trans hName⟩
      | none =>
          simp only [firstModule?, hFirst] at hName
          rcases ih hName with ⟨other, hMem, hOther⟩
          exact ⟨other, List.mem_cons_of_mem _ hMem, hOther⟩

/- Sources merged under a name. -/
def named
    (name : Text)
    (loaded : List Loaded) : MergedFile :=
  ⟨name, allImports loaded, allBlocks loaded⟩

/- Sources merge if some module is known. -/
theorem ofLoaded?_eq_some_iff
    {configured : Option Text}
    {loaded : List Loaded}
    {m : MergedFile} :
    ofLoaded? configured loaded = some m ↔
      ∃ name,
        (configured <|> firstModule? loaded) = some name ∧
          m = named name loaded := by
  unfold ofLoaded?
  rw [Option.map_eq_some_iff]
  simp only [named, eq_comm]

------------------------------------------------------------
-- Clean Merged Files
------------------------------------------------------------

/- What every merged file of sources that were read satisfies. -/
structure Clean
    (g : LineGrammar)
    (mark : Text)
    (m : MergedFile) : Prop where
  moduleName : IsModuleName m.moduleName
  imports : ∀ entry ∈ m.imports, Source.IsEntry mark entry
  blocks :
    ∀ block ∈ m.blocks,
      block.lines ≠ [] ∧ Source.IsBody g block.lines

theorem mem_allBlocks
    {loaded : List Loaded}
    {block : Block} :
    block ∈ allBlocks loaded ↔
      ∃ item ∈ loaded, item.source.body ≠ [] ∧
        block = ⟨item.path, item.source.body⟩ := by
  simp only [allBlocks, List.mem_map, List.mem_filter,
    Bool.not_eq_true', List.isEmpty_eq_false_iff]
  constructor
  · rintro ⟨item, ⟨hMem, hNonempty⟩, rfl⟩
    exact ⟨item, hMem, hNonempty, rfl⟩
  · rintro ⟨item, hMem, hNonempty, rfl⟩
    exact ⟨item, ⟨hMem, hNonempty⟩, rfl⟩

/- Clean sources make a clean merged file. -/
theorem clean_ofLoaded?
    {g : LineGrammar}
    {mark : Text}
    {configured : Option Text}
    {loaded : List Loaded}
    {m : MergedFile}
    (hConfigured :
      ∀ name, configured = some name → IsModuleName name)
    (hLoaded :
      ∀ item ∈ loaded, item.source.Clean g mark)
    (hMerged : ofLoaded? configured loaded = some m) :
    m.Clean g mark := by
  rcases ofLoaded?_eq_some_iff.mp hMerged with
    ⟨name, hName, rfl⟩
  refine ⟨?_, ?_, ?_⟩
  · cases hChosen : configured with
    | some chosen =>
        rw [hChosen] at hName
        exact hConfigured _ (hChosen.trans hName)
    | none =>
        rw [hChosen] at hName
        rcases exists_of_firstModule? hName with
          ⟨item, hMem, hItem⟩
        exact (hLoaded item hMem).moduleName _ hItem
  · intro entry hMem
    rcases mem_allImports.mp hMem with ⟨item, hItem, hEntry⟩
    exact (hLoaded item hItem).imports entry hEntry
  · intro block hMem
    rcases mem_allBlocks.mp hMem with
      ⟨item, hItem, hNonempty, rfl⟩
    exact ⟨hNonempty, (hLoaded item hItem).body⟩

------------------------------------------------------------
-- Lines of a Merged File
------------------------------------------------------------

/- Bodies one after another, each behind one empty line. -/
def spaced
    (bodies : List (List Text)) : List Text :=
  bodies.flatMap ([] :: ·)

/- The lines of a merged file. -/
def outline
    (d : Dialect)
    (m : MergedFile) : List Text :=
  List.intercalate [[]] (m.sections d)

/- What stands behind the first body is spaced. -/
theorem intercalate_cons
    (body : List Text)
    (bodies : List (List Text)) :
    List.intercalate [[]] (body :: bodies) =
      body ++ spaced bodies := by
  induction bodies generalizing body with
  | nil => simp [spaced]
  | cons next rest ih =>
      rw [List.intercalate_cons_cons, ih]
      simp [spaced]

/-
  The lines of a merged file are its declaration, its
  imports if there are any, and its blocks, spaced.
-/
theorem outline_eq
    (d : Dialect)
    (m : MergedFile) :
    m.outline d =
      m.declaration d ::
        ((if m.imports.isEmpty then []
            else [] :: m.importLines d) ++
          spaced (m.blocks.map (·.lines))) := by
  unfold outline sections
  rw [intercalate_cons]
  by_cases hEmpty : m.imports.isEmpty = true
  · simp [hEmpty]
  · simp [hEmpty, spaced]

/- The text of a merged file is written line by line. -/
theorem render_eq_unlines
    (d : Dialect)
    {m : MergedFile}
    (hBlocks : ∀ block ∈ m.blocks, block.lines ≠ []) :
    m.render d = Text.unlines (m.outline d) := by
  unfold render outline
  apply Text.joinWith_sections
  · simp [sections]
  · intro ls hMem
    simp only [sections, List.mem_cons, List.mem_append,
      List.mem_map] at hMem
    rcases hMem with rfl | hImports | ⟨block, hBlock, rfl⟩
    · simp
    · split at hImports
      · cases hImports
      · rw [List.mem_singleton.mp hImports]
        simp [importLines]
    · exact hBlocks block hBlock

/-
  Merged files with the same module and imports have the
  same text if their blocks have the same lines, however
  these are divided into blocks.
-/
theorem render_congr
    (d : Dialect)
    {m n : MergedFile}
    (hName : m.moduleName = n.moduleName)
    (hImports : m.imports = n.imports)
    (hSpaced :
      spaced (m.blocks.map (·.lines)) =
        spaced (n.blocks.map (·.lines)))
    (hM : ∀ block ∈ m.blocks, block.lines ≠ [])
    (hN : ∀ block ∈ n.blocks, block.lines ≠ []) :
    m.render d = n.render d := by
  have hDeclaration : m.declaration d = n.declaration d := by
    unfold declaration
    rw [hName]
  have hLines : m.importLines d = n.importLines d := by
    unfold importLines
    rw [hImports]
  rw [render_eq_unlines d hM, render_eq_unlines d hN,
    outline_eq, outline_eq, hDeclaration, hImports, hLines,
    hSpaced]

theorem lines_ne_nil_of_mem_allBlocks
    {loaded : List Loaded}
    {block : Block}
    (hMem : block ∈ allBlocks loaded) :
    block.lines ≠ [] := by
  rcases mem_allBlocks.mp hMem with ⟨item, -, hNonempty, rfl⟩
  exact hNonempty

/- What the body of one source puts behind the imports. -/
theorem spaced_allBlocks
    (loaded : List Loaded) :
    spaced ((allBlocks loaded).map (·.lines)) =
      loaded.flatMap fun item =>
        if item.source.body = [] then []
        else [] :: item.source.body := by
  induction loaded with
  | nil => rfl
  | cons item rest ih =>
      by_cases hEmpty : item.source.body = []
      · simpa [allBlocks, hEmpty] using ih
      · simpa [allBlocks, hEmpty, spaced] using ih

/- Joined bodies stand behind one empty line, or nowhere. -/
theorem spaced_joined
    {bodies : List (List Text)}
    (hBodies : ∀ body ∈ bodies, body ≠ []) :
    (if List.intercalate [[]] bodies = [] then []
      else [] :: List.intercalate [[]] bodies) =
        spaced bodies := by
  cases bodies with
  | nil => rfl
  | cons body rest =>
      have hNonempty : body ≠ [] := hBodies body (by simp)
      rw [intercalate_cons]
      simp [hNonempty, spaced]

/-
  Some of the sources can be replaced by one that has all
  their imports and all their bodies.
-/
theorem render_replace
    (d : Dialect)
    (name : Text)
    (pre seg post : List Loaded)
    {item : Loaded}
    (hImports : item.source.imports = allImports seg)
    (hBody :
      item.source.body =
        List.intercalate [[]] ((allBlocks seg).map (·.lines))) :
    (named name (pre ++ seg ++ post)).render d =
      (named name (pre ++ [item] ++ post)).render d := by
  have hItem : allImports [item] = allImports seg := by
    rw [← hImports]
    apply Std.ExtTreeSet.ext_mem
    intro entry
    simp [mem_allImports]
  have hSpaced :
      (if item.source.body = [] then []
        else [] :: item.source.body) =
        spaced ((allBlocks seg).map (·.lines)) := by
    rw [hBody]
    apply spaced_joined
    intro body hMem
    rcases List.mem_map.mp hMem with ⟨block, hBlock, rfl⟩
    exact lines_ne_nil_of_mem_allBlocks hBlock
  apply render_congr
  · rfl
  · simp only [named, allImports_append, hItem]
  · simp only [named, spaced_allBlocks, List.flatMap_append,
      List.flatMap_singleton]
    rw [hSpaced, spaced_allBlocks]
  · intro block hMem
    exact lines_ne_nil_of_mem_allBlocks hMem
  · intro block hMem
    exact lines_ne_nil_of_mem_allBlocks hMem

end MergedFile

end Collate
