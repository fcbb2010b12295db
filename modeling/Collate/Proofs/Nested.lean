import Collate.Proofs.RoundTrip

/-
  Merging a merged file with others.  A merged file stands
  for the sources it was made of, so these can be merged
  first and the result merged with the rest.

  Main declarations:
    * `MergedFile.firstModule?_replace`
    * `MergedFile.render_nested`
-/

------------------------------------------------------------
-- Nested Merging
------------------------------------------------------------

namespace Collate

namespace MergedFile

variable {d : Dialect}
variable {g : LineGrammar}

/-
  Some of the sources can be replaced by one that declares
  the first module among them.
-/
theorem firstModule?_replace
    (pre : List Loaded)
    {seg : List Loaded}
    (post : List Loaded)
    {item : Loaded}
    {name : Text}
    (hSeg : firstModule? seg = some name)
    (hItem : item.source.moduleName = some name) :
    firstModule? (pre ++ [item] ++ post) =
      firstModule? (pre ++ seg ++ post) := by
  have hSingle : firstModule? [item] = some name := by
    simp [firstModule?, hItem]
  rw [firstModule?_append, firstModule?_append,
    firstModule?_append, firstModule?_append, hSeg, hSingle]

/- A module is known as soon as one of the sources has one. -/
theorem firstModule?_isSome
    (pre : List Loaded)
    {seg : List Loaded}
    (post : List Loaded)
    {name : Text}
    (hSeg : firstModule? seg = some name) :
    ∃ first, firstModule? (pre ++ seg ++ post) = some first := by
  rw [firstModule?_append, firstModule?_append, hSeg]
  cases firstModule? pre with
  | none => exact ⟨name, rfl⟩
  | some first => exact ⟨first, rfl⟩

/-
  Replacing some of the sources by one with their module,
  their imports and their bodies does not change the text,
  whatever module is configured.
-/
theorem ofLoaded?_replace
    (d : Dialect)
    (outer : Option Text)
    (pre : List Loaded)
    {seg : List Loaded}
    (post : List Loaded)
    {item : Loaded}
    {name : Text}
    (hSeg : firstModule? seg = some name)
    (hName : item.source.moduleName = some name)
    (hImports : item.source.imports = allImports seg)
    (hBody :
      item.source.body =
        List.intercalate [[]] ((allBlocks seg).map (·.lines))) :
    ∃ flat nested,
      ofLoaded? outer (pre ++ seg ++ post) = some flat ∧
      ofLoaded? outer (pre ++ [item] ++ post) = some nested ∧
      nested.render d = flat.render d := by
  have hReplace := firstModule?_replace pre post hSeg hName
  rcases firstModule?_isSome pre post hSeg with
    ⟨first, hFirst⟩
  have hChosen :
      ∃ chosen, (outer <|> some first) = some chosen := by
    cases outer with
    | none => exact ⟨first, rfl⟩
    | some configured => exact ⟨configured, rfl⟩
  rcases hChosen with ⟨chosen, hChosen⟩
  refine ⟨named chosen (pre ++ seg ++ post),
    named chosen (pre ++ [item] ++ post), ?_, ?_, ?_⟩
  · rw [ofLoaded?_eq_some_iff]
    exact ⟨chosen, by rw [hFirst, hChosen], rfl⟩
  · rw [ofLoaded?_eq_some_iff]
    exact ⟨chosen, by rw [hReplace, hFirst, hChosen], rfl⟩
  · exact (render_replace d chosen pre seg post
      hImports hBody).symm

/-
  Files in the middle of a list can be merged on their own
  first.  Merging the text of their merged file in their
  place gives the same text in the end.
-/
theorem render_nested
    (hDialect : d.Linewise g)
    (outer : Option Text)
    (pre seg post : List (Path × Text))
    {inner : MergedFile}
    (hInner :
      ofLoaded? none (Loaded.readAll g d.commentMark seg) =
        some inner)
    (hClose : d.blockClose.trim ∉ inner.imports)
    (path : Path) :
    ∃ flat nested,
      ofLoaded? outer
          (Loaded.readAll g d.commentMark
            (pre ++ seg ++ post)) =
        some flat ∧
      ofLoaded? outer
          (Loaded.readAll g d.commentMark
            (pre ++ [(path, inner.render d)] ++ post)) =
        some nested ∧
      nested.render d = flat.render d := by
  have hUsable := Dialect.usable_of_accept hDialect.accepted
  have hClean : inner.Clean g d.commentMark :=
    clean_ofLoaded? (by simp)
      (fun item hMem =>
        Loaded.clean_of_mem_readAll hUsable hMem)
      hInner
  have hRead := read_render hDialect hClean hClose
  rcases ofLoaded?_eq_some_iff.mp hInner with
    ⟨name, hName, rfl⟩
  have hSeg :
      firstModule? (Loaded.readAll g d.commentMark seg) =
        some name := by
    simpa using hName
  simp only [Loaded.readAll_append]
  apply ofLoaded?_replace d outer _ _ hSeg
  · exact congrArg Source.moduleName hRead
  · exact congrArg Source.imports hRead
  · exact congrArg Source.body hRead

/- The file between two others is a merged file itself. -/
theorem render_nested_twoFiles :
    ∃ inner,
      ofLoaded? none
          (Loaded.readAll Dialect.go.grammar
            Dialect.go.commentMark twoFiles) =
        some inner ∧
      ∃ flat nested,
        ofLoaded? none
            (Loaded.readAll Dialect.go.grammar
              Dialect.go.commentMark
              (twoFiles ++ twoFiles ++ twoFiles)) =
          some flat ∧
        ofLoaded? none
            (Loaded.readAll Dialect.go.grammar
              Dialect.go.commentMark
              (twoFiles ++ [([], inner.render .go)] ++
                twoFiles)) =
          some nested ∧
        nested.render .go = flat.render .go := by
  let inner :=
    named "p".toList
      (Loaded.readAll Dialect.go.grammar
        Dialect.go.commentMark twoFiles)
  have hInner :
      ofLoaded? none
          (Loaded.readAll Dialect.go.grammar
            Dialect.go.commentMark twoFiles) =
        some inner := by
    rw [ofLoaded?_eq_some_iff]
    exact ⟨"p".toList, by decide +kernel, rfl⟩
  have hClose :
      Dialect.go.blockClose.trim ∉ inner.imports := by
    decide +kernel
  exact
    ⟨inner, hInner,
      render_nested linewise_go none twoFiles twoFiles
        twoFiles hInner hClose []⟩

end MergedFile

end Collate
