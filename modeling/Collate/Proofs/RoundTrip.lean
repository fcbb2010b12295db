import Collate.Proofs.Layout

/-
  Reading the text of a merged file.  Every line that is
  written gets the role for which it was written, so the
  merged file is read back, and writing what was read gives
  the same text again.

  Key definitions include:
    * `Dialect.Linewise`
    * `MergedFile.annotated`

  Main declarations:
    * `MergedFile.roles_outline`
    * `MergedFile.read_render`
    * `MergedFile.roundTrip`
-/

------------------------------------------------------------
-- Roles in a Merged File
------------------------------------------------------------

namespace Collate

/-
  An accepted dialect whose tokens stand on one line each
  and whose indent is blank.
-/
structure Dialect.Linewise
    (d : Dialect)
    (g : LineGrammar) : Prop where
  accepted : d.accept = .ok g
  tokens : ∀ token ∈ Token.required, '\n' ∉ (d.get token).trim
  indentBlank : ∀ c ∈ d.indent, Text.isBlank c = true
  indentFeed : '\n' ∉ d.indent

namespace MergedFile

/- The lines of the imports with their roles. -/
def annotatedImports
    (d : Dialect)
    (m : MergedFile) : List (Text × LineRole) :=
  if m.imports.isEmpty then []
  else
    ([], .blank) ::
      (d.importKeyword.trim ++ ' ' :: d.blockOpen.trim,
        .blockOpen) ::
      ((m.imports.toList.map fun entry =>
          (d.indent ++ entry, .blockEntry entry)) ++
        [(d.blockClose.trim, .blockClose)])

/- The lines of a merged file with their roles. -/
def annotated
    (d : Dialect)
    (m : MergedFile) : List (Text × LineRole) :=
  (m.declaration d, .moduleDeclaration m.moduleName) ::
    (m.annotatedImports d ++
      (spaced (m.blocks.map (·.lines))).map fun line =>
        (line, LineGrammar.plainRole line))

variable {d : Dialect}
variable {g : LineGrammar}
variable {mark : Text}
variable {m : MergedFile}

/- A line of the spaced blocks is empty or from a block. -/
theorem isBodyLine_of_mem_spaced
    (hUsable : g.Usable)
    (hClean : m.Clean g mark)
    {line : Text}
    (hMem : line ∈ spaced (m.blocks.map (·.lines))) :
    Source.IsBodyLine g line := by
  simp only [spaced, List.mem_flatMap, List.mem_map] at hMem
  rcases hMem with ⟨body, ⟨block, hBlock, rfl⟩, hLine⟩
  rcases List.mem_cons.mp hLine with rfl | hLine
  · exact ⟨by simp, rfl, LineGrammar.isPlain_nil hUsable⟩
  · exact (hClean.blocks block hBlock).2.lines line hLine

/- An entry is found again under its indent. -/
theorem trim_indent_append
    (hDialect : d.Linewise g)
    (hClean : m.Clean g mark)
    {entry : Text}
    (hMem : entry ∈ m.imports) :
    (d.indent ++ entry).trim = entry := by
  rw [Text.trim_append_left hDialect.indentBlank]
  exact (hClean.imports entry hMem).solid.trim_eq

/- The lines of the imports get the roles of one block. -/
theorem roles_importLines_append
    (hDialect : d.Linewise g)
    (hClean : m.Clean g mark)
    (hClose : d.blockClose.trim ∉ m.imports)
    (rest : List Text) :
    g.roles .body (m.importLines d ++ rest) =
      (d.importKeyword.trim ++ ' ' :: d.blockOpen.trim,
          .blockOpen) ::
        ((m.imports.toList.map fun entry =>
            (d.indent ++ entry, .blockEntry entry)) ++
          (d.blockClose.trim, .blockClose) ::
            g.roles .body rest) := by
  have hUsable := Dialect.usable_of_accept hDialect.accepted
  have hTrim :
      ∀ entry ∈ m.imports.toList,
        (d.indent ++ entry).trim = entry := by
    intro entry hMem
    exact trim_indent_append hDialect hClean
      (Std.ExtTreeSet.mem_toList.mp hMem)
  rcases Dialect.accept_eq_ok_iff.mp hDialect.accepted with
    ⟨-, rfl⟩
  have hOpening :
      d.grammar.classify .body
          (d.importKeyword.trim ++ ' ' :: d.blockOpen.trim) =
        (.blockOpen, .importBlock) :=
    LineGrammar.classify_opens hUsable
      (LineGrammar.opensBlock_opening hUsable)
  have hClosing :
      d.grammar.classify .importBlock d.blockClose.trim =
        (.blockClose, .body) :=
    LineGrammar.classify_closes hUsable.blockClose.trim_eq
  have hEntries :
      ∀ line ∈ m.imports.toList.map (d.indent ++ ·),
        line.trim ≠ d.blockClose.trim := by
    intro line hMem
    rcases List.mem_map.mp hMem with ⟨entry, hEntry, rfl⟩
    rw [hTrim entry hEntry]
    intro hEq
    exact hClose (hEq ▸ Std.ExtTreeSet.mem_toList.mp hEntry)
  have hRoles :
      (m.imports.toList.map (d.indent ++ ·)).map
          (fun line =>
            (line, LineRole.blockEntry line.trim)) =
        m.imports.toList.map fun entry =>
          (d.indent ++ entry, LineRole.blockEntry entry) := by
    rw [List.map_map]
    apply List.map_congr_left
    intro entry hMem
    simp [hTrim entry hMem]
  simp only [importLines, List.cons_append,
    LineGrammar.roles, hOpening, List.append_assoc]
  rw [LineGrammar.roles_entries_append hEntries, hRoles]
  simp [LineGrammar.roles, hClosing]

/- Every written line gets the role it was written for. -/
theorem roles_outline
    (hDialect : d.Linewise g)
    (hClean : m.Clean g mark)
    (hClose : d.blockClose.trim ∉ m.imports) :
    g.roles .header (m.outline d) = m.annotated d := by
  have hUsable := Dialect.usable_of_accept hDialect.accepted
  have hImports :=
    roles_importLines_append hDialect hClean hClose
  have hBlocks :
      g.roles .body (spaced (m.blocks.map (·.lines))) =
        (spaced (m.blocks.map (·.lines))).map fun line =>
          (line, LineGrammar.plainRole line) :=
    LineGrammar.roles_plain fun line hMem =>
      (isBodyLine_of_mem_spaced hUsable hClean hMem).plain
  rcases Dialect.accept_eq_ok_iff.mp hDialect.accepted with
    ⟨-, rfl⟩
  have hDeclaration :
      d.grammar.classify .header (m.declaration d) =
        (.moduleDeclaration m.moduleName, .body) :=
    LineGrammar.classify_declaration hUsable
      hClean.moduleName
  rw [outline_eq, LineGrammar.roles, hDeclaration, annotated]
  unfold annotatedImports
  by_cases hEmpty : m.imports.isEmpty = true
  · simp [hEmpty, hBlocks]
  · have hBlank :
        d.grammar.classify .body [] = (.blank, .body) := rfl
    simp [hEmpty, LineGrammar.roles, hBlank, hImports,
      hBlocks]

------------------------------------------------------------
-- Reading a Merged File
------------------------------------------------------------

/- Every written line stands on one line. -/
theorem oneLine_of_mem_outline
    (hDialect : d.Linewise g)
    (hClean : m.Clean g mark)
    {line : Text}
    (hMem : line ∈ m.outline d) :
    line.OneLine := by
  have hUnbroken : d.Unbroken g :=
    ⟨hDialect.accepted, hDialect.tokens, hDialect.indentFeed⟩
  exact (neat_of_mem_outline hUnbroken hClean.tidy hMem).oneLine

/- Only blank lines surround the joined bodies. -/
theorem trimBlankEdges_spaced
    {blanks : List Text}
    (hBlanks : ∀ line ∈ blanks, line.allBlank = true)
    {bodies : List (List Text)}
    (hBodies :
      ∀ body ∈ bodies,
        body ≠ [] ∧ Edges.Tight Text.allBlank body) :
    Text.trimBlankEdges (blanks ++ spaced bodies) =
      List.intercalate [[]] bodies := by
  rw [Text.trimBlankEdges_eq_strip,
    Edges.strip_append_left hBlanks]
  cases bodies with
  | nil => rfl
  | cons body rest =>
      have hSpaced :
          spaced (body :: rest) =
            [[]] ++ List.intercalate [[]] (body :: rest) := by
        rw [intercalate_cons]
        simp [spaced]
      have hEmpty :
          ∀ line ∈ ([[]] : List Text),
            line.allBlank = true := by
        simp [Text.allBlank]
      rw [hSpaced, Edges.strip_append_left hEmpty]
      exact Edges.strip_of_tight (tight_intercalate hBodies)

/- The roles that lines are written for. -/
theorem role_of_mem_annotated
    (d : Dialect)
    (m : MergedFile)
    {line : Text × LineRole}
    (hMem : line ∈ (m.annotated d).tail) :
    line.2 = .blockOpen ∨ line.2 = .blockClose ∨
      (∃ entry ∈ m.imports, line.2 = .blockEntry entry) ∨
      line.2 = LineGrammar.plainRole line.1 := by
  unfold annotated annotatedImports at hMem
  rw [List.tail_cons] at hMem
  rcases List.mem_append.mp hMem with hMem | hMem
  · split at hMem
    · cases hMem
    · simp only [List.mem_cons, List.mem_append,
        List.mem_map, List.not_mem_nil, or_false] at hMem
      rcases hMem with rfl | rfl | ⟨entry, hEntry, rfl⟩ | rfl
      · exact .inr (.inr (.inr rfl))
      · exact .inl rfl
      · exact .inr (.inr (.inl
          ⟨entry, Std.ExtTreeSet.mem_toList.mp hEntry, rfl⟩))
      · exact .inr (.inl rfl)
  · rcases List.mem_map.mp hMem with ⟨plain, -, rfl⟩
    exact .inr (.inr (.inr rfl))

/- After the declaration nothing else is declared. -/
theorem declares_annotated
    (d : Dialect)
    (m : MergedFile)
    {line : Text × LineRole}
    (hMem : line ∈ (m.annotated d).tail) :
    line.2.declares = false := by
  rcases role_of_mem_annotated d m hMem with
    hRole | hRole | ⟨entry, -, hRole⟩ | hRole
  · rw [hRole]
    rfl
  · rw [hRole]
    rfl
  · rw [hRole]
    rfl
  · rw [hRole]
    exact LineGrammar.declares_plainRole line.1

/- The written entries are the imports. -/
theorem exists_entry_annotated_iff
    (d : Dialect)
    (m : MergedFile)
    {entry : Text} :
    (∃ line ∈ (m.annotated d).tail,
        line.2.imported? = some entry) ↔
      entry ∈ m.imports := by
  constructor
  · rintro ⟨line, hMem, hEntry⟩
    rcases role_of_mem_annotated d m hMem with
      hRole | hRole | ⟨other, hOther, hRole⟩ | hRole
    · simp [hRole, LineRole.imported?] at hEntry
    · simp [hRole, LineRole.imported?] at hEntry
    · rw [hRole] at hEntry
      exact Option.some.inj hEntry ▸ hOther
    · simp [hRole] at hEntry
  · intro hMem
    have hNonempty : m.imports.isEmpty = false := by
      rw [Std.ExtTreeSet.isEmpty_eq_false_iff]
      exact Std.ExtTreeSet.ne_empty_of_mem hMem
    refine ⟨(d.indent ++ entry, .blockEntry entry), ?_, rfl⟩
    simp [annotated, annotatedImports, hNonempty, hMem]

/- The plain lines that are written are the blocks, spaced. -/
theorem plainLines_annotated
    (d : Dialect)
    (hUsable : g.Usable)
    (hClean : m.Clean g mark) :
    Source.plainLines (m.annotated d).tail =
      (if m.imports.isEmpty then [] else [[]]) ++
        spaced (m.blocks.map (·.lines)) := by
  have hBlocks :
      Source.plainLines
          ((spaced (m.blocks.map (·.lines))).map fun line =>
            (line, LineGrammar.plainRole line)) =
        spaced (m.blocks.map (·.lines)) := by
    have hKept :
        (spaced (m.blocks.map (·.lines))).map Text.trimEnd =
          spaced (m.blocks.map (·.lines)) := by
      rw [List.map_congr_left (g := id), List.map_id]
      intro line hMem
      exact (isBodyLine_of_mem_spaced hUsable hClean hMem).trimmed
    simpa [Source.plainLines, List.filter_map,
      Function.comp_def] using hKept
  unfold Source.plainLines at hBlocks ⊢
  rw [annotated, List.tail_cons, List.filter_append,
    List.map_append, hBlocks]
  by_cases hEmpty : m.imports.isEmpty = true
  · simp [annotatedImports, hEmpty]
  · have hTrim : Text.trimEnd [] = [] := rfl
    simp [annotatedImports, hEmpty, LineRole.isPlain,
      List.filter_map, Function.comp_def, hTrim]

/- The lines of the text are those that were written. -/
theorem lines_render
    (hDialect : d.Linewise g)
    (hClean : m.Clean g mark) :
    (m.render d).lines = m.outline d := by
  rw [render_eq_unlines d fun block hMem =>
    (hClean.blocks block hMem).1]
  exact Text.lines_unlines fun line hMem =>
    oneLine_of_mem_outline hDialect hClean hMem

/- The text of a merged file is read back. -/
theorem read_render
    (hDialect : d.Linewise g)
    (hClean : m.Clean g mark)
    (hClose : d.blockClose.trim ∉ m.imports) :
    Source.read g mark (m.render d) =
      ⟨some m.moduleName, m.imports,
        List.intercalate [[]] (m.blocks.map (·.lines))⟩ := by
  have hUsable := Dialect.usable_of_accept hDialect.accepted
  have hCollect :
      Source.collect g mark (m.render d).lines =
        Source.contribute mark (some m.moduleName)
          (m.annotated d).tail := by
    rw [lines_render hDialect hClean, Source.collect,
      roles_outline hDialect hClean hClose]
    rfl
  have hRoles :
      ∀ line ∈ (m.annotated d).tail,
        line.2.declares = false :=
    fun line hMem => declares_annotated d m hMem
  have hImports :
      (Source.contribute mark (some m.moduleName)
          (m.annotated d).tail).imports = m.imports := by
    apply Std.ExtTreeSet.ext_mem
    intro entry
    rw [Source.mem_imports_contribute,
      exists_entry_annotated_iff]
    constructor
    · rintro ⟨-, hMem⟩
      exact hMem
    · intro hMem
      exact ⟨(hClean.imports entry hMem).counts, hMem⟩
  have hBlanks :
      ∀ line ∈ (if m.imports.isEmpty then [] else [[]] :
          List Text),
        line.allBlank = true := by
    intro line hMem
    split at hMem
    · cases hMem
    · rw [List.mem_singleton.mp hMem]
      rfl
  have hBody :
      Text.trimBlankEdges
          (Source.plainLines (m.annotated d).tail) =
        List.intercalate [[]] (m.blocks.map (·.lines)) := by
    rw [plainLines_annotated d hUsable hClean]
    apply trimBlankEdges_spaced hBlanks
    intro body hMem
    rcases List.mem_map.mp hMem with ⟨block, hBlock, rfl⟩
    have hBlock := hClean.blocks block hBlock
    exact ⟨hBlock.1, hBlock.2.tight⟩
  rw [Source.read_of_collect hCollect,
    Source.body_contribute hRoles,
    Source.moduleName_contribute hRoles, hImports,
    if_neg (by simp), hBody]

------------------------------------------------------------
-- The Round Trip
------------------------------------------------------------

/- A module is declared once. -/
theorem filter_declares_annotated
    (d : Dialect)
    (m : MergedFile) :
    ((m.annotated d).map (·.2)).filter (·.declares) =
      [.moduleDeclaration m.moduleName] := by
  have hTail :
      ((m.annotated d).tail.map (·.2)).filter (·.declares) =
        [] := by
    rw [List.filter_eq_nil_iff]
    intro role hMem
    rcases List.mem_map.mp hMem with ⟨line, hLine, rfl⟩
    simp [declares_annotated d m hLine]
  have hSplit :
      m.annotated d =
        (m.declaration d, .moduleDeclaration m.moduleName) ::
          (m.annotated d).tail := rfl
  rw [hSplit, List.map_cons, List.filter_cons_of_pos rfl,
    hTail]

theorem count_blockOpen_map
    {α : Type}
    {role : α → LineRole}
    (hRole : ∀ a, role a ≠ .blockOpen)
    (l : List α) :
    (l.map role).count .blockOpen = 0 := by
  rw [List.count_eq_zero]
  intro hMem
  rcases List.mem_map.mp hMem with ⟨a, -, hOpens⟩
  exact hRole a hOpens

/- A block is opened once if there are imports. -/
theorem count_blockOpen_annotated
    (d : Dialect)
    (m : MergedFile) :
    ((m.annotated d).map (·.2)).count .blockOpen =
      if m.imports.isEmpty then 0 else 1 := by
  have hPlain :
      ∀ line, LineGrammar.plainRole line ≠ .blockOpen := by
    intro line
    unfold LineGrammar.plainRole
    split <;> simp
  by_cases hEmpty : m.imports.isEmpty = true
  · simpa [annotated, annotatedImports, hEmpty,
      Function.comp_def] using count_blockOpen_map hPlain _
  · simp only [annotated, annotatedImports, hEmpty,
      Bool.false_eq_true, if_false, List.map_cons,
      List.map_append, List.map_map, List.map_nil,
      Function.comp_def, List.count_cons, List.count_append,
      List.count_nil]
    rw [count_blockOpen_map hPlain,
      count_blockOpen_map (by simp)]
    simp

/- Imports are written in a block, and comments not at all. -/
theorem role_ne_of_mem_annotated
    (d : Dialect)
    (m : MergedFile)
    {line : Text × LineRole}
    (hMem : line ∈ m.annotated d) :
    line.2 ≠ .headerComment ∧
      ∀ entry, line.2 ≠ .singleImport entry := by
  rcases List.mem_cons.mp hMem with rfl | hMem
  · simp
  · rcases role_of_mem_annotated d m hMem with
      hRole | hRole | ⟨entry, -, hRole⟩ | hRole
    · simp [hRole]
    · simp [hRole]
    · simp [hRole]
    · rw [hRole]
      unfold LineGrammar.plainRole
      split <;> simp

/-
  Reading the text of a merged file gives back its module,
  its imports and its bodies with one empty line between
  them.  The text has one declaration, one block of imports
  if there are imports, and neither imports on one line nor
  comments in its header.  Writing what was read gives the
  text again.
-/
theorem roundTrip
    (hDialect : d.Linewise g)
    {configured : Option Text}
    (hConfigured :
      ∀ name, configured = some name → IsModuleName name)
    (inputs : List (Path × Text))
    (hMerged :
      ofLoaded? configured
          (Loaded.readAll g d.commentMark inputs) =
        some m)
    (hClose : d.blockClose.trim ∉ m.imports) :
    Source.read g d.commentMark (m.render d) =
        ⟨some m.moduleName, m.imports,
          List.intercalate [[]] (m.blocks.map (·.lines))⟩ ∧
      ((g.roles .header (m.render d).lines).map (·.2)).filter
          (·.declares) = [.moduleDeclaration m.moduleName] ∧
      ((g.roles .header (m.render d).lines).map (·.2)).count
          .blockOpen = (if m.imports.isEmpty then 0 else 1) ∧
      (∀ line ∈ g.roles .header (m.render d).lines,
        line.2 ≠ .headerComment ∧
          ∀ entry, line.2 ≠ .singleImport entry) ∧
      ∀ path, ∃ again,
        ofLoaded? none
            [⟨path,
              Source.read g d.commentMark (m.render d)⟩] =
          some again ∧
        again.render d = m.render d := by
  have hUsable := Dialect.usable_of_accept hDialect.accepted
  have hClean : m.Clean g d.commentMark :=
    clean_ofLoaded? hConfigured
      (fun item hMem =>
        Loaded.clean_of_mem_readAll hUsable hMem)
      hMerged
  have hRead := read_render hDialect hClean hClose
  have hRoles :
      g.roles .header (m.render d).lines = m.annotated d := by
    rw [lines_render hDialect hClean]
    exact roles_outline hDialect hClean hClose
  rw [hRead, hRoles]
  refine ⟨rfl, filter_declares_annotated d m,
    count_blockOpen_annotated d m,
    fun line hMem => role_ne_of_mem_annotated d m hMem, ?_⟩
  intro path
  rcases ofLoaded?_eq_some_iff.mp hMerged with
    ⟨name, hName, rfl⟩
  let loaded := Loaded.readAll g d.commentMark inputs
  let item : Loaded :=
    ⟨path, some name, allImports loaded,
      List.intercalate [[]] ((allBlocks loaded).map (·.lines))⟩
  refine ⟨named name [item],
    ofLoaded?_eq_some_iff.mpr ⟨name, rfl, rfl⟩, ?_⟩
  have hReplace :
      (named name ([] ++ loaded ++ [])).render d =
        (named name ([] ++ [item] ++ [])).render d :=
    render_replace d name [] loaded [] rfl rfl
  rw [List.nil_append, List.append_nil] at hReplace
  exact hReplace.symm

/- A file with a header and a block, and one without them. -/
def twoFiles : List (Path × Text) :=
  [ ("a.go".toList,
      "// a\npackage p\r\nimport (\n\t\"x\"\n)\nvar a  \n".toList),
    ("b.go".toList,
      "package q\nimport y \"z\"\n\nfunc f() \x7b\x7d".toList) ]

theorem linewise_go :
    Dialect.go.Linewise Dialect.go.grammar := by
  refine ⟨rfl, ?_, ?_, ?_⟩
  · decide
  · exact List.forall_mem_singleton.mpr (by decide)
  · decide

theorem roundTrip_twoFiles :
    ∃ m,
      ofLoaded? none
          (Loaded.readAll Dialect.go.grammar
            Dialect.go.commentMark twoFiles) =
        some m ∧
      m.render .go =
        ("package p\n\nimport (\n\t\"x\"\n\ty \"z\"\n)\n\n" ++
          "var a\n\nfunc f() \x7b\x7d\n").toList ∧
      Source.read Dialect.go.grammar Dialect.go.commentMark
          (m.render .go) =
        ⟨some m.moduleName, m.imports,
          List.intercalate [[]] (m.blocks.map (·.lines))⟩ := by
  let m :=
    named "p".toList
      (Loaded.readAll Dialect.go.grammar
        Dialect.go.commentMark twoFiles)
  have hMerged :
      ofLoaded? none
          (Loaded.readAll Dialect.go.grammar
            Dialect.go.commentMark twoFiles) =
        some m := by
    rw [ofLoaded?_eq_some_iff]
    exact ⟨"p".toList, by decide +kernel, rfl⟩
  have hClose : Dialect.go.blockClose.trim ∉ m.imports := by
    decide +kernel
  refine ⟨m, hMerged, by decide +kernel, ?_⟩
  exact
    (roundTrip linewise_go (by simp) twoFiles hMerged
      hClose).1

end MergedFile

end Collate
