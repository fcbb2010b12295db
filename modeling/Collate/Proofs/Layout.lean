import Collate.Proofs.Merged

/-
  The layout of a merged file.  Its sections begin and end
  with lines that are not blank, and one empty line stands
  between neighbours, so a blank line stands either there or
  inside of a block.

  Key definitions include:
    * `Text.Neat`
    * `Dialect.Unbroken`
    * `MergedFile.Tidy`
    * `MergedFile.IsSection`
    * `MergedFile.BlankAt`
    * `MergedFile.parts`
    * `MergedFile.LaidOut`

  Main declarations:
    * `MergedFile.isSection_of_mem_sections`
    * `MergedFile.neat_of_mem_outline`
    * `MergedFile.tight_intercalate`
    * `MergedFile.blankAt_of_blank`
    * `MergedFile.render_laidOut`
-/

------------------------------------------------------------
-- Neat Lines
------------------------------------------------------------

namespace Collate

namespace Text

/- A line without line feed that does not end in a blank. -/
structure Neat
    (line : Text) : Prop where
  noFeed : '\n' ∉ line
  noBlank : ∀ c, line.getLast? = some c → isBlank c = false

theorem neat_nil :
    Neat [] :=
  ⟨by simp, by simp⟩

theorem Solid.neat
    {t : Text}
    (hSolid : Solid t)
    (hFeed : '\n' ∉ t) :
    Neat t :=
  ⟨hFeed, hSolid.tight.last⟩

/- A neat line is read as it is written. -/
theorem Neat.oneLine
    {line : Text}
    (hNeat : Neat line) :
    OneLine line := by
  refine ⟨hNeat.noFeed, ?_⟩
  intro hLast
  exact absurd (hNeat.noBlank _ hLast) (by decide)

/- What stands before the end of a line makes no difference. -/
theorem Neat.append_left
    {pre t : Text}
    (hPre : '\n' ∉ pre)
    (hNeat : Neat t)
    (hNonempty : t ≠ []) :
    Neat (pre ++ t) := by
  refine ⟨?_, ?_⟩
  · intro hMem
    rcases List.mem_append.mp hMem with hMem | hMem
    · exact hPre hMem
    · exact hNeat.noFeed hMem
  · rw [List.getLast?_append_of_ne_nil _ hNonempty]
    exact hNeat.noBlank

/- Two tokens that are written with a space between them. -/
theorem neat_space
    {a c : Text}
    (hFeedA : '\n' ∉ a)
    (hC : Solid c)
    (hFeedC : '\n' ∉ c) :
    Neat (a ++ ' ' :: c) := by
  have hPre : '\n' ∉ a ++ [' '] := by
    intro hMem
    rcases List.mem_append.mp hMem with hMem | hMem
    · exact hFeedA hMem
    · exact absurd hMem (by decide)
  simpa using (hC.neat hFeedC).append_left hPre hC.nonempty

/- A solid text is not blank, whatever stands before it. -/
theorem Solid.not_allBlank
    {t : Text}
    (hSolid : Solid t)
    (pre : Text) :
    allBlank (pre ++ t) = false := by
  rw [← Bool.not_eq_true, allBlank_iff]
  intro hBlank
  cases t with
  | nil => exact hSolid.nonempty rfl
  | cons c t =>
      have hFirst := hSolid.tight.first c rfl
      rw [hBlank c (by simp)] at hFirst
      cases hFirst

end Text

------------------------------------------------------------
-- Sections
------------------------------------------------------------

/-
  An accepted dialect whose tokens and whose indent stand on
  one line each.
-/
structure Dialect.Unbroken
    (d : Dialect)
    (g : LineGrammar) : Prop where
  accepted : d.accept = .ok g
  tokens : ∀ token ∈ Token.required, '\n' ∉ (d.get token).trim
  indent : '\n' ∉ d.indent

namespace MergedFile

variable {d : Dialect}
variable {g : LineGrammar}
variable {m : MergedFile}

/- What the layout of a merged file rests on. -/
structure Tidy
    (g : LineGrammar)
    (m : MergedFile) : Prop where
  name : m.moduleName.Solid
  nameFeed : '\n' ∉ m.moduleName
  imports : ∀ entry ∈ m.imports, entry.Solid ∧ '\n' ∉ entry
  blocks :
    ∀ block ∈ m.blocks,
      block.lines ≠ [] ∧ Source.IsBody g block.lines

theorem Clean.tidy
    {mark : Text}
    (hClean : m.Clean g mark) :
    m.Tidy g where
  name := hClean.moduleName.solid
  nameFeed := hClean.moduleName.feed_not_mem
  imports := fun entry hMem =>
    ⟨(hClean.imports entry hMem).solid,
      (hClean.imports entry hMem).noFeed⟩
  blocks := hClean.blocks

/- Neat lines of which the first and the last are not blank. -/
structure IsSection
    (lines : List Text) : Prop where
  nonempty : lines ≠ []
  neat : ∀ line ∈ lines, line.Neat
  tight : Edges.Tight Text.allBlank lines

/- Neat lines of which none is blank. -/
theorem isSection_of_notBlank
    {lines : List Text}
    (hNonempty : lines ≠ [])
    (hLines :
      ∀ line ∈ lines, line.Neat ∧ line.allBlank = false) :
    IsSection lines := by
  refine ⟨hNonempty, fun line hMem => (hLines line hMem).1,
    ?_, ?_⟩
  · intro line hFirst
    exact (hLines line (List.mem_of_head? hFirst)).2
  · intro line hLast
    exact (hLines line (List.mem_of_getLast? hLast)).2

/- The line of the module is not blank. -/
theorem declaration_notBlank
    (hDialect : d.Unbroken g)
    (hTidy : m.Tidy g) :
    (m.declaration d).Neat ∧
      (m.declaration d).allBlank = false := by
  have hNotBlank :=
    hTidy.name.not_allBlank (d.moduleKeyword.trim ++ [' '])
  refine ⟨?_, by simpa [declaration] using hNotBlank⟩
  exact Text.neat_space
    (hDialect.tokens .moduleKeyword (by decide)) hTidy.name
    hTidy.nameFeed

/- Nor is any line of the imports. -/
theorem importLines_notBlank
    (hDialect : d.Unbroken g)
    (hTidy : m.Tidy g)
    {line : Text}
    (hMem : line ∈ m.importLines d) :
    line.Neat ∧ line.allBlank = false := by
  have hUsable := Dialect.usable_of_accept hDialect.accepted
  rcases Dialect.accept_eq_ok_iff.mp hDialect.accepted with
    ⟨-, rfl⟩
  simp only [importLines, List.mem_cons, List.mem_append,
    List.mem_map, List.not_mem_nil, or_false] at hMem
  rcases hMem with rfl | ⟨entry, hEntry, rfl⟩ | rfl
  · have hOpen : d.blockOpen.trim.Solid := hUsable.blockOpen
    have hNotBlank :=
      hOpen.not_allBlank (d.importKeyword.trim ++ [' '])
    refine ⟨?_, by simpa using hNotBlank⟩
    exact Text.neat_space
      (hDialect.tokens .importKeyword (by decide)) hOpen
      (hDialect.tokens .blockOpen (by decide))
  · rcases hTidy.imports entry
        (Std.ExtTreeSet.mem_toList.mp hEntry) with
      ⟨hSolid, hFeed⟩
    exact
      ⟨(hSolid.neat hFeed).append_left hDialect.indent
          hSolid.nonempty,
        hSolid.not_allBlank d.indent⟩
  · have hClose : d.blockClose.trim.Solid :=
      hUsable.blockClose
    exact
      ⟨hClose.neat (hDialect.tokens .blockClose (by decide)),
        hClose.not_allBlank []⟩

theorem isSection_block
    (hTidy : m.Tidy g)
    {block : Block}
    (hMem : block ∈ m.blocks) :
    IsSection block.lines := by
  rcases hTidy.blocks block hMem with ⟨hNonempty, hBody⟩
  refine ⟨hNonempty, ?_, hBody.tight⟩
  intro line hLine
  have hBodyLine := hBody.lines line hLine
  refine ⟨hBodyLine.noFeed, ?_⟩
  intro c hLast
  rw [← hBodyLine.trimmed] at hLast
  exact Text.last_trimEnd hLast

/- A section is a block, or none of its lines is blank. -/
theorem block_or_notBlank
    (hDialect : d.Unbroken g)
    (hTidy : m.Tidy g)
    {lines : List Text}
    (hMem : lines ∈ m.sections d) :
    (∃ block ∈ m.blocks, block.lines = lines) ∨
      (lines ≠ [] ∧
        ∀ line ∈ lines,
          line.Neat ∧ line.allBlank = false) := by
  simp only [sections, List.mem_cons, List.mem_append,
    List.mem_map] at hMem
  rcases hMem with rfl | hImports | hBlock
  · refine .inr ⟨by simp, ?_⟩
    intro line hLine
    rw [List.mem_singleton.mp hLine]
    exact declaration_notBlank hDialect hTidy
  · split at hImports
    · cases hImports
    · rw [List.mem_singleton.mp hImports]
      exact .inr
        ⟨by simp [importLines], fun line hLine =>
          importLines_notBlank hDialect hTidy hLine⟩
  · exact .inl hBlock

theorem isSection_of_mem_sections
    (hDialect : d.Unbroken g)
    (hTidy : m.Tidy g)
    {lines : List Text}
    (hMem : lines ∈ m.sections d) :
    IsSection lines := by
  rcases block_or_notBlank hDialect hTidy hMem with
    ⟨block, hBlock, rfl⟩ | ⟨hNonempty, hLines⟩
  · exact isSection_block hTidy hBlock
  · exact isSection_of_notBlank hNonempty hLines

------------------------------------------------------------
-- Joined Sections
------------------------------------------------------------

/- One empty line stands behind a section before others. -/
theorem intercalate_cons_of_ne_nil
    (lines : List Text)
    {others : List (List Text)}
    (hOthers : others ≠ []) :
    List.intercalate [[]] (lines :: others) =
      lines ++ [] :: List.intercalate [[]] others := by
  cases others with
  | nil => exact absurd rfl hOthers
  | cons next rest => simp [List.intercalate_cons_cons]

/- A line of joined sections is empty or from one of them. -/
theorem mem_intercalate
    {sections : List (List Text)}
    {line : Text}
    (hMem : line ∈ List.intercalate [[]] sections) :
    line = [] ∨ ∃ lines ∈ sections, line ∈ lines := by
  induction sections with
  | nil => cases hMem
  | cons lines others ih =>
      by_cases hOthers : others = []
      · subst hOthers
        exact .inr ⟨lines, by simp, by simpa using hMem⟩
      · rw [intercalate_cons_of_ne_nil lines hOthers,
          List.mem_append, List.mem_cons] at hMem
        rcases hMem with hMem | hEmpty | hMem
        · exact .inr ⟨lines, by simp, hMem⟩
        · exact .inl hEmpty
        · rcases ih hMem with hEmpty | ⟨found, hFound, hLine⟩
          · exact .inl hEmpty
          · exact .inr
              ⟨found, List.mem_cons_of_mem _ hFound, hLine⟩

/- Every line of a merged file is neat. -/
theorem neat_of_mem_outline
    (hDialect : d.Unbroken g)
    (hTidy : m.Tidy g)
    {line : Text}
    (hMem : line ∈ m.outline d) :
    line.Neat := by
  rcases mem_intercalate hMem with
    rfl | ⟨lines, hLines, hLine⟩
  · exact Text.neat_nil
  · exact
      (isSection_of_mem_sections hDialect hTidy hLines).neat
        line hLine

/- Joined sections keep their edges. -/
theorem tight_intercalate
    {bodies : List (List Text)}
    (hBodies :
      ∀ body ∈ bodies,
        body ≠ [] ∧ Edges.Tight Text.allBlank body) :
    Edges.Tight Text.allBlank
      (List.intercalate [[]] bodies) := by
  induction bodies with
  | nil => exact Edges.tight_nil
  | cons body rest ih =>
      have hFirst := hBodies body (by simp)
      cases rest with
      | nil => simpa using hFirst.2
      | cons next rest =>
          have hNext := hBodies next (by simp)
          have hRest := ih fun other hMem =>
            hBodies other (List.mem_cons_of_mem _ hMem)
          have hNonempty :
              List.intercalate [[]] (next :: rest) ≠ [] := by
            rw [intercalate_cons]
            simp [hNext.1]
          rw [List.intercalate_cons_cons]
          exact hFirst.2.bridge hFirst.1 _ hRest hNonempty

------------------------------------------------------------
-- Blank Lines
------------------------------------------------------------

/-
  Where a blank line stands in joined sections, with the lines
  before and after it: between two sections, or inside of one
  that is among the bodies and neither first nor last there.
-/
inductive BlankAt
    (bodies sections : List (List Text)) :
    List Text → Text → List Text → Prop where
  | between
      {pre post : List (List Text)}
      (hSections : sections = pre ++ post)
      (hPre : pre ≠ [])
      (hPost : post ≠ []) :
      BlankAt bodies sections (List.intercalate [[]] pre) []
        (List.intercalate [[]] post)
  | inside
      {pre post : List (List Text)}
      {front back : List Text}
      {line : Text}
      (hSections :
        sections = pre ++ (front ++ line :: back) :: post)
      (hBody : front ++ line :: back ∈ bodies)
      (hFront : front ≠ [])
      (hBack : back ≠ []) :
      BlankAt bodies sections
        (List.intercalate [[]] (pre ++ [front])) line
        (List.intercalate [[]] (back :: post))

section BlankAt

variable {bodies sections : List (List Text)}
variable {before after : List Text}
variable {line : Text}

/- One more section in front makes no difference. -/
theorem BlankAt.cons
    (hBlank : BlankAt bodies sections before line after)
    (lines : List Text) :
    BlankAt bodies (lines :: sections) (lines ++ [] :: before)
      line after := by
  cases hBlank with
  | between hSections hPre hPost =>
      rw [← intercalate_cons_of_ne_nil lines hPre]
      exact .between (by simp [hSections]) (by simp) hPost
  | @inside pre post front back _ hSections hBody hFront
      hBack =>
      have hPre : pre ++ [front] ≠ [] := by simp
      rw [← intercalate_cons_of_ne_nil lines hPre,
        ← List.cons_append]
      exact .inside (by simp [hSections]) hBody hFront hBack

/- The empty line behind the first section. -/
theorem blankAt_behind
    (lines : List Text)
    {others : List (List Text)}
    (hOthers : others ≠ []) :
    BlankAt bodies (lines :: others) lines []
      (List.intercalate [[]] others) := by
  have hPlace :
      BlankAt bodies ([lines] ++ others)
        (List.intercalate [[]] [lines]) []
        (List.intercalate [[]] others) :=
    .between rfl (by simp) hOthers
  simpa using hPlace

/- A blank line of the first section stands inside of it. -/
theorem blankAt_first
    {front back : List Text}
    (hSection : IsSection (front ++ line :: back))
    (hKind :
      front ++ line :: back ∈ bodies ∨
        ∀ other ∈ front ++ line :: back,
          other.allBlank = false)
    (hBlank : line.allBlank = true)
    (others : List (List Text)) :
    BlankAt bodies ((front ++ line :: back) :: others) front
      line (List.intercalate [[]] (back :: others)) := by
  have hNot : line.allBlank ≠ false := by simp [hBlank]
  have hBody : front ++ line :: back ∈ bodies := by
    rcases hKind with hBody | hNone
    · exact hBody
    · exact absurd (hNone line (by simp)) hNot
  have hFront : front ≠ [] := by
    rintro rfl
    exact hNot (hSection.tight.first line rfl)
  have hBack : back ≠ [] := by
    rintro rfl
    exact hNot (hSection.tight.last line (by simp))
  have hPlace :
      BlankAt bodies ([] ++ (front ++ line :: back) :: others)
        (List.intercalate [[]] ([] ++ [front])) line
        (List.intercalate [[]] (back :: others)) :=
    .inside rfl hBody hFront hBack
  simpa using hPlace

/-
  A line of a section, an empty line and others is in the
  section, is that empty line, or is among the others.
-/
theorem append_empty_cases
    {lines rest : List Text}
    (hSplit : lines ++ [] :: rest = before ++ line :: after) :
    (∃ back,
        lines = before ++ line :: back ∧
          after = back ++ [] :: rest) ∨
      (before = lines ∧ line = [] ∧ after = rest) ∨
      ∃ between,
        before = lines ++ [] :: between ∧
          rest = between ++ line :: after := by
  induction lines generalizing before with
  | nil =>
      cases before with
      | nil =>
          rcases List.cons.inj hSplit with ⟨rfl, rfl⟩
          exact .inr (.inl ⟨rfl, rfl, rfl⟩)
      | cons empty between =>
          rcases List.cons.inj hSplit with ⟨rfl, hRest⟩
          exact .inr (.inr ⟨between, rfl, hRest⟩)
  | cons first lines ih =>
      cases before with
      | nil =>
          rcases List.cons.inj hSplit with ⟨rfl, rfl⟩
          exact .inl ⟨lines, rfl, rfl⟩
      | cons other before =>
          rcases List.cons.inj hSplit with ⟨rfl, hRest⟩
          rcases ih hRest with
            ⟨back, rfl, rfl⟩ | ⟨rfl, rfl, rfl⟩ |
            ⟨between, rfl, hBehind⟩
          · exact .inl ⟨back, rfl, rfl⟩
          · exact .inr (.inl ⟨rfl, rfl, rfl⟩)
          · exact .inr (.inr ⟨between, rfl, hBehind⟩)

/-
  Every blank line of joined sections stands between two of
  them or inside of a body.
-/
theorem blankAt_of_blank
    (hSections :
      ∀ lines ∈ sections,
        IsSection lines ∧
          (lines ∈ bodies ∨
            ∀ other ∈ lines, other.allBlank = false))
    (hSplit :
      List.intercalate [[]] sections = before ++ line :: after)
    (hBlank : line.allBlank = true) :
    BlankAt bodies sections before line after := by
  induction sections generalizing before with
  | nil =>
      have hLength := congrArg List.length hSplit
      simp at hLength
  | cons lines others ih =>
      rcases hSections lines (by simp) with
        ⟨hSection, hKind⟩
      by_cases hOthers : others = []
      · subst hOthers
        have hLines : lines = before ++ line :: after := by
          simpa using hSplit
        subst hLines
        simpa using blankAt_first hSection hKind hBlank []
      · rw [intercalate_cons_of_ne_nil lines hOthers] at hSplit
        rcases append_empty_cases hSplit with
          ⟨back, rfl, rfl⟩ | ⟨rfl, rfl, rfl⟩ |
          ⟨between, rfl, hRest⟩
        · rw [← intercalate_cons_of_ne_nil back hOthers]
          exact blankAt_first hSection hKind hBlank others
        · exact blankAt_behind _ hOthers
        · have hPlace :=
            ih
              (fun other hMem =>
                hSections other (List.mem_cons_of_mem _ hMem))
              hRest
          exact hPlace.cons lines

end BlankAt

------------------------------------------------------------
-- Layout
------------------------------------------------------------

/-
  What stands in a merged file, part by part: the line of the
  module, the import entries with an indent between the lines
  that open and close their block if there are any, and the
  lines of every block.
-/
def parts
    (d : Dialect)
    (m : MergedFile) : List (List Text) :=
  [d.moduleKeyword.trim ++ ' ' :: m.moduleName] ::
    ((if m.imports.toList = [] then []
        else
          [(d.importKeyword.trim ++ ' ' :: d.blockOpen.trim) ::
            (m.imports.toList.map (d.indent ++ ·) ++
              [d.blockClose.trim])]) ++
      m.blocks.map (·.lines))

/- The parts are the sections that are written. -/
theorem sections_eq_parts
    (d : Dialect)
    (m : MergedFile) :
    m.sections d = m.parts d := by
  simp only [sections, parts, declaration, importLines,
    isEmpty_imports_iff]

/- How the text of a merged file is laid out. -/
structure LaidOut
    (d : Dialect)
    (m : MergedFile)
    (text : Text) : Prop where
  -- The line of the module comes first.
  starts :
    d.moduleKeyword.trim ++ ' ' :: (m.moduleName ++ ['\n']) <+:
      text
  -- One line feed ends the text, behind what is not blank.
  ends :
    ∃ front c,
      text = front ++ [c, '\n'] ∧ Text.isBlank c = false
  -- Line by line these are the parts, with one empty line
  -- between neighbours, and nothing follows the last feed.
  lines :
    Text.splitOn '\n' text =
      List.intercalate [[]] (m.parts d) ++ [[]]
  trimmed :
    ∀ line ∈ Text.splitOn '\n' text,
      ∀ c, line.getLast? = some c → Text.isBlank c = false
  edges :
    ∀ lines ∈ m.parts d,
      lines ≠ [] ∧ Edges.Tight Text.allBlank lines
  -- Blank lines elsewhere are inside of a block.
  blanks :
    ∀ before line after,
      List.intercalate [[]] (m.parts d) =
          before ++ line :: after →
        line.allBlank = true →
          BlankAt (m.blocks.map (·.lines)) (m.parts d)
            before line after

theorem tight_of_mem_sections
    (hDialect : d.Unbroken g)
    (hTidy : m.Tidy g)
    {lines : List Text}
    (hMem : lines ∈ m.sections d) :
    lines ≠ [] ∧ Edges.Tight Text.allBlank lines :=
  have hSection := isSection_of_mem_sections hDialect hTidy hMem
  ⟨hSection.nonempty, hSection.tight⟩

/- The lines of a merged file end in one that is not blank. -/
theorem exists_last_line
    (hDialect : d.Unbroken g)
    (hTidy : m.Tidy g) :
    ∃ before line c,
      m.outline d = before ++ [line ++ [c]] ∧
        Text.isBlank c = false := by
  have hTight : Edges.Tight Text.allBlank (m.outline d) :=
    tight_intercalate fun lines hMem =>
      tight_of_mem_sections hDialect hTidy hMem
  have hNonempty : m.outline d ≠ [] := by
    rw [outline_eq]
    simp
  rcases List.eq_nil_or_concat (m.outline d) with
    hNil | ⟨before, last, hLast⟩
  · exact absurd hNil hNonempty
  · have hNotBlank : last.allBlank = false :=
      hTight.last last (by simp [hLast])
    rcases List.eq_nil_or_concat last with
      rfl | ⟨line, c, rfl⟩
    · cases hNotBlank
    · have hNeat : Text.Neat (line ++ [c]) :=
        neat_of_mem_outline hDialect hTidy (by simp [hLast])
      exact
        ⟨before, line, c, by simpa using hLast,
          hNeat.noBlank c (by simp)⟩

/- A tidy merged file is laid out as it should be. -/
theorem laidOut_of_tidy
    (hDialect : d.Unbroken g)
    (hTidy : m.Tidy g) :
    LaidOut d m (m.render d) := by
  have hText : m.render d = Text.unlines (m.outline d) :=
    render_eq_unlines d fun block hMem =>
      (hTidy.blocks block hMem).1
  have hLines :
      Text.splitOn '\n' (m.render d) = m.outline d ++ [[]] := by
    rw [hText]
    apply Text.splitOn_unlines
    intro line hMem
    exact (neat_of_mem_outline hDialect hTidy hMem).noFeed
  have hParts := sections_eq_parts d m
  refine ⟨?_, ?_, hParts ▸ hLines, ?_, ?_, ?_⟩
  · rw [hText, outline_eq, Text.unlines_cons]
    simp [declaration]
  · rcases exists_last_line hDialect hTidy with
      ⟨before, line, c, hOutline, hNotBlank⟩
    refine ⟨Text.unlines before ++ line, c, ?_, hNotBlank⟩
    rw [hText, hOutline, Text.unlines_append]
    simp
  · intro line hMem
    rw [hLines, List.mem_append, List.mem_singleton] at hMem
    rcases hMem with hMem | rfl
    · exact (neat_of_mem_outline hDialect hTidy hMem).noBlank
    · exact Text.neat_nil.noBlank
  · intro lines hMem
    rw [← hParts] at hMem
    exact tight_of_mem_sections hDialect hTidy hMem
  · intro before line after hSplit hBlank
    refine blankAt_of_blank ?_ hSplit hBlank
    intro lines hMem
    rw [← hParts] at hMem
    refine
      ⟨isSection_of_mem_sections hDialect hTidy hMem, ?_⟩
    rcases block_or_notBlank hDialect hTidy hMem with
      ⟨block, hBlock, rfl⟩ | ⟨-, hNone⟩
    · exact .inl (List.mem_map_of_mem hBlock)
    · exact .inr fun other hOther => (hNone other hOther).2

/- Sources that were read make a tidy merged file. -/
theorem tidy_ofLoaded?
    (hUsable : g.Usable)
    {configured : Option Text}
    {loaded : List Loaded}
    (hLoaded :
      ∀ item ∈ loaded, ∃ mark text,
        item.source = Source.read g mark text)
    (hMerged : ofLoaded? configured loaded = some m)
    (hNonempty : m.moduleName ≠ [])
    (hName : ∀ c ∈ m.moduleName, Text.isBlank c = false) :
    m.Tidy g := by
  have hClean :
      ∀ item ∈ loaded, ∃ mark, item.source.Clean g mark := by
    intro item hMem
    rcases hLoaded item hMem with ⟨mark, text, hRead⟩
    exact ⟨mark, hRead ▸ Source.clean_read hUsable mark text⟩
  rcases ofLoaded?_eq_some_iff.mp hMerged with ⟨name, -, rfl⟩
  refine
    ⟨⟨hNonempty, Text.tight_of_noBlank hName⟩, ?_, ?_, ?_⟩
  · intro hFeed
    exact absurd (hName _ hFeed) (by decide)
  · intro entry hMem
    rcases mem_allImports.mp hMem with ⟨item, hItem, hEntry⟩
    rcases hClean item hItem with ⟨mark, hSource⟩
    have hIn := hSource.imports entry hEntry
    exact ⟨hIn.solid, hIn.noFeed⟩
  · intro block hMem
    rcases mem_allBlocks.mp hMem with
      ⟨item, hItem, hLines, rfl⟩
    rcases hClean item hItem with ⟨mark, hSource⟩
    exact ⟨hLines, hSource.body⟩

/-
  The text of a merged file begins with the line of the module
  and ends in one line feed behind what is not blank.  No line
  ends in white space.  One empty line stands between
  neighbouring sections, and any other blank line is inside of
  a block.
-/
theorem render_laidOut
    (hDialect : d.Unbroken g)
    {configured : Option Text}
    {loaded : List Loaded}
    (hLoaded :
      ∀ item ∈ loaded, ∃ mark text,
        item.source = Source.read g mark text)
    (hMerged : ofLoaded? configured loaded = some m)
    (hNonempty : m.moduleName ≠ [])
    (hName : ∀ c ∈ m.moduleName, Text.isBlank c = false) :
    LaidOut d m (m.render d) :=
  laidOut_of_tidy hDialect
    (tidy_ofLoaded?
      (Dialect.usable_of_accept hDialect.accepted) hLoaded
      hMerged hNonempty hName)

/- Tokens with an indent that is not blank. -/
def arrowed : Dialect :=
  { Dialect.go with indent := "->".toList }

theorem unbroken_arrowed :
    arrowed.Unbroken arrowed.grammar :=
  ⟨rfl, by decide, by decide⟩

/- An import without code, and code with blank lines. -/
def gappedFiles : List (Path × Text) :=
  [ ("a.go".toList, "package q\nimport \"x\"\n".toList),
    ("b.go".toList,
      "package q\n\n\nvar a  \n \t\nvar b\n\n".toList) ]

theorem render_laidOut_gappedFiles :
    ∃ m,
      ofLoaded? (some "a;b".toList)
          (Loaded.readAll arrowed.grammar [] gappedFiles) =
        some m ∧
      m.render arrowed =
        ("package a;b\n\nimport (\n->\"x\"\n)\n\n" ++
          "var a\n\nvar b\n").toList ∧
      LaidOut arrowed m (m.render arrowed) := by
  let loaded := Loaded.readAll arrowed.grammar [] gappedFiles
  let m := named "a;b".toList loaded
  have hLoaded :
      ∀ item ∈ loaded, ∃ mark text,
        item.source = Source.read arrowed.grammar mark text := by
    intro item hMem
    rcases List.mem_map.mp hMem with ⟨input, -, rfl⟩
    exact ⟨[], input.2, rfl⟩
  have hMerged :
      ofLoaded? (some "a;b".toList) loaded = some m :=
    ofLoaded?_eq_some_iff.mpr ⟨_, rfl, rfl⟩
  have hName : ∀ c ∈ m.moduleName, Text.isBlank c = false := by
    intro c hMem
    have hNone : m.moduleName.any Text.isBlank = false := by
      decide
    simpa using List.any_eq_false.mp hNone c hMem
  refine ⟨m, hMerged, by decide +kernel, ?_⟩
  exact render_laidOut unbroken_arrowed hLoaded hMerged
    (by decide) hName

end MergedFile

end Collate
