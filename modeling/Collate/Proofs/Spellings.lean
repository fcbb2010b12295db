import Collate.Proofs.Forms
import Collate.Proofs.Reading

/-
  Two ways to write imports.  A block of imports whose entries
  are those of imports on one line can be replaced by such
  imports, in any order, wherever it stands in a file.

  Key definitions include:
    * `IsCanonical`
    * `LineGrammar.importLine`
    * `LineGrammar.Encloses`

  Main declarations:
    * `isCanonical_iff`
    * `LineGrammar.roles_importLines`
    * `Source.contribute_replace`
    * `Source.contribute_eq_of_entries`
    * `Source.read_respelled`
-/

------------------------------------------------------------
-- Canonical Entries
------------------------------------------------------------

namespace Collate

/-
  Entries as imports on one line have them: a path in quotes,
  with an alias and one space before it or without.
-/
inductive IsCanonical : Text → Prop where
  | plain
      {path : Text}
      (hNonempty : path ≠ [])
      (hQuote : '"' ∉ path) :
      IsCanonical (plainEntry path)
  | named
      {name path : Text}
      (hName : IsAlias name)
      (hNonempty : path ≠ [])
      (hQuote : '"' ∉ path) :
      IsCanonical (aliasEntry name path)

namespace IsCanonical

variable {entry : Text}

theorem solid
    (hCanonical : IsCanonical entry) :
    entry.Solid := by
  cases hCanonical with
  | plain => exact plainEntry_solid _
  | named hName => exact aliasEntry_solid hName _

/- A canonical entry begins with a quote or with an alias. -/
theorem first
    (hCanonical : IsCanonical entry)
    {c : Char}
    (hFirst : entry.head? = some c) :
    c = '"' ∨ beginsAlias c = true := by
  cases hCanonical with
  | plain =>
      cases hFirst
      exact .inl rfl
  | named hName =>
      rw [aliasEntry,
        List.head?_append_of_ne_nil _ hName.nonempty] at hFirst
      exact .inr (hName.begins c hFirst)

end IsCanonical

namespace LineGrammar

variable {g : LineGrammar}

/- An entry imported on a line of its own. -/
def importLine
    (g : LineGrammar)
    (entry : Text) : Text :=
  g.importKeyword ++ ' ' :: entry

theorem trim_importLine
    (hUsable : g.Usable)
    {entry : Text}
    (hCanonical : IsCanonical entry) :
    (g.importLine entry).trim = g.importLine entry :=
  (hUsable.importKeyword.space hCanonical.solid).trim_eq

end LineGrammar

/-
  An entry is canonical if it is read back from a line of its
  own.  This does not depend on the import keyword.
-/
theorem isCanonical_iff
    (g : LineGrammar)
    {entry : Text} :
    IsCanonical entry ↔
      g.singleImport? (g.importLine entry) = some entry := by
  rw [LineGrammar.singleImport?_eq_some_iff]
  constructor
  · intro hCanonical
    cases hCanonical with
    | @plain path hNonempty hQuote =>
        refine
          ⟨⟨[' '], none, path, [], isGap_space, hNonempty,
            hQuote, ?_⟩, rfl⟩
        simp [LineGrammar.importLine, plainEntry,
          LineGrammar.Alias.text]
    | @named name path hName hNonempty hQuote =>
        refine
          ⟨⟨[' '], some ⟨name, [' '], hName, isGap_space⟩,
            path, [], isGap_space, hNonempty, hQuote, ?_⟩, rfl⟩
        simp [LineGrammar.importLine, aliasEntry, plainEntry,
          LineGrammar.Alias.text]
  · rintro ⟨parts, hEntry⟩
    rw [← hEntry]
    cases hNamed : parts.named with
    | none =>
        rw [LineGrammar.SingleImport.entry, hNamed]
        exact .plain parts.nonempty parts.noQuote
    | some a =>
        rw [LineGrammar.SingleImport.entry, hNamed]
        exact .named a.isAlias parts.nonempty parts.noQuote

instance : DecidablePred IsCanonical :=
  fun _ =>
    decidable_of_iff _ (isCanonical_iff Dialect.go.grammar).symm

------------------------------------------------------------
-- Imports and Blocks in the Body
------------------------------------------------------------

namespace LineGrammar

variable {g : LineGrammar}

/-
  An import on one line opens no block, unless the opening
  token looks like the start of an entry.
-/
theorem opensBlock_importLine
    (hUsable : g.Usable)
    (hApart :
      ∀ c, g.blockOpen.head? = some c →
        c ≠ '"' ∧ beginsAlias c = false)
    {entry : Text}
    (hCanonical : IsCanonical entry) :
    g.opensBlock (g.importLine entry) = false := by
  rw [Bool.eq_false_iff]
  intro hOpens
  rcases exists_opening hOpens with ⟨parts⟩
  have hWhole :
      g.importKeyword ++ ([' '] ++ entry) = _ := parts.whole
  rw [List.append_cancel_left_eq] at hWhole
  rcases Edges.longest_unique isGap_space.blank
      (by simpa using hCanonical.solid.first_append [])
      parts.gapBlank (hUsable.blockOpen.first_append _)
      hWhole with
    ⟨-, hEntry⟩
  cases hToken : g.blockOpen with
  | nil => exact hUsable.blockOpen.nonempty hToken
  | cons c token =>
      rcases hApart c (by rw [hToken]; rfl) with
        ⟨hQuote, hAlias⟩
      have hFirst : entry.head? = some c := by
        rw [hEntry, hToken]
        rfl
      rcases hCanonical.first hFirst with hSame | hBegins
      · exact hQuote hSame
      · rw [hAlias] at hBegins
        cases hBegins

/- The roles of imports on lines of their own. -/
theorem roles_importLines
    (hUsable : g.Usable)
    (hApart :
      ∀ c, g.blockOpen.head? = some c →
        c ≠ '"' ∧ beginsAlias c = false)
    {imports : List Text}
    (hImports : ∀ entry ∈ imports, IsCanonical entry)
    (rest : List Text) :
    g.roles .body (imports.map g.importLine ++ rest) =
      (imports.map fun entry =>
          (g.importLine entry, LineRole.singleImport entry)) ++
        g.roles .body rest := by
  induction imports with
  | nil => rfl
  | cons entry imports ih =>
      rw [List.forall_mem_cons] at hImports
      have hTrim := trim_importLine hUsable hImports.1
      have hOpens :
          g.opensBlock (g.importLine entry).trim = false := by
        rw [hTrim]
        exact opensBlock_importLine hUsable hApart hImports.1
      have hEntry :
          g.singleImport? (g.importLine entry).trim =
            some entry := by
        rw [hTrim]
        exact (isCanonical_iff g).mp hImports.1
      simp only [List.map_cons, List.cons_append, roles,
        classify_imports hUsable hOpens hEntry, ih hImports.2]

/- A block of imports: its opening, its entries, its closing. -/
structure Encloses
    (g : LineGrammar)
    (opening : Text)
    (entries : List Text)
    (closing : Text) : Prop where
  opens : g.opensBlock opening.trim = true
  inside : ∀ line ∈ entries, line.trim ≠ g.blockClose
  closes : closing.trim = g.blockClose

end LineGrammar

------------------------------------------------------------
-- Replacing a Block
------------------------------------------------------------

namespace Source

variable {g : LineGrammar}
variable {mark : Text}

/- Lines can be replaced by lines that contribute the same. -/
theorem contribute_replace
    {lines others : List (Text × LineRole)}
    (hSame :
      ∀ name,
        contribute mark name lines =
          contribute mark name others)
    (name : Option Text)
    (before after : List (Text × LineRole)) :
    contribute mark name (before ++ (lines ++ after)) =
      contribute mark name (before ++ (others ++ after)) := by
  simp only [contribute_append, hSame]

/- Lines that only import contribute the entries that count. -/
theorem contribute_eq_of_entries
    {lines others : List (Text × LineRole)}
    (hLines :
      ∀ line ∈ lines ++ others,
        line.2.declares = false ∧ line.2.isPlain = false)
    (hSame :
      ∀ entry,
        counts mark entry = true →
          ((∃ line ∈ lines, line.2.imported? = some entry) ↔
            ∃ line ∈ others, line.2.imported? = some entry))
    (name : Option Text) :
    contribute mark name lines =
      contribute mark name others := by
  rw [List.forall_mem_append] at hLines
  have hParts :
      ∀ annotated : List (Text × LineRole),
        (∀ line ∈ annotated,
          line.2.declares = false ∧ line.2.isPlain = false) →
            (contribute mark name annotated).moduleName =
                name ∧
              (contribute mark name annotated).body = [] := by
    intro annotated hRoles
    have hDeclares :
        ∀ line ∈ annotated, line.2.declares = false :=
      fun line hMem => (hRoles line hMem).1
    have hNone : plainLines annotated = [] := by
      simp only [plainLines, List.map_eq_nil_iff,
        List.filter_eq_nil_iff]
      intro line hMem
      simp [(hRoles line hMem).2]
    refine ⟨moduleName_contribute hDeclares, ?_⟩
    rw [body_contribute hDeclares, hNone, ite_self]
  rcases hParts lines hLines.1 with ⟨hName, hBody⟩
  rcases hParts others hLines.2 with ⟨hName', hBody'⟩
  apply ext_parts
  · rw [hName, hName']
  · intro entry
    rw [mem_imports_contribute, mem_imports_contribute]
    exact and_congr_right (hSame entry)
  · rw [hBody, hBody']

/-
  A block contributes what imports of its canonical entries
  do, if its other entries do not count.
-/
theorem contribute_block
    {opening closing : Text}
    {entries imports : List Text}
    (hEntries :
      ∀ line ∈ entries,
        line.trim = [] ∨ (mark ≠ [] ∧ mark <+: line.trim) ∨
          IsCanonical line.trim)
    (hImports :
      ∀ entry,
        entry ∈ imports ↔
          IsCanonical entry ∧
            ∃ line ∈ entries, line.trim = entry)
    (name : Option Text) :
    contribute mark name
        (imports.map fun entry =>
          (g.importLine entry, .singleImport entry)) =
      contribute mark name
        (g.pieceRoles
          (.block opening entries (some closing))) := by
  apply contribute_eq_of_entries
  · simp only [LineGrammar.pieceRoles, List.forall_mem_append,
      List.forall_mem_cons, List.forall_mem_map]
    simp [LineRole.declares, LineRole.isPlain]
  · intro entry hCounts
    rw [counts_iff] at hCounts
    have hSingles :
        (∃ line ∈
              imports.map fun entry =>
                (g.importLine entry,
                  LineRole.singleImport entry),
            line.2.imported? = some entry) ↔
          entry ∈ imports := by
      simp [LineRole.imported?]
    rw [hSingles, LineGrammar.exists_entry_pieceRoles_iff,
      LineGrammar.pieceEntries, List.mem_map, hImports]
    constructor
    · intro hMem
      exact hMem.2
    · rintro ⟨line, hMem, rfl⟩
      rcases hEntries line hMem with
        hBlank | ⟨hMark, hComment⟩ | hCanonical
      · exact absurd hBlank hCounts.1
      · exact absurd hComment (hCounts.2 hMark)
      · exact ⟨hCanonical, line, hMem, rfl⟩

/-
  A file is read alike if imports on one line stand in it in
  place of a block.  They import the canonical entries of the
  block, in any order, and its other entries are blank or
  comments.  There is always a file with these lines.
-/
theorem read_respelled
    {d : Dialect}
    (hAccept : d.accept = .ok g)
    (hFeed : '\n' ∉ g.importKeyword)
    (hApart :
      ∀ c, g.blockOpen.head? = some c →
        c ≠ '"' ∧ beginsAlias c = false)
    (mark : Text)
    {text opening closing : Text}
    {pre entries post imports : List Text}
    (hLines :
      text.lines =
        pre ++ opening :: (entries ++ closing :: post))
    (hRegion : g.regionAfter .header pre = .body)
    (hBlock : g.Encloses opening entries closing)
    (hEntries :
      ∀ line ∈ entries,
        line.trim = [] ∨ (mark ≠ [] ∧ mark <+: line.trim) ∨
          IsCanonical line.trim)
    (hImports :
      ∀ entry,
        entry ∈ imports ↔
          IsCanonical entry ∧
            ∃ line ∈ entries, line.trim = entry) :
    (∃ other : Text,
        other.lines =
          pre ++ (imports.map g.importLine ++ post)) ∧
      ∀ other : Text,
        other.lines =
            pre ++ (imports.map g.importLine ++ post) →
          read g mark other = read g mark text := by
  have hUsable := Dialect.usable_of_accept hAccept
  refine ⟨?_, ?_⟩
  · apply Text.exists_lines_eq
    have hNone : ∀ line ∈ text.lines, '\n' ∉ line :=
      fun line hMem => Text.feed_not_mem_of_mem_lines hMem
    simp only [hLines, List.forall_mem_append,
      List.forall_mem_cons] at hNone
    rcases hNone with ⟨hPre, -, hInside, -, hPost⟩
    simp only [List.forall_mem_append, List.forall_mem_map]
    refine ⟨hPre, ?_, hPost⟩
    intro entry hMem
    rcases ((hImports entry).mp hMem).2 with
      ⟨line, hLine, rfl⟩
    have hTrimmed : '\n' ∉ line.trim := fun hIn =>
      hInside line hLine (Text.mem_of_mem_trim hIn)
    simp [LineGrammar.importLine, hFeed, hTrimmed]
  · intro other hOther
    have hCanonical :
        ∀ entry ∈ imports, IsCanonical entry :=
      fun entry hMem => ((hImports entry).mp hMem).1
    have hCollect :
        collect g mark other.lines =
          collect g mark text.lines := by
      unfold collect
      rw [hOther, hLines, LineGrammar.roles_append g _ pre,
        LineGrammar.roles_append g _ pre, hRegion,
        LineGrammar.roles_importLines hUsable hApart
          hCanonical,
        LineGrammar.roles_block hUsable hBlock.opens
          hBlock.inside hBlock.closes]
      exact contribute_replace
        (contribute_block hEntries hImports) none _ _
    unfold read
    rw [hCollect]

/- Entries of a block with a blank line and a comment. -/
def mixedEntries : List Text :=
  ["\t\"fmt\"".toList, [], "\t// std ".toList,
    "\tm \"math\"".toList, "\t. \"x\"\t".toList]

def blockFile : Text :=
  ("package p\nvar a\nimport ( // b\n\t\"fmt\"\n\n" ++
    "\t// std \n\tm \"math\"\n\t. \"x\"\t\n )\n" ++
    "var b\n").toList

/- The canonical entries, in another order. -/
def mixedImports : List Text :=
  [". \"x\"".toList, "\"fmt\"".toList, "m \"math\"".toList]

def singlesFile : Text :=
  ("package p\nvar a\nimport . \"x\"\nimport \"fmt\"\n" ++
    "import m \"math\"\nvar b\n").toList

theorem read_respelled_mixed :
    Dialect.go.grammar.Encloses "import ( // b".toList
        mixedEntries " )".toList ∧
      read Dialect.go.grammar Dialect.go.commentMark
          singlesFile =
        read Dialect.go.grammar Dialect.go.commentMark
          blockFile := by
  have hAccept :
      Dialect.go.accept = .ok Dialect.go.grammar := rfl
  have hApart :
      ∀ c, Dialect.go.grammar.blockOpen.head? = some c →
        c ≠ '"' ∧ beginsAlias c = false := by
    intro c hFirst
    cases hFirst
    decide
  have hBlock :
      Dialect.go.grammar.Encloses "import ( // b".toList
        mixedEntries " )".toList :=
    ⟨by decide +kernel, by decide +kernel, by decide +kernel⟩
  have hTaken :
      ∀ line ∈ mixedEntries,
        IsCanonical line.trim → line.trim ∈ mixedImports := by
    decide +kernel
  have hGiven :
      ∀ entry ∈ mixedImports,
        IsCanonical entry ∧
          ∃ line ∈ mixedEntries, line.trim = entry := by
    decide +kernel
  have hImports :
      ∀ entry,
        entry ∈ mixedImports ↔
          IsCanonical entry ∧
            ∃ line ∈ mixedEntries, line.trim = entry := by
    intro entry
    refine ⟨hGiven entry, ?_⟩
    rintro ⟨hCanonical, line, hMem, rfl⟩
    exact hTaken line hMem hCanonical
  have hLines :
      blockFile.lines =
        ["package p".toList, "var a".toList] ++
          "import ( // b".toList ::
            (mixedEntries ++ " )".toList ::
              ["var b".toList]) := by
    decide +kernel
  have hRead :=
    read_respelled hAccept (by decide) hApart
      Dialect.go.commentMark hLines (by decide +kernel) hBlock
      (by decide +kernel) hImports
  exact ⟨hBlock, hRead.2 singlesFile (by decide +kernel)⟩

/- A file with a block whose entry is no import. -/
def bareBlock : Text :=
  "package p\nimport (\nfoo\n)\n".toList

def bareFile : Text :=
  "package p\n".toList

/-
  Every entry begins with an empty comment mark.  So it has to
  be excepted here too: this entry is not canonical, but it
  counts.
-/
theorem not_respelled_of_emptyMark :
    uncommented.accept = .ok uncommented.grammar ∧
      uncommented.grammar.Encloses "import (".toList
        ["foo".toList] ")".toList ∧
      bareBlock.lines =
        ["package p".toList] ++ "import (".toList ::
          (["foo".toList] ++ ")".toList :: []) ∧
      bareFile.lines = ["package p".toList] ++ ([] ++ []) ∧
      uncommented.grammar.regionAfter .header
          ["package p".toList] =
        .body ∧
      uncommented.commentMark <+: "foo".toList ∧
      ¬ IsCanonical "foo".toList ∧
      read uncommented.grammar uncommented.commentMark
          bareFile ≠
        read uncommented.grammar uncommented.commentMark
          bareBlock := by
  refine ⟨rfl, ?_, ?_, ?_, ?_, ?_, ?_, ?_⟩
  · exact
      ⟨by decide +kernel, by decide +kernel,
        by decide +kernel⟩
  · decide +kernel
  · decide +kernel
  · decide +kernel
  · exact List.nil_prefix
  · decide +kernel
  · decide +kernel

end Source

end Collate
