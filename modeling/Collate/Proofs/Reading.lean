import Collate.Proofs.Source

/-
  A file read by its structure, without a scan: a header, a
  declaration, and a region that splits into lines outside
  blocks of imports and whole blocks.

  Key definitions include:
    * `Piece`
    * `LineGrammar.Splits`
    * `Reading`

  Main declarations:
    * `LineGrammar.exists_splits`
    * `LineGrammar.Splits.unique`
    * `LineGrammar.roles_of_splits`
    * `Source.read_reading`
-/

------------------------------------------------------------
-- Pieces of a Region
------------------------------------------------------------

namespace Collate

/- A line outside blocks of imports, or a whole block. -/
inductive Piece where
  | outside (line : Text)
  | block
      (opening : Text)
      (entries : List Text)
      (closing : Option Text)
deriving DecidableEq, Repr

namespace LineGrammar

variable {g : LineGrammar}

/-
  A region splits from left to right.  A line that opens a
  block does so only outside blocks, and the block goes up
  to the first line that closes it, or to the end.
-/
inductive Splits
    (g : LineGrammar) : List Text → List Piece → Prop where
  | done : Splits g [] []
  | outside
      {line : Text}
      {rest : List Text}
      {pieces : List Piece}
      (hOutside : g.opensBlock line.trim = false)
      (hRest : Splits g rest pieces) :
      Splits g (line :: rest) (.outside line :: pieces)
  | closed
      {opening closing : Text}
      {entries rest : List Text}
      {pieces : List Piece}
      (hOpening : g.opensBlock opening.trim = true)
      (hEntries : ∀ line ∈ entries, line.trim ≠ g.blockClose)
      (hClosing : closing.trim = g.blockClose)
      (hRest : Splits g rest pieces) :
      Splits g (opening :: (entries ++ closing :: rest))
        (.block opening entries (some closing) :: pieces)
  | unclosed
      {opening : Text}
      {entries : List Text}
      (hOpening : g.opensBlock opening.trim = true)
      (hEntries : ∀ line ∈ entries, line.trim ≠ g.blockClose) :
      Splits g (opening :: entries)
        [.block opening entries none]

/- A list is cut at the first element that satisfies a test. -/
theorem exists_first_or_none
    (lines : List Text)
    (close : Text) :
    (∀ line ∈ lines, line.trim ≠ close) ∨
      ∃ entries closing rest,
        lines = entries ++ closing :: rest ∧
          (∀ line ∈ entries, line.trim ≠ close) ∧
          closing.trim = close := by
  induction lines with
  | nil => exact .inl (by simp)
  | cons line lines ih =>
      by_cases hClose : line.trim = close
      · exact .inr ⟨[], line, lines, rfl, by simp, hClose⟩
      · rcases ih with hNone |
          ⟨entries, closing, rest, rfl, hEntries, hClosing⟩
        · refine .inl ?_
          intro other hMem
          rcases List.mem_cons.mp hMem with rfl | hMem
          · exact hClose
          · exact hNone other hMem
        · refine .inr
            ⟨line :: entries, closing, rest, rfl, ?_, hClosing⟩
          intro other hMem
          rcases List.mem_cons.mp hMem with rfl | hMem
          · exact hClose
          · exact hEntries other hMem

/- Every region splits. -/
theorem exists_splits
    (g : LineGrammar)
    (region : List Text) :
    ∃ pieces, g.Splits region pieces := by
  -- A block is passed as a whole, so the induction is on the
  -- number of lines that are left.
  induction hLength : region.length using
      Nat.strong_induction_on generalizing region with
  | _ n ih =>
      cases region with
      | nil => exact ⟨[], .done⟩
      | cons line rest =>
          rw [List.length_cons] at hLength
          cases hOpens : g.opensBlock line.trim with
          | false =>
              rcases ih rest.length (by omega) rest rfl with
                ⟨pieces, hPieces⟩
              exact ⟨_, .outside hOpens hPieces⟩
          | true =>
              rcases exists_first_or_none rest g.blockClose with
                hNone |
                ⟨entries, closing, after, rfl, hEntries,
                  hClosing⟩
              · exact ⟨_, .unclosed hOpens hNone⟩
              · have hShorter : after.length < n := by
                  simp only [List.length_append,
                    List.length_cons] at hLength
                  omega
                rcases ih after.length hShorter after rfl with
                  ⟨pieces, hPieces⟩
                exact
                  ⟨_, .closed hOpens hEntries hClosing hPieces⟩

/- The first closing line of a block is found in one way. -/
theorem first_unique
    {close : Text}
    {entries entries' rest rest' : List Text}
    {closing closing' : Text}
    (hEntries : ∀ line ∈ entries, line.trim ≠ close)
    (hClosing : closing.trim = close)
    (hEntries' : ∀ line ∈ entries', line.trim ≠ close)
    (hClosing' : closing'.trim = close)
    (hSame :
      entries ++ closing :: rest = entries' ++ closing' :: rest') :
    entries = entries' ∧ closing = closing' ∧ rest = rest' := by
  have hUnique :=
    Edges.longest_unique
      (p := fun line : Text => decide (line.trim ≠ close))
      (by simpa using hEntries) (by simpa using hClosing)
      (by simpa using hEntries') (by simpa using hClosing')
      hSame
  rcases hUnique with ⟨hFirst, hRest⟩
  rcases List.cons.inj hRest with ⟨hLine, hLater⟩
  exact ⟨hFirst, hLine, hLater⟩

namespace Splits

/- A line that opens no block is a piece of its own. -/
theorem outside_inv
    {line : Text}
    {rest : List Text}
    {pieces : List Piece}
    (hSplits : g.Splits (line :: rest) pieces)
    (hOutside : g.opensBlock line.trim = false) :
    ∃ later, pieces = .outside line :: later ∧
      g.Splits rest later := by
  generalize hRegion : line :: rest = region at hSplits
  cases hSplits with
  | done => cases hRegion
  | outside hLine hRest =>
      cases hRegion
      exact ⟨_, rfl, hRest⟩
  | closed hOpening =>
      cases hRegion
      rw [hOutside] at hOpening
      cases hOpening
  | unclosed hOpening =>
      cases hRegion
      rw [hOutside] at hOpening
      cases hOpening

/- A line that opens a block begins a closed or unclosed one. -/
theorem opening_inv
    {opening : Text}
    {rest : List Text}
    {pieces : List Piece}
    (hSplits : g.Splits (opening :: rest) pieces)
    (hOpening : g.opensBlock opening.trim = true) :
    (∃ entries closing after later,
        rest = entries ++ closing :: after ∧
        (∀ line ∈ entries, line.trim ≠ g.blockClose) ∧
        closing.trim = g.blockClose ∧
        pieces =
          .block opening entries (some closing) :: later ∧
        g.Splits after later) ∨
      ((∀ line ∈ rest, line.trim ≠ g.blockClose) ∧
        pieces = [.block opening rest none]) := by
  generalize hRegion : opening :: rest = region at hSplits
  cases hSplits with
  | done => cases hRegion
  | outside hLine =>
      cases hRegion
      rw [hOpening] at hLine
      cases hLine
  | closed _ hEntries hClosing hRest =>
      rcases List.cons.inj hRegion with ⟨rfl, rfl⟩
      exact .inl
        ⟨_, _, _, _, rfl, hEntries, hClosing, rfl, hRest⟩
  | unclosed _ hEntries =>
      cases hRegion
      exact .inr ⟨hEntries, rfl⟩

/- A region splits in one way only. -/
theorem unique
    {region : List Text}
    {pieces others : List Piece}
    (hPieces : g.Splits region pieces)
    (hOthers : g.Splits region others) :
    others = pieces := by
  induction hPieces generalizing others with
  | done =>
      cases hOthers
      rfl
  | outside hOutside _ ih =>
      rcases hOthers.outside_inv hOutside with
        ⟨later, rfl, hLater⟩
      rw [ih hLater]
  | closed hOpening hEntries hClosing _ ih =>
      rcases hOthers.opening_inv hOpening with
        ⟨entries, closing, after, later, hSame, hEntries',
          hClosing', rfl, hLater⟩ | ⟨hNone, -⟩
      · rcases first_unique hEntries hClosing hEntries'
            hClosing' hSame with
          ⟨rfl, rfl, rfl⟩
        rw [ih hLater]
      · exact absurd hClosing (hNone _ (by simp))
  | unclosed hOpening hEntries =>
      rcases hOthers.opening_inv hOpening with
        ⟨entries, closing, after, later, rfl, -, hClosing, -,
          -⟩ | ⟨-, rfl⟩
      · exact absurd hClosing (hEntries _ (by simp))
      · rfl

end Splits

------------------------------------------------------------
-- Roles of Pieces
------------------------------------------------------------

/- The entries that a piece adds to the imports. -/
def pieceEntries
    (g : LineGrammar) : Piece → List Text
  | .outside line => (g.singleImport? line.trim).toList
  | .block _ entries _ => entries.map Text.trim

/- The lines that a piece adds to the code. -/
def pieceCode
    (g : LineGrammar) : Piece → List Text
  | .outside line =>
      if (g.singleImport? line.trim).isNone then [line] else []
  | .block _ _ _ => []

/- The lines of a piece with their roles. -/
def pieceRoles
    (g : LineGrammar) : Piece → List (Text × LineRole)
  | .outside line =>
      match g.singleImport? line.trim with
      | some entry => [(line, .singleImport entry)]
      | none => [(line, plainRole line)]
  | .block opening entries closing =>
      (opening, .blockOpen) ::
        ((entries.map fun line =>
            (line, .blockEntry line.trim)) ++
          closing.toList.map fun line => (line, .blockClose))

/- Behind a block that is closed the body goes on. -/
theorem roles_block
    (hUsable : g.Usable)
    {opening closing : Text}
    {entries : List Text}
    (hOpening : g.opensBlock opening.trim = true)
    (hEntries : ∀ line ∈ entries, line.trim ≠ g.blockClose)
    (hClosing : closing.trim = g.blockClose)
    (rest : List Text) :
    g.roles .body (opening :: (entries ++ closing :: rest)) =
      g.pieceRoles (.block opening entries (some closing)) ++
        g.roles .body rest := by
  simp [roles, classify_opens hUsable hOpening,
    roles_entries_append hEntries, classify_closes hClosing,
    pieceRoles]

/- The scan gives every line the role it has in its piece. -/
theorem roles_of_splits
    (hUsable : g.Usable)
    {region : List Text}
    {pieces : List Piece}
    (hSplits : g.Splits region pieces) :
    g.roles .body region = pieces.flatMap g.pieceRoles := by
  induction hSplits with
  | done => rfl
  | @outside line rest pieces hOutside _ ih =>
      cases hEntry : g.singleImport? line.trim with
      | some entry =>
          have hRole := classify_imports hUsable hOutside hEntry
          simp [roles, hRole, ih, pieceRoles, hEntry]
      | none =>
          have hRole := classify_plain ⟨hOutside, hEntry⟩
          simp [roles, hRole, ih, pieceRoles, hEntry]
  | closed hOpening hEntries hClosing _ ih =>
      rw [roles_block hUsable hOpening hEntries hClosing, ih,
        List.flatMap_cons]
  | @unclosed opening entries hOpening hEntries =>
      have hRoles := roles_entries_append hEntries []
      rw [List.append_nil] at hRoles
      simp [roles, classify_opens hUsable hOpening, hRoles,
        pieceRoles]

/- The entries among the roles of a piece. -/
theorem exists_entry_pieceRoles_iff
    {piece : Piece}
    {entry : Text} :
    (∃ line ∈ g.pieceRoles piece,
        line.2.imported? = some entry) ↔
      entry ∈ g.pieceEntries piece := by
  cases piece with
  | outside line =>
      cases hEntry : g.singleImport? line.trim with
      | some found =>
          simp [pieceRoles, pieceEntries, hEntry,
            LineRole.imported?, eq_comm]
      | none => simp [pieceRoles, pieceEntries, hEntry]
  | block opening entries closing =>
      simp [pieceRoles, pieceEntries, LineRole.imported?,
        or_and_right, exists_or]

/- The entries among the roles of all pieces. -/
theorem exists_entry_roles_iff
    {pieces : List Piece}
    {entry : Text} :
    (∃ line ∈ pieces.flatMap g.pieceRoles,
        line.2.imported? = some entry) ↔
      entry ∈ pieces.flatMap g.pieceEntries := by
  simp only [List.mem_flatMap]
  constructor
  · rintro ⟨line, ⟨piece, hPiece, hLine⟩, hEntry⟩
    exact ⟨piece, hPiece,
      exists_entry_pieceRoles_iff.mp ⟨line, hLine, hEntry⟩⟩
  · rintro ⟨piece, hPiece, hMem⟩
    rcases exists_entry_pieceRoles_iff.mpr hMem with
      ⟨line, hLine, hEntry⟩
    exact ⟨line, ⟨piece, hPiece, hLine⟩, hEntry⟩

/- The plain lines among the roles of a piece. -/
theorem plainLines_pieceRoles
    (piece : Piece) :
    Source.plainLines (g.pieceRoles piece) =
      (g.pieceCode piece).map Text.trimEnd := by
  cases piece with
  | outside line =>
      cases hEntry : g.singleImport? line.trim with
      | some found =>
          simp [pieceRoles, pieceCode, Source.plainLines,
            hEntry, LineRole.isPlain]
      | none =>
          simp [pieceRoles, pieceCode, Source.plainLines,
            hEntry]
  | block opening entries closing =>
      simp [pieceRoles, pieceCode, Source.plainLines,
        LineRole.isPlain]

/- The plain lines among the roles of all pieces. -/
theorem plainLines_roles
    (pieces : List Piece) :
    Source.plainLines (pieces.flatMap g.pieceRoles) =
      (pieces.flatMap g.pieceCode).map Text.trimEnd := by
  induction pieces with
  | nil => rfl
  | cons piece rest ih =>
      rw [List.flatMap_cons, Source.plainLines_append, ih,
        plainLines_pieceRoles, List.flatMap_cons,
        List.map_append]

/- The lines of a file divide in one way only. -/
theorem Divides.unique
    {lines header header' region region' : List Text}
    {name name' : Option Text}
    (hDivides : g.Divides lines header name region)
    (hOther : g.Divides lines header' name' region') :
    header' = header ∧ name' = name ∧ region' = region := by
  -- Either way the header is followed by the same lines, and
  -- the first of them is a declaration in both or in neither.
  cases hDivides with
  | declared hHeader hLeaves hName =>
      generalize hLines : _ ++ _ :: _ = lines at hOther
      cases hOther with
      | declared hHeader' hLeaves' hName' =>
          rcases Edges.longest_unique hHeader (by simpa)
              hHeader' (by simpa) hLines with
            ⟨rfl, hRest⟩
          rcases List.cons.inj hRest with ⟨rfl, rfl⟩
          exact ⟨rfl, hName'.symm.trans hName, rfl⟩
      | undeclared hHeader' hRegion' =>
          rcases Edges.longest_unique hHeader (by simpa)
              hHeader' (fun l hFirst => (hRegion' l hFirst).1)
              hLines with
            ⟨rfl, rfl⟩
          have hNone := (hRegion' _ rfl).2
          rw [hName] at hNone
          cases hNone
  | undeclared hHeader hRegion =>
      generalize hLines : header ++ region = lines at hOther
      cases hOther with
      | declared hHeader' hLeaves' hName' =>
          rcases Edges.longest_unique hHeader
              (fun l hFirst => (hRegion l hFirst).1)
              hHeader' (by simpa) hLines with
            ⟨rfl, rfl⟩
          have hNone := (hRegion _ rfl).2
          rw [hName'] at hNone
          cases hNone
      | undeclared hHeader' hRegion' =>
          rcases Edges.longest_unique hHeader
              (fun l hFirst => (hRegion l hFirst).1)
              hHeader' (fun l hFirst => (hRegion' l hFirst).1)
              hLines with
            ⟨rfl, rfl⟩
          exact ⟨rfl, rfl, rfl⟩

end LineGrammar

------------------------------------------------------------
-- Readings
------------------------------------------------------------

/- A file read by its structure. -/
structure Reading
    (g : LineGrammar)
    (lines : List Text) where
  header : List Text
  name : Option Text
  region : List Text
  pieces : List Piece
  divides : g.Divides lines header name region
  splits : g.Splits region pieces

namespace Reading

variable {g : LineGrammar}
variable {lines : List Text}

/- The entries of all pieces. -/
def entries
    (r : Reading g lines) : List Text :=
  r.pieces.flatMap g.pieceEntries

/- The lines of code in all pieces. -/
def code
    (r : Reading g lines) : List Text :=
  r.pieces.flatMap g.pieceCode

/- Every file can be read by its structure. -/
theorem exists_reading
    (g : LineGrammar)
    (lines : List Text) :
    Nonempty (Reading g lines) := by
  rcases g.exists_divides lines with
    ⟨header, name, region, hDivides⟩
  rcases g.exists_splits region with ⟨pieces, hSplits⟩
  exact ⟨⟨header, name, region, pieces, hDivides, hSplits⟩⟩

/- And in one way only. -/
theorem unique
    (r other : Reading g lines) :
    other = r := by
  rcases r with
    ⟨header, name, region, pieces, hDivides, hSplits⟩
  rcases other with
    ⟨header', name', region', pieces', hDivides', hSplits'⟩
  rcases hDivides.unique hDivides' with ⟨rfl, rfl, rfl⟩
  have hPieces := hSplits.unique hSplits'
  subst hPieces
  rfl

end Reading

namespace Source

variable {d : Dialect}
variable {g : LineGrammar}

/-
  A source is what its file says when it is read by its
  structure, and there is one such reading.  Entries that are
  empty do not count, and neither do entries that begin with
  the comment mark, unless that mark is empty.
-/
theorem read_reading
    (hAccept : d.accept = .ok g)
    (mark text : Text) :
    ∃ r : Reading g text.lines,
      (∀ other : Reading g text.lines, other = r) ∧
      (read g mark text).moduleName = r.name ∧
      (∀ entry,
        entry ∈ (read g mark text).imports ↔
          entry ∈ r.entries ∧ entry ≠ [] ∧
            (mark ≠ [] → ¬ mark <+: entry)) ∧
      (read g mark text).body =
        if r.name = none then []
        else Text.trimBlankEdges (r.code.map Text.trimEnd) := by
  have hUsable := Dialect.usable_of_accept hAccept
  rcases Reading.exists_reading g text.lines with ⟨r⟩
  rcases read_of_divides hUsable mark r.divides with
    ⟨hModule, hImports, hBody⟩
  have hPieces :=
    LineGrammar.roles_of_splits hUsable r.splits
  refine ⟨r, r.unique, hModule, ?_, ?_⟩
  · intro entry
    rw [hImports, counts_iff, hPieces,
      LineGrammar.exists_entry_roles_iff]
    exact and_comm
  · rw [hBody, hPieces, LineGrammar.plainLines_roles]
    split
    · rfl
    · rfl

/- A header, a block that is closed and one that is not. -/
def unclosedFile : Text :=
  ("// a\n\npackage p\nimport (\n\t\"x\"\n)\nvar a \n\n" ++
    "import (\n\t\"y\"\n\t// z\nvar b\n").toList

theorem read_reading_unclosedFile :
    ∃ r : Reading Dialect.go.grammar unclosedFile.lines,
      r.name = some "p".toList ∧
      ("\"y\"".toList ∈ r.entries ∧
        "var b".toList ∈ r.entries) ∧
      Text.trimBlankEdges (r.code.map Text.trimEnd) =
        ["var a".toList] := by
  have hAccept :
      Dialect.go.accept = .ok Dialect.go.grammar := rfl
  rcases read_reading hAccept Dialect.go.commentMark
      unclosedFile with
    ⟨r, -, hName, hImports, hBody⟩
  have hDeclared : r.name = some "p".toList := by
    rw [← hName]
    decide +kernel
  refine ⟨r, hDeclared, ⟨?_, ?_⟩, ?_⟩
  · exact ((hImports _).mp (by decide +kernel)).1
  · exact ((hImports _).mp (by decide +kernel)).1
  · rw [hDeclared, if_neg (by simp)] at hBody
    rw [← hBody]
    decide +kernel

/- A dialect without comments. -/
def uncommented : Dialect :=
  { Dialect.go with commentMark := [] }

/- A file with one import. -/
def oneImport : Text :=
  "package p\nimport \"fmt\"\n".toList

/-
  An empty comment mark has to be excepted: every entry
  begins with it, and the entry of this file counts.
-/
theorem not_reading_of_emptyMark :
    uncommented.accept = .ok uncommented.grammar ∧
      ¬ ∃ r : Reading uncommented.grammar oneImport.lines,
        ∀ entry,
          entry ∈
              (read uncommented.grammar
                uncommented.commentMark oneImport).imports ↔
            entry ∈ r.entries ∧ entry ≠ [] ∧
              ¬ uncommented.commentMark <+: entry := by
  refine ⟨rfl, ?_⟩
  rintro ⟨r, hImports⟩
  have hCounts :=
    (hImports "\"fmt\"".toList).mp (by decide +kernel)
  exact hCounts.2.2 List.nil_prefix

end Source

end Collate
