import Collate.Proofs.Merged
import Mathlib.Data.List.Find

/-
  Blanks around the tokens of a dialect.  Lines are recognized
  and merged files are laid out by the trimmed tokens, but an
  entry of a block is a comment if it begins with the mark as
  it is configured.  So blanks around the mark turn comments
  into imports, and blanks around other tokens do nothing.

  Key definitions include:
    * `Text.Pads`
    * `Dialect.Pads`
    * `LineGrammar.Lists`
    * `Source.IsLive`
    * `Source.MarksAlike`

  Main declarations:
    * `Dialect.Pads.accept_eq`
    * `Source.mem_imports_read`
    * `Source.read_of_marksAlike`
    * `Source.marksAlike_of_reads`
    * `MergedFile.render_of_pads`
-/

------------------------------------------------------------
-- Padded Tokens
------------------------------------------------------------

namespace Collate

/- A text and the same text with blanks around it. -/
def Text.Pads
    (t padded : Text) : Prop :=
  ∃ before after,
    (∀ c ∈ before, Text.isBlank c = true) ∧
      (∀ c ∈ after, Text.isBlank c = true) ∧
      padded = before ++ (t ++ after)

theorem Text.pads_of_eq
    {t padded : Text}
    (before after : Text)
    (hBefore : before.allBlank = true)
    (hAfter : after.allBlank = true)
    (hPadded : padded = before ++ (t ++ after)) :
    t.Pads padded :=
  ⟨before, after, Text.allBlank_iff.mp hBefore,
    Text.allBlank_iff.mp hAfter, hPadded⟩

theorem Text.Pads.trim_eq
    {t padded : Text}
    (hPads : t.Pads padded) :
    padded.trim = t.trim := by
  rcases hPads with ⟨before, after, hBefore, hAfter, rfl⟩
  rw [Text.trim_append_left hBefore, Text.trim_eq_strip,
    Edges.strip_append_right t hAfter, Text.trim_eq_strip]

namespace Dialect

/- Every token but the indent can have blanks around it. -/
structure Pads
    (d padded : Dialect) : Prop where
  tokens :
    ∀ token, token ≠ .indent →
      (d.get token).Pads (padded.get token)
  indent : padded.indent = d.indent

/- The comments of a grammar begin with the trimmed mark. -/
theorem trim_commentMark
    {d : Dialect}
    {g : LineGrammar}
    (hAccept : d.accept = .ok g) :
    d.commentMark.trim = g.comment := by
  rcases accept_eq_ok_iff.mp hAccept with ⟨-, rfl⟩
  rfl

namespace Pads

variable {d padded : Dialect}

theorem trim_get
    (hPads : d.Pads padded)
    (token : Token)
    (hToken : token ≠ .indent) :
    (padded.get token).trim = (d.get token).trim :=
  (hPads.tokens token hToken).trim_eq

/- Padding leaves the trimmed tokens as they are. -/
theorem grammar_eq
    (hPads : d.Pads padded) :
    padded.grammar = d.grammar := by
  simp only [grammar, LineGrammar.mk.injEq]
  exact
    ⟨hPads.trim_get .moduleKeyword (by decide),
      hPads.trim_get .importKeyword (by decide),
      hPads.trim_get .blockOpen (by decide),
      hPads.trim_get .blockClose (by decide),
      hPads.trim_get .commentMark (by decide)⟩

/- A padded token is blank if the token is. -/
theorem allBlank_get
    (hPads : d.Pads padded)
    (token : Token)
    (hToken : token ≠ .indent) :
    (padded.get token).allBlank = (d.get token).allBlank := by
  rw [Bool.eq_iff_iff, ← Text.trim_eq_nil_iff,
    ← Text.trim_eq_nil_iff, hPads.trim_get token hToken]

/- A padded dialect is accepted or refused as before. -/
theorem accept_eq
    (hPads : d.Pads padded) :
    padded.accept = d.accept := by
  have hFirst : padded.firstBlank? = d.firstBlank? := by
    unfold firstBlank?
    apply List.find?_congr
    intro token hMem
    apply hPads.allBlank_get
    rintro rfl
    revert hMem
    decide
  unfold accept
  rw [hFirst, hPads.grammar_eq]

/- Merged files are laid out by the trimmed tokens. -/
theorem render_eq
    (hPads : d.Pads padded)
    (m : MergedFile) :
    m.render padded = m.render d := by
  have hGrammar := hPads.grammar_eq
  simp only [grammar, LineGrammar.mk.injEq] at hGrammar
  rcases hGrammar with ⟨hModule, hImport, hOpen, hClose, -⟩
  unfold MergedFile.render MergedFile.sections
    MergedFile.declaration MergedFile.importLines
  rw [hModule, hImport, hOpen, hClose, hPads.indent]

end Pads

end Dialect

------------------------------------------------------------
-- Listed Entries
------------------------------------------------------------

namespace LineGrammar

/- An entry on a line of the file, whether it counts or not. -/
def Lists
    (g : LineGrammar)
    (text entry : Text) : Prop :=
  ∃ line ∈ g.roles .header text.lines,
    line.2.imported? = some entry

/- Tokens that can stand on the lines before an entry. -/
structure OnLines
    (g : LineGrammar) : Prop where
  moduleKeyword : '\n' ∉ g.moduleKeyword
  importKeyword : '\n' ∉ g.importKeyword
  blockOpen : '\n' ∉ g.blockOpen

end LineGrammar

namespace Source

variable {g : LineGrammar}
variable {mark other text entry : Text}

/- The imports are the listed entries that count. -/
theorem mem_imports_read :
    entry ∈ (read g mark text).imports ↔
      g.Lists text entry ∧ counts mark entry = true := by
  rw [and_comm]
  exact mem_imports_contribute

/- A listed entry that is not empty is a trimmed line. -/
theorem solid_of_lists
    (hUsable : g.Usable)
    (hLists : g.Lists text entry)
    (hNonempty : entry ≠ []) :
    entry.Solid ∧ '\n' ∉ entry := by
  have hCounts : counts [] entry = true := by
    rw [counts_iff]
    exact ⟨hNonempty, fun hMark => absurd rfl hMark⟩
  have hEntry :=
    (clean_read hUsable [] text).imports entry
      (mem_imports_read.mpr ⟨hLists, hCounts⟩)
  exact ⟨hEntry.solid, hEntry.noFeed⟩

/- The mark matters for the imports only. -/
theorem read_parts
    (hUsable : g.Usable)
    (mark other text : Text) :
    (read g other text).moduleName =
        (read g mark text).moduleName ∧
      (read g other text).body = (read g mark text).body := by
  rcases g.exists_divides text.lines with
    ⟨header, name, region, hDivides⟩
  rcases read_of_divides hUsable mark hDivides with
    ⟨hModule, -, hBody⟩
  rcases read_of_divides hUsable other hDivides with
    ⟨hModule', -, hBody'⟩
  exact
    ⟨hModule'.trans hModule.symm, hBody'.trans hBody.symm⟩

/- Marks that leave the same entries give the same source. -/
theorem read_of_counts
    (hUsable : g.Usable)
    (hCounts :
      ∀ entry, g.Lists text entry →
        entry.Solid → '\n' ∉ entry →
          counts other entry = counts mark entry) :
    read g other text = read g mark text := by
  rcases read_parts hUsable mark other text with
    ⟨hModule, hBody⟩
  refine ext_parts hModule ?_ hBody
  intro entry
  rw [mem_imports_read, mem_imports_read]
  apply and_congr_right
  intro hLists
  by_cases hNonempty : entry = []
  · rw [hNonempty]
    exact Iff.rfl
  · rcases solid_of_lists hUsable hLists hNonempty with
      ⟨hSolid, hFeed⟩
    rw [hCounts entry hLists hSolid hFeed]

------------------------------------------------------------
-- Marks of Comments
------------------------------------------------------------

/- A mark with which a trimmed line can begin. -/
structure IsLive
    (mark : Text) : Prop where
  nonempty : mark ≠ []
  first :
    ∀ c, mark.head? = some c → Text.isBlank c = false
  noFeed : '\n' ∉ mark

theorem isLive_of_begins
    (hNonempty : mark ≠ [])
    (hStarts : mark <+: entry)
    (hSolid : entry.Solid)
    (hFeed : '\n' ∉ entry) :
    IsLive mark := by
  rcases hStarts with ⟨rest, rfl⟩
  refine ⟨hNonempty, ?_, ?_⟩
  · intro c hFirst
    apply hSolid.tight.first
    rw [List.head?_append_of_ne_nil _ hNonempty]
    exact hFirst
  · intro hMem
    exact hFeed (List.mem_append_left _ hMem)

/- Entries count if no line can begin with the mark. -/
theorem counts_of_not_isLive
    (hDead : ¬ IsLive mark)
    (hSolid : entry.Solid)
    (hFeed : '\n' ∉ entry) :
    counts mark entry = true := by
  rw [counts_iff]
  refine ⟨hSolid.nonempty, ?_⟩
  intro hNonempty hStarts
  exact hDead
    (isLive_of_begins hNonempty hStarts hSolid hFeed)

/- A live mark begins with its trimmed text. -/
theorem IsLive.trim_begins
    (hLive : IsLive mark) :
    mark.trim ≠ [] ∧ mark.trim <+: mark := by
  constructor
  · intro hNil
    rw [Text.trim_eq_nil_iff, Text.allBlank_iff] at hNil
    cases mark with
    | nil => exact hLive.nonempty rfl
    | cons c mark =>
        have hFirst := hLive.first c rfl
        rw [hNil c (by simp)] at hFirst
        cases hFirst
  · rcases Edges.exists_surrounded Text.isBlank mark with
      ⟨before, after, hSplit, hBefore, -⟩
    cases before with
    | nil => exact ⟨after, hSplit.symm⟩
    | cons c before =>
        have hFirst := hLive.first c (by rw [hSplit]; rfl)
        rw [hBefore c (by simp)] at hFirst
        cases hFirst

/- An entry counts if it does not begin with the trimmed mark. -/
theorem counts_of_no_comment
    (hNone : mark.trim ≠ [] → ¬ mark.trim <+: entry)
    (hSolid : entry.Solid)
    (hFeed : '\n' ∉ entry) :
    counts mark entry = true := by
  rw [counts_iff]
  refine ⟨hSolid.nonempty, ?_⟩
  intro hNonempty hStarts
  rcases (isLive_of_begins hNonempty hStarts hSolid
      hFeed).trim_begins with
    ⟨hTrim, hBegins⟩
  exact hNone hTrim (hBegins.trans hStarts)

/- Marks that are the same, or with which no line begins. -/
def MarksAlike
    (mark other : Text) : Prop :=
  other = mark ∨ ¬ IsLive mark ∧ ¬ IsLive other

theorem read_of_marksAlike
    (hUsable : g.Usable)
    (hAlike : MarksAlike mark other)
    (text : Text) :
    read g other text = read g mark text := by
  rcases hAlike with rfl | ⟨hDead, hDead'⟩
  · rfl
  · apply read_of_counts hUsable
    intro entry _ hSolid hFeed
    rw [counts_of_not_isLive hDead hSolid hFeed,
      counts_of_not_isLive hDead' hSolid hFeed]

/- Blanks around the mark do not matter without comments. -/
theorem read_of_no_comment
    (hUsable : g.Usable)
    (hMark : mark.trim = g.comment)
    (hOther : other.trim = g.comment)
    (hNone :
      ∀ entry, g.Lists text entry →
        g.comment ≠ [] → ¬ g.comment <+: entry) :
    read g other text = read g mark text := by
  apply read_of_counts hUsable
  intro entry hLists hSolid hFeed
  have hFree := hNone entry hLists
  rw [counts_of_no_comment (hOther ▸ hFree) hSolid hFeed,
    counts_of_no_comment (hMark ▸ hFree) hSolid hFeed]

/- Any trimmed line can be listed, if lines can hold tokens. -/
theorem exists_lists
    (hUsable : g.Usable)
    (hTokens : g.OnLines)
    (hSolid : entry.Solid)
    (hFeed : '\n' ∉ entry)
    (hClose : entry ≠ g.blockClose) :
    ∃ text, g.Lists text entry := by
  have hName : IsModuleName ['p'] := .singleton (by decide)
  have hLines :
      ∀ line ∈
          [g.moduleKeyword ++ ' ' :: ['p'],
            g.importKeyword ++ ' ' :: g.blockOpen, entry],
        '\n' ∉ line := by
    simp [hTokens.moduleKeyword, hTokens.importKeyword,
      hTokens.blockOpen, hFeed]
  rcases Text.exists_lines_eq hLines with ⟨text, hText⟩
  have hEntry : entry.trim ≠ g.blockClose := by
    rw [hSolid.trim_eq]
    exact hClose
  refine ⟨text, (entry, .blockEntry entry), ?_, rfl⟩
  rw [hText]
  simp [LineGrammar.roles,
    LineGrammar.classify_declaration hUsable hName,
    LineGrammar.classify_opens hUsable
      (LineGrammar.opensBlock_opening hUsable),
    LineGrammar.classify_entry hEntry, hSolid.trim_eq]

/- Some comment is not the line that closes a block. -/
theorem exists_concat_ne
    (mark close : Text) :
    ∃ c, Text.isBlank c = false ∧ c ≠ '\n' ∧
      mark ++ [c] ≠ close := by
  by_cases hClose : mark ++ ['x'] = close
  · refine ⟨'y', by decide, by decide, ?_⟩
    rw [← hClose]
    simp
  · exact ⟨'x', by decide, by decide, hClose⟩

/-
  If two marks give the same sources, then a comment of the
  first is a comment of the second.
-/
theorem prefix_of_reads
    (hUsable : g.Usable)
    (hTokens : g.OnLines)
    (hReads :
      ∀ text, read g other text = read g mark text)
    (hLive : IsLive mark) :
    IsLive other ∧
      ∃ c, Text.isBlank c = false ∧ other <+: mark ++ [c] := by
  rcases exists_concat_ne mark g.blockClose with
    ⟨c, hBlank, hNoFeed, hClose⟩
  have hSolid : Text.Solid (mark ++ [c]) := by
    refine ⟨by simp, ?_, ?_⟩
    · intro d hFirst
      rw [List.head?_append_of_ne_nil _ hLive.nonempty]
        at hFirst
      exact hLive.first d hFirst
    · intro d hLast
      rw [List.getLast?_concat] at hLast
      cases hLast
      exact hBlank
  have hFeed : '\n' ∉ mark ++ [c] := by
    simp [hLive.noFeed, hNoFeed.symm]
  rcases exists_lists hUsable hTokens hSolid hFeed hClose with
    ⟨text, hLists⟩
  -- The mark keeps this line out, so the other mark does.
  have hAbsent :
      mark ++ [c] ∉ (read g other text).imports := by
    rw [hReads text, mem_imports_read, counts_iff]
    rintro ⟨-, -, hOut⟩
    exact hOut hLive.nonempty (List.prefix_append _ _)
  have hStarts : other ≠ [] ∧ other <+: mark ++ [c] := by
    rw [mem_imports_read, counts_iff] at hAbsent
    by_contra hNot
    apply hAbsent
    refine ⟨hLists, hSolid.nonempty, ?_⟩
    intro hNonempty hPrefix
    exact hNot ⟨hNonempty, hPrefix⟩
  exact
    ⟨isLive_of_begins hStarts.1 hStarts.2 hSolid hFeed,
      c, hBlank, hStarts.2⟩

/- A live mark with blanks around it has them behind it. -/
theorem eq_append_of_pads
    (hLive : IsLive other)
    (hPads : mark.Pads other) :
    ∃ after,
      (∀ c ∈ after, Text.isBlank c = true) ∧
        other = mark ++ after := by
  rcases hPads with ⟨before, after, hBefore, hAfter, rfl⟩
  cases before with
  | nil => exact ⟨after, hAfter, rfl⟩
  | cons c before =>
      have hFirst := hLive.first c rfl
      rw [hBefore c (by simp)] at hFirst
      cases hFirst

/- Padding that never shows leaves a live mark as it is. -/
theorem marksAlike_of_reads
    (hUsable : g.Usable)
    (hTokens : g.OnLines)
    (hPads : mark.Pads other)
    (hReads :
      ∀ text, read g other text = read g mark text) :
    MarksAlike mark other := by
  by_cases hLive : IsLive mark
  · rcases prefix_of_reads hUsable hTokens hReads hLive with
      ⟨hLive', c, hBlank, hStarts⟩
    rcases eq_append_of_pads hLive' hPads with
      ⟨after, hAfter, rfl⟩
    -- What was added is blank, and stands before `c` or is it.
    rw [List.prefix_append_right_inj] at hStarts
    cases after with
    | nil => exact .inl (List.append_nil mark)
    | cons d after =>
        have hSame : d = c :=
          (List.cons_prefix_cons.mp hStarts).1
        rw [← hSame, hAfter d (by simp)] at hBlank
        cases hBlank
  · by_cases hLive' : IsLive other
    · exact absurd
        (prefix_of_reads hUsable hTokens
          (fun text => (hReads text).symm) hLive').1
        hLive
    · exact .inr ⟨hLive, hLive'⟩

end Source

------------------------------------------------------------
-- Merged Texts
------------------------------------------------------------

namespace MergedFile

/-
  Blanks around tokens change neither roles nor layout, nor
  the module or body of a file.  An entry is kept out of the
  imports if it begins with the mark as it is padded.  The
  merged text is the same if the mark is as before, if no line
  can begin with it before and after, or if no comment stands
  in a block.  One of the first two holds if the imports of
  every file are the same.
-/
theorem render_of_pads
    {d padded : Dialect}
    {g : LineGrammar}
    (hAccept : d.accept = .ok g)
    (hPads : d.Pads padded) :
    padded.accept = .ok g ∧
      (∀ text,
        let s := Source.read g d.commentMark text
        let s' := Source.read g padded.commentMark text
        s'.moduleName = s.moduleName ∧ s'.body = s.body ∧
          ∀ entry,
            entry ∈ s'.imports ↔
              g.Lists text entry ∧ entry ≠ [] ∧
                (padded.commentMark ≠ [] →
                  ¬ padded.commentMark <+: entry)) ∧
      (∀ configured inputs,
        (Source.MarksAlike d.commentMark padded.commentMark ∨
          ∀ input ∈ inputs, ∀ entry,
            g.Lists input.2 entry →
              g.comment ≠ [] → ¬ g.comment <+: entry) →
          (ofLoaded? configured
              (Loaded.readAll g padded.commentMark
                inputs)).map (render padded) =
            (ofLoaded? configured
              (Loaded.readAll g d.commentMark inputs)).map
              (render d)) ∧
      (g.OnLines →
        ((∀ text,
            Source.read g padded.commentMark text =
              Source.read g d.commentMark text) ↔
          Source.MarksAlike d.commentMark
            padded.commentMark)) := by
  have hUsable := Dialect.usable_of_accept hAccept
  have hPadded : padded.accept = .ok g := by
    rw [hPads.accept_eq]
    exact hAccept
  refine ⟨hPadded, ?_, ?_, ?_⟩
  · intro text s s'
    rcases Source.read_parts hUsable d.commentMark
        padded.commentMark text with
      ⟨hModule, hBody⟩
    refine ⟨hModule, hBody, ?_⟩
    intro entry
    rw [Source.mem_imports_read, Source.counts_iff]
  · intro configured inputs hCondition
    have hReads :
        ∀ input ∈ inputs,
          Source.read g padded.commentMark input.2 =
            Source.read g d.commentMark input.2 := by
      intro input hMem
      rcases hCondition with hAlike | hNone
      · exact Source.read_of_marksAlike hUsable hAlike input.2
      · exact Source.read_of_no_comment hUsable
          (Dialect.trim_commentMark hAccept)
          (Dialect.trim_commentMark hPadded)
          (hNone input hMem)
    have hSources :
        Loaded.readAll g padded.commentMark inputs =
          Loaded.readAll g d.commentMark inputs := by
      apply List.map_congr_left
      intro input hMem
      rw [hReads input hMem]
    rw [hSources]
    apply Option.map_congr
    intro m _
    exact hPads.render_eq m
  · intro hTokens
    constructor
    · intro hReads
      exact Source.marksAlike_of_reads hUsable hTokens
        (hPads.tokens .commentMark (by decide)) hReads
    · intro hAlike text
      exact Source.read_of_marksAlike hUsable hAlike text

/- Blanks around all tokens but the mark, and around it. -/
def paddedKeywords : Dialect :=
  { Dialect.go with
    moduleKeyword := " package".toList
    importKeyword := "import\t".toList
    blockOpen := " ( ".toList
    blockClose := "\n)".toList }

def paddedMark : Dialect :=
  { Dialect.go with
    commentMark := " // ".toList }

/- A file with a comment in its block of imports. -/
def remarkedBlock : Text :=
  "package p\nimport (\n\t\"fmt\"\n\t// std\n)\n".toList

theorem pads_paddedKeywords :
    Dialect.go.Pads paddedKeywords := by
  refine ⟨?_, rfl⟩
  intro token hToken
  cases token with
  | moduleKeyword =>
      exact Text.pads_of_eq [' '] [] rfl rfl (by decide)
  | importKeyword =>
      exact Text.pads_of_eq [] ['\t'] rfl rfl (by decide)
  | blockOpen =>
      exact Text.pads_of_eq [' '] [' '] rfl rfl (by decide)
  | blockClose =>
      exact Text.pads_of_eq ['\n'] [] rfl rfl (by decide)
  | commentMark =>
      exact Text.pads_of_eq [] [] rfl rfl (by decide)
  | indent => exact absurd rfl hToken

theorem pads_paddedMark :
    Dialect.go.Pads paddedMark := by
  refine ⟨?_, rfl⟩
  intro token hToken
  cases token with
  | commentMark =>
      exact Text.pads_of_eq [' '] [' '] rfl rfl (by decide)
  | indent => exact absurd rfl hToken
  | moduleKeyword | importKeyword | blockOpen | blockClose =>
      exact Text.pads_of_eq [] [] rfl rfl (by decide)

theorem onLines_go :
    Dialect.go.grammar.OnLines :=
  ⟨by decide, by decide, by decide⟩

/- Padded keywords never show. -/
theorem render_of_pads_paddedKeywords :
    Dialect.go.accept = .ok Dialect.go.grammar ∧
      Dialect.go.Pads paddedKeywords ∧
      (∀ text,
        Source.read Dialect.go.grammar
            paddedKeywords.commentMark text =
          Source.read Dialect.go.grammar
            Dialect.go.commentMark text) ∧
      (ofLoaded? none
          (Loaded.readAll Dialect.go.grammar
            paddedKeywords.commentMark
            [("a.go".toList, remarkedBlock)])).map
          (render paddedKeywords) =
        some "package p\n\nimport (\n\t\"fmt\"\n)\n".toList := by
  have hAccept :
      Dialect.go.accept = .ok Dialect.go.grammar := rfl
  have hAlike :
      Source.MarksAlike Dialect.go.commentMark
        paddedKeywords.commentMark :=
    .inl rfl
  rcases render_of_pads hAccept pads_paddedKeywords with
    ⟨-, -, hRender, hReads⟩
  refine
    ⟨hAccept, pads_paddedKeywords,
      (hReads onLines_go).mpr hAlike, ?_⟩
  rw [hRender _ _ (.inl hAlike)]
  decide +kernel

/- A padded mark lets a comment of a block be an import. -/
theorem not_reads_paddedMark :
    Dialect.go.accept = .ok Dialect.go.grammar ∧
      Dialect.go.Pads paddedMark ∧
      paddedMark.accept = .ok Dialect.go.grammar ∧
      (Dialect.go.grammar.comment ≠ [] ∧
        Dialect.go.grammar.comment <+: "// std".toList) ∧
      "// std".toList ∉
        (Source.read Dialect.go.grammar Dialect.go.commentMark
          remarkedBlock).imports ∧
      "// std".toList ∈
        (Source.read Dialect.go.grammar paddedMark.commentMark
          remarkedBlock).imports ∧
      (ofLoaded? none
          (Loaded.readAll Dialect.go.grammar
            paddedMark.commentMark
            [("a.go".toList, remarkedBlock)])).map
          (render paddedMark) ≠
        (ofLoaded? none
          (Loaded.readAll Dialect.go.grammar
            Dialect.go.commentMark
            [("a.go".toList, remarkedBlock)])).map
          (render Dialect.go) := by
  exact
    ⟨rfl, pads_paddedMark, rfl, by decide, by decide +kernel,
      by decide +kernel, by decide +kernel⟩

end MergedFile

end Collate
