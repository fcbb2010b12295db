import Collate.Line
import Collate.Proofs.Text.Lines

/-
  What the patterns for lines accept, and the roles of the
  lines from which a merged file is made.

  Key definitions include:
    * `LineGrammar.Usable`
    * `LineGrammar.IsPlain`
    * `IsModuleName`

  Main declarations:
    * `Dialect.accept_eq_ok_iff`
    * `Text.after?_eq_some_iff`
    * `LineGrammar.moduleName?_eq_some_iff`
    * `afterBlanks?_eq_some_iff`
    * `quotedPath?_eq_some_iff`
    * `alias?_eq_some_iff`
    * `LineGrammar.singleImport?_eq_some`
    * `LineGrammar.classify_declaration`
    * `LineGrammar.classify_plain`
-/

------------------------------------------------------------
-- Beginnings
------------------------------------------------------------

namespace Collate

namespace Text

open Edges

/- A text begins with `start` and goes on with the rest. -/
theorem after?_eq_some_iff
    {start t rest : Text} :
    after? start t = some rest ↔ t = start ++ rest := by
  induction start generalizing t with
  | nil => simp [after?]
  | cons c start ih =>
      cases t with
      | nil => simp [after?]
      | cons d t =>
          by_cases hSame : c = d
          · subst hSame
            simp [after?, ih]
          · have hOther : d ≠ c := fun h => hSame h.symm
            simp [after?, hSame, hOther]

theorem after?_append
    (start rest : Text) :
    after? start (start ++ rest) = some rest :=
  after?_eq_some_iff.mpr rfl

theorem after?_nil
    {start : Text}
    (hNonempty : start ≠ []) :
    after? start [] = none := by
  cases start with
  | nil => exact absurd rfl hNonempty
  | cons c start => rfl

theorem startsWith_iff
    {t start : Text} :
    t.startsWith start = true ↔ start <+: t := by
  unfold startsWith
  rw [Option.isSome_iff_exists]
  constructor
  · rintro ⟨rest, hRest⟩
    exact ⟨rest, (after?_eq_some_iff.mp hRest).symm⟩
  · rintro ⟨rest, hRest⟩
    exact ⟨rest, after?_eq_some_iff.mpr hRest.symm⟩

/- A token as lines are compared with it. -/
structure Solid
    (t : Text) : Prop where
  nonempty : t ≠ []
  tight : Tight isBlank t

/- A trimmed text that is not blank is solid. -/
theorem solid_trim
    {t : Text}
    (hNotBlank : t.allBlank = false) :
    Solid t.trim := by
  refine ⟨?_, tight_trim t⟩
  intro hNil
  rw [trim_eq_nil_iff, hNotBlank] at hNil
  exact Bool.false_ne_true hNil

/- Trimming a solid text changes nothing. -/
theorem Solid.trim_eq
    {t : Text}
    (hSolid : Solid t) :
    t.trim = t :=
  strip_of_tight hSolid.tight

/- Whatever follows a solid text, it begins with no blank. -/
theorem Solid.first_append
    {t : Text}
    (hSolid : Solid t)
    (rest : Text) :
    ∀ c, (t ++ rest).head? = some c → isBlank c = false := by
  intro c hFirst
  rw [List.head?_append_of_ne_nil _ hSolid.nonempty] at hFirst
  exact hSolid.tight.first c hFirst

/- Two solid texts and what is between them. -/
theorem Solid.bridge
    {a c : Text}
    (hA : Solid a)
    (b : Text)
    (hC : Solid c) :
    Solid (a ++ b ++ c) := by
  refine ⟨?_,
    hA.tight.bridge hA.nonempty b hC.tight hC.nonempty⟩
  simp [hA.nonempty]

/- Two solid texts with a space between them. -/
theorem Solid.space
    {a c : Text}
    (hA : Solid a)
    (hC : Solid c) :
    Solid (a ++ ' ' :: c) := by
  simpa using hA.bridge [' '] hC

end Text

------------------------------------------------------------
-- Accepted Dialects
------------------------------------------------------------

namespace LineGrammar

/- The tokens without which no line can be recognized. -/
structure Usable
    (g : LineGrammar) : Prop where
  moduleKeyword : g.moduleKeyword.Solid
  importKeyword : g.importKeyword.Solid
  blockOpen : g.blockOpen.Solid
  blockClose : g.blockClose.Solid

end LineGrammar

namespace Dialect

/- A dialect is accepted if no required token is blank. -/
theorem accept_eq_ok_iff
    {d : Dialect}
    {g : LineGrammar} :
    d.accept = .ok g ↔
      (∀ token ∈ Token.required,
        (d.get token).allBlank = false) ∧
      g = d.grammar := by
  unfold accept firstBlank?
  cases hFirst :
      Token.required.find? fun token =>
        (d.get token).allBlank with
  | none =>
      simp only [List.find?_eq_none, Bool.not_eq_true]
        at hFirst
      constructor
      · intro hOk
        exact ⟨hFirst, (Except.ok.inj hOk).symm⟩
      · rintro ⟨-, rfl⟩
        rfl
  | some token =>
      have hBlank := List.find?_some hFirst
      have hMem := List.mem_of_find?_eq_some hFirst
      constructor
      · intro hOk
        cases hOk
      · rintro ⟨hAll, -⟩
        rw [hAll token hMem] at hBlank
        cases hBlank

theorem usable_of_accept
    {d : Dialect}
    {g : LineGrammar}
    (hAccept : d.accept = .ok g) :
    g.Usable := by
  rcases accept_eq_ok_iff.mp hAccept with ⟨hAll, rfl⟩
  exact
    { moduleKeyword :=
        Text.solid_trim (hAll .moduleKeyword (by decide))
      importKeyword :=
        Text.solid_trim (hAll .importKeyword (by decide))
      blockOpen :=
        Text.solid_trim (hAll .blockOpen (by decide))
      blockClose :=
        Text.solid_trim (hAll .blockClose (by decide)) }

end Dialect

------------------------------------------------------------
-- Module Names
------------------------------------------------------------

/- A name that can stand in a module declaration. -/
structure IsModuleName
    (name : Text) : Prop where
  nonempty : name ≠ []
  letters : ∀ c ∈ name, inModuleName c = true

namespace IsModuleName

theorem singleton
    {c : Char}
    (hLetter : inModuleName c = true) :
    IsModuleName [c] :=
  ⟨by simp, List.forall_mem_singleton.mpr hLetter⟩

theorem solid
    {name : Text}
    (hName : IsModuleName name) :
    name.Solid := by
  refine ⟨hName.nonempty, Text.tight_of_noBlank ?_⟩
  intro c hMem
  have hLetter := hName.letters c hMem
  simp only [inModuleName, Bool.and_eq_true,
    Bool.not_eq_true'] at hLetter
  exact hLetter.1

theorem feed_not_mem
    {name : Text}
    (hName : IsModuleName name) :
    '\n' ∉ name := by
  intro hMem
  exact absurd (hName.letters _ hMem) (by decide)

end IsModuleName

/- White space, at least one character of it. -/
structure IsGap
    (t : Text) : Prop where
  nonempty : t ≠ []
  blank : ∀ c ∈ t, Text.isBlank c = true

theorem isGap_space :
    IsGap [' '] :=
  ⟨by simp, List.forall_mem_singleton.mpr (by decide)⟩

/- Blanks are required, and all of them are passed over. -/
theorem afterBlanks?_eq_some_iff
    {t rest : Text} :
    afterBlanks? t = some rest ↔
      (∃ gap, IsGap gap ∧ t = gap ++ rest) ∧
        ∀ c, rest.head? = some c → Text.isBlank c = false := by
  constructor
  · intro hRest
    cases t with
    | nil => simp [afterBlanks?] at hRest
    | cons d t =>
        by_cases hBlank : Text.isBlank d = true
        · simp only [afterBlanks?, hBlank, if_true,
            Option.some.injEq] at hRest
          subst hRest
          refine
            ⟨⟨d :: t.takeWhile Text.isBlank, ⟨by simp, ?_⟩,
              ?_⟩, ?_⟩
          · intro c hMem
            rcases List.mem_cons.mp hMem with rfl | hMem
            · exact hBlank
            · exact List.mem_takeWhile_imp hMem
          · simp [Text.trimStart]
          · intro c hFirst
            exact Edges.first_dropWhile hFirst
        · simp [afterBlanks?, hBlank] at hRest
  · rintro ⟨⟨gap, hGap, rfl⟩, hFirst⟩
    cases gap with
    | nil => exact absurd rfl hGap.nonempty
    | cons d gap =>
        have hLater :
            ∀ c ∈ gap, Text.isBlank c = true :=
          fun c hMem =>
            hGap.blank c (List.mem_cons_of_mem _ hMem)
        simp [afterBlanks?, hGap.blank d (by simp),
          Text.trimStart,
          Edges.dropWhile_of_longest hLater hFirst]

/- What follows blanks comes from the text behind them. -/
theorem mem_of_afterBlanks?
    {t rest : Text}
    (hRest : afterBlanks? t = some rest)
    {c : Char}
    (hMem : c ∈ rest) :
    c ∈ t := by
  rcases afterBlanks?_eq_some_iff.mp hRest with
    ⟨⟨gap, -, rfl⟩, -⟩
  exact List.mem_append_right _ hMem

namespace LineGrammar

variable {g : LineGrammar}

/-
  A module is declared by its keyword, blanks and a name that
  goes up to a blank, a semicolon or the end.
-/
theorem moduleName?_eq_some_iff
    {t name : Text} :
    g.moduleName? t = some name ↔
      IsModuleName name ∧
        ∃ gap rest, IsGap gap ∧
          t = g.moduleKeyword ++ (gap ++ (name ++ rest)) ∧
          ∀ c, rest.head? = some c → inModuleName c = false := by
  constructor
  · intro hName
    unfold moduleName? at hName
    split at hName
    · cases hName
    · rename_i found hFound
      simp only [List.isEmpty_iff] at hName
      split at hName
      · cases hName
      · rename_i hNonempty
        cases hName
        rcases Option.bind_eq_some_iff.mp hFound with
          ⟨behind, hBehind, hBlanks⟩
        rcases afterBlanks?_eq_some_iff.mp hBlanks with
          ⟨⟨gap, hGap, rfl⟩, -⟩
        have hWhole := Text.after?_eq_some_iff.mp hBehind
        refine
          ⟨⟨hNonempty, fun c hMem =>
              List.mem_takeWhile_imp hMem⟩,
            gap, found.dropWhile inModuleName, hGap, ?_, ?_⟩
        · rw [hWhole, List.takeWhile_append_dropWhile]
        · intro c hFirst
          exact Edges.first_dropWhile hFirst
  · rintro ⟨hName, gap, rest, hGap, rfl, hEnds⟩
    have hBlanks :
        afterBlanks? (gap ++ (name ++ rest)) =
          some (name ++ rest) :=
      afterBlanks?_eq_some_iff.mpr
        ⟨⟨gap, hGap, rfl⟩, hName.solid.first_append rest⟩
    simp [moduleName?, Text.after?_append, hBlanks,
      Edges.takeWhile_of_longest hName.letters hEnds,
      hName.nonempty]

/- A declared name is a module name. -/
theorem isModuleName_of_moduleName?
    {t name : Text}
    (hName : g.moduleName? t = some name) :
    IsModuleName name :=
  (moduleName?_eq_some_iff.mp hName).1

end LineGrammar

------------------------------------------------------------
-- Import Entries
------------------------------------------------------------

/- The printable characters of ASCII are not blank. -/
theorem not_isBlank_of_printable
    {c : Char}
    (hLow : 33 ≤ c.toNat)
    (hHigh : c.toNat ≤ 126) :
    Text.isBlank c = false := by
  simp only [Text.isBlank, Text.blankRanges, List.any_cons,
    List.any_nil, Bool.or_false, Bool.or_eq_false_iff,
    Bool.and_eq_false_iff, decide_eq_false_iff_not]
  omega

theorem isLetter_iff
    {c : Char} :
    isLetter c = true ↔
      (97 ≤ c.toNat ∧ c.toNat ≤ 122) ∨
        (65 ≤ c.toNat ∧ c.toNat ≤ 90) := by
  simp [isLetter, Char.le_def, UInt32.le_iff_toNat_le]

theorem not_isBlank_of_beginsAlias
    {c : Char}
    (hBegins : beginsAlias c = true) :
    Text.isBlank c = false := by
  simp only [beginsAlias, Bool.or_eq_true, isLetter_iff,
    beq_iff_eq] at hBegins
  rcases hBegins with (hLetter | rfl) | rfl
  · exact not_isBlank_of_printable (by omega) (by omega)
  · decide
  · decide

theorem not_isBlank_of_continuesAlias
    {c : Char}
    (hContinues : continuesAlias c = true) :
    Text.isBlank c = false := by
  simp only [continuesAlias, Bool.or_eq_true, isLetter_iff,
    Char.isDigit_iff_toNat, beq_iff_eq] at hContinues
  rcases hContinues with (hLetter | ⟨hLow, hHigh⟩) | rfl
  · exact not_isBlank_of_printable (by omega) (by omega)
  · exact not_isBlank_of_printable
      (Nat.le_trans (by decide) hLow)
      (Nat.le_trans hHigh (by decide))
  · decide

/- A path stands between two quotes and holds none. -/
theorem quotedPath?_eq_some_iff
    {t path : Text} :
    quotedPath? t = some path ↔
      path ≠ [] ∧ '"' ∉ path ∧
        ∃ rest, t = '"' :: (path ++ '"' :: rest) := by
  constructor
  · intro hPath
    unfold quotedPath? at hPath
    split at hPath
    · rename_i t
      simp only [Bool.or_eq_true, List.isEmpty_iff,
        beq_iff_eq] at hPath
      split at hPath
      · cases hPath
      · rename_i hBetween
        push Not at hBetween
        have hEq : t.takeWhile (· != '"') = path :=
          Option.some.inj hPath
        have hSplit :=
          List.takeWhile_append_dropWhile
            (p := (· != '"')) (l := t)
        rw [hEq] at hBetween hSplit
        refine ⟨hBetween.1, ?_, ?_⟩
        · intro hMem
          rw [← hEq] at hMem
          simpa using List.mem_takeWhile_imp hMem
        · cases hRest : t.dropWhile (· != '"') with
          | nil =>
              rw [hRest, List.append_nil] at hSplit
              exact absurd (congrArg List.length hSplit)
                hBetween.2
          | cons c rest =>
              have hNot :=
                List.head?_dropWhile_not (· != '"') t
              rw [hRest] at hNot hSplit
              have hQuote : c = '"' := by simpa using hNot
              exact ⟨rest, by rw [← hSplit, hQuote]⟩
    · cases hPath
  · rintro ⟨hNonempty, hQuote, rest, rfl⟩
    have hInside : ∀ c ∈ path, (c != '"') = true := by
      intro c hMem
      have hOther : c ≠ '"' := by
        rintro rfl
        exact hQuote hMem
      simpa using hOther
    have hTake :
        (path ++ '"' :: rest).takeWhile (· != '"') = path :=
      Edges.takeWhile_of_longest hInside (by simp)
    simp [quotedPath?, hTake, hNonempty]

/- The quotes and the path between them stand in the text. -/
theorem mem_of_mem_plainEntry
    {t path : Text}
    (hPath : quotedPath? t = some path)
    {c : Char}
    (hMem : c ∈ plainEntry path) :
    c ∈ t := by
  rcases quotedPath?_eq_some_iff.mp hPath with
    ⟨-, -, rest, hQuoted⟩
  rw [hQuoted]
  simp only [plainEntry, List.mem_append, List.mem_cons,
    List.not_mem_nil] at hMem ⊢
  tauto

/- An alias: a letter, a low line or a point begins it. -/
structure IsAlias
    (name : Text) : Prop where
  nonempty : name ≠ []
  begins : ∀ c, name.head? = some c → beginsAlias c = true
  continues : ∀ c ∈ name.tail, continuesAlias c = true

/- An alias begins a text, and blanks follow it. -/
theorem alias?_eq_some_iff
    {t name rest : Text} :
    alias? t = some (name, rest) ↔
      IsAlias name ∧
        ∃ gap, t = name ++ gap ∧
          afterBlanks? gap = some rest := by
  constructor
  · intro hAlias
    cases t with
    | nil => simp [alias?] at hAlias
    | cons c t =>
        by_cases hBegins : beginsAlias c = true
        · simp only [alias?, hBegins, if_true,
            Option.map_eq_some_iff, Prod.mk.injEq] at hAlias
          rcases hAlias with ⟨found, hGap, rfl, rfl⟩
          refine
            ⟨⟨by simp, by simpa using hBegins, ?_⟩,
              t.dropWhile continuesAlias, by simp, hGap⟩
          intro d hMem
          exact List.mem_takeWhile_imp hMem
        · simp [alias?, hBegins] at hAlias
  · rintro ⟨hName, gap, rfl, hGap⟩
    cases name with
    | nil => exact absurd rfl hName.nonempty
    | cons c name =>
        -- The alias ends where the blanks begin.
        have hEnds :
            ∀ d, gap.head? = some d →
              continuesAlias d = false := by
          intro d hFirst
          rcases afterBlanks?_eq_some_iff.mp hGap with
            ⟨⟨blanks, hBlanks, rfl⟩, -⟩
          have hBlank : Text.isBlank d = true := by
            cases blanks with
            | nil => exact absurd rfl hBlanks.nonempty
            | cons e blanks =>
                cases hFirst
                exact hBlanks.blank d (by simp)
          by_contra hContinues
          rw [Bool.not_eq_false] at hContinues
          rw [not_isBlank_of_continuesAlias hContinues]
            at hBlank
          cases hBlank
        have hTake :
            (name ++ gap).takeWhile continuesAlias = name :=
          Edges.takeWhile_of_longest hName.continues hEnds
        have hDrop :
            (name ++ gap).dropWhile continuesAlias = gap :=
          Edges.dropWhile_of_longest hName.continues hEnds
        simp [alias?, hName.begins c rfl, hTake, hDrop, hGap]

theorem plainEntry_solid
    (path : Text) :
    (plainEntry path).Solid := by
  have hNotBlank : ∀ c ∈ ['"'], Text.isBlank c = false :=
    List.forall_mem_singleton.mpr (by decide)
  have hQuote : Text.Solid ['"'] :=
    ⟨by simp, Text.tight_of_noBlank hNotBlank⟩
  exact hQuote.bridge path hQuote

theorem IsAlias.solid
    {name : Text}
    (hName : IsAlias name) :
    name.Solid := by
  refine ⟨hName.nonempty, Text.tight_of_noBlank ?_⟩
  intro c hMem
  cases name with
  | nil => cases hMem
  | cons d name =>
      rcases List.mem_cons.mp hMem with rfl | hMem
      · exact not_isBlank_of_beginsAlias (hName.begins c rfl)
      · exact not_isBlank_of_continuesAlias
          (hName.continues c hMem)

theorem aliasEntry_solid
    {name : Text}
    (hName : IsAlias name)
    (path : Text) :
    (aliasEntry name path).Solid :=
  hName.solid.space (plainEntry_solid path)

namespace LineGrammar

variable {g : LineGrammar}

/-
  The entry of an import on one line is solid, and all its
  characters but a space stand on the line.
-/
theorem singleImport?_eq_some
    {t entry : Text}
    (hEntry : g.singleImport? t = some entry) :
    entry.Solid ∧ ∀ c ∈ entry, c ∈ t ∨ c = ' ' := by
  unfold singleImport? at hEntry
  split at hEntry
  · cases hEntry
  · rename_i rest hRest
    rcases Option.bind_eq_some_iff.mp hRest with
      ⟨gap, hGap, hBlanks⟩
    have hLine : ∀ c ∈ rest, c ∈ t := by
      intro c hMem
      rw [Text.after?_eq_some_iff.mp hGap]
      exact List.mem_append_right _
        (mem_of_afterBlanks? hBlanks hMem)
    split at hEntry
    · rename_i name after hAlias
      rcases Option.map_eq_some_iff.mp hEntry with
        ⟨path, hPath, rfl⟩
      rcases alias?_eq_some_iff.mp hAlias with
        ⟨hName, gap, hSplit, hAfter⟩
      refine ⟨aliasEntry_solid hName path, ?_⟩
      intro c hMem
      rcases List.mem_append.mp hMem with hMem | hMem
      · exact .inl
          (hLine c (hSplit ▸ List.mem_append_left _ hMem))
      · rcases List.mem_cons.mp hMem with hSpace | hMem
        · exact .inr hSpace
        · have hGapMem : c ∈ gap :=
            mem_of_afterBlanks? hAfter
              (mem_of_mem_plainEntry hPath hMem)
          exact .inl
            (hLine c
              (hSplit ▸ List.mem_append_right _ hGapMem))
    · rcases Option.map_eq_some_iff.mp hEntry with
        ⟨path, hPath, rfl⟩
      refine ⟨plainEntry_solid path, ?_⟩
      intro c hMem
      exact .inl
        (hLine c (mem_of_mem_plainEntry hPath hMem))

------------------------------------------------------------
-- Roles of Written Lines
------------------------------------------------------------

/- A written declaration is recognized in the header. -/
theorem classify_declaration
    (hUsable : g.Usable)
    {name : Text}
    (hName : IsModuleName name) :
    g.classify .header (g.moduleKeyword ++ ' ' :: name) =
      (.moduleDeclaration name, .body) := by
  have hTrim :
      (g.moduleKeyword ++ ' ' :: name).trim =
        g.moduleKeyword ++ ' ' :: name :=
    (hUsable.moduleKeyword.space hName.solid).trim_eq
  have hFound :
      g.moduleName? (g.moduleKeyword ++ ' ' :: name) =
        some name := by
    rw [moduleName?_eq_some_iff]
    exact ⟨hName, [' '], [], isGap_space, by simp, by simp⟩
  simp [classify, hTrim, hFound]

/- A written opening of a block opens a block. -/
theorem opensBlock_opening
    (hUsable : g.Usable) :
    g.opensBlock
        (g.importKeyword ++ ' ' :: g.blockOpen).trim = true := by
  have hTrim :
      (g.importKeyword ++ ' ' :: g.blockOpen).trim =
        g.importKeyword ++ ' ' :: g.blockOpen :=
    (hUsable.importKeyword.space hUsable.blockOpen).trim_eq
  have hSpace :
      Text.trimStart (' ' :: g.blockOpen) = g.blockOpen := by
    have hBlank : ∀ c ∈ [' '], Text.isBlank c = true :=
      List.forall_mem_singleton.mpr (by decide)
    have hDrop :
        ([' '] ++ g.blockOpen).dropWhile Text.isBlank =
          g.blockOpen.dropWhile Text.isBlank :=
      List.dropWhile_append_of_pos hBlank
    exact hDrop.trans
      (Text.trimStart_of_tight hUsable.blockOpen.tight)
  have hNothing :
      Text.after? g.blockOpen g.blockOpen = some [] := by
    simpa using Text.after?_append g.blockOpen []
  have hEnd : Text.trimStart [] = [] := rfl
  simp [hTrim, opensBlock, Text.after?_append, hSpace,
    hNothing, hEnd]

/- The closing token ends a block. -/
theorem classify_closes
    {line : Text}
    (hClose : line.trim = g.blockClose) :
    g.classify .importBlock line = (.blockClose, .body) := by
  simp [classify, hClose]

/- Any other line of a block is an entry. -/
theorem classify_entry
    {line : Text}
    (hEntry : line.trim ≠ g.blockClose) :
    g.classify .importBlock line =
      (.blockEntry line.trim, .importBlock) := by
  simp [classify, hEntry]

------------------------------------------------------------
-- Plain Lines
------------------------------------------------------------

/- The role of a line that belongs to the code. -/
def plainRole
    (line : Text) : LineRole :=
  if line.trim.isEmpty then .blank else .code

/- A line outside blocks that belongs to the code. -/
structure IsPlain
    (g : LineGrammar)
    (line : Text) : Prop where
  opensNone : g.opensBlock line.trim = false
  importsNone : g.singleImport? line.trim = none

theorem isPlain_trimEnd
    {line : Text}
    (hPlain : g.IsPlain line) :
    g.IsPlain line.trimEnd := by
  refine ⟨?_, ?_⟩
  · rw [line.trim_trimEnd]
    exact hPlain.opensNone
  · rw [line.trim_trimEnd]
    exact hPlain.importsNone

/- An empty line is plain. -/
theorem isPlain_nil
    (hUsable : g.Usable) :
    g.IsPlain [] := by
  have hNone : Text.after? g.importKeyword [] = none :=
    Text.after?_nil hUsable.importKeyword.nonempty
  have hTrim : Text.trim [] = [] := rfl
  refine ⟨?_, ?_⟩
  · simp [hTrim, opensBlock, hNone]
  · simp [hTrim, singleImport?, hNone]

/- A line that opens a block is recognized in the body. -/
theorem classify_opens
    (hUsable : g.Usable)
    {line : Text}
    (hOpens : g.opensBlock line.trim = true) :
    g.classify .body line = (.blockOpen, .importBlock) := by
  have hNotBlank : line.trim ≠ [] := by
    intro hBlank
    have hPlain := (isPlain_nil hUsable).opensNone
    rw [hBlank, ← Text.trim_nil, hPlain] at hOpens
    cases hOpens
  simp [classify, classifyBody, hNotBlank, hOpens]

/- So is a line that imports. -/
theorem classify_imports
    (hUsable : g.Usable)
    {line entry : Text}
    (hOpens : g.opensBlock line.trim = false)
    (hEntry : g.singleImport? line.trim = some entry) :
    g.classify .body line = (.singleImport entry, .body) := by
  have hNotBlank : line.trim ≠ [] := by
    intro hBlank
    have hPlain := (isPlain_nil hUsable).importsNone
    rw [hBlank, ← Text.trim_nil, hPlain] at hEntry
    cases hEntry
  simp [classify, classifyBody, hNotBlank, hOpens, hEntry]

/- Any other line belongs to the code. -/
theorem classify_plain
    {line : Text}
    (hPlain : g.IsPlain line) :
    g.classify .body line = (plainRole line, .body) := by
  by_cases hBlank : line.trim = []
  · simp [classify, plainRole, hBlank]
  · simp [classify, classifyBody, plainRole, hBlank,
      hPlain.opensNone, hPlain.importsNone]

end LineGrammar

end Collate
