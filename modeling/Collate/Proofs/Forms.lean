import Collate.Proofs.Source
import Mathlib.Logic.IsEmpty.Basic

/-
  The grammar of lines.  A line that declares a module, opens
  a block of imports or is an import has the parts that its
  form asks for, and it can be taken apart in one way only.
  The roles that lines are given are those of this grammar.

  Key definitions include:
    * `LineGrammar.Declaration`
    * `LineGrammar.Opening`
    * `LineGrammar.SingleImport`
    * `LineGrammar.Assigns`

  Main declarations:
    * `LineGrammar.moduleName?_eq_some_iff_parts`
    * `LineGrammar.opensBlock_iff`
    * `LineGrammar.singleImport?_eq_some_iff`
    * `LineGrammar.exists_assigns`
    * `LineGrammar.classify_eq_iff`
-/

------------------------------------------------------------
-- Declarations
------------------------------------------------------------

namespace Collate

namespace LineGrammar

variable {g : LineGrammar}
variable {t : Text}

/- Nothing is found where no parts can be found. -/
theorem eq_none_iff_isEmpty
    {α P : Type}
    {found : Option α}
    {value : P → α}
    (hFound :
      ∀ a, found = some a ↔ ∃ parts, value parts = a) :
    found = none ↔ IsEmpty P := by
  rw [Option.eq_none_iff_forall_ne_some, isEmpty_iff]
  constructor
  · intro hNone parts
    exact hNone (value parts) ((hFound _).mpr ⟨parts, rfl⟩)
  · intro hEmpty a hSome
    rcases (hFound a).mp hSome with ⟨parts, -⟩
    exact hEmpty parts

/- A module declaration and its parts. -/
@[ext] structure Declaration
    (g : LineGrammar)
    (t : Text) where
  gap : Text
  name : Text
  rest : Text
  isGap : IsGap gap
  isName : IsModuleName name
  ends :
    ∀ c, rest.head? = some c → Text.isBlank c = true ∨ c = ';'
  whole : t = g.moduleKeyword ++ (gap ++ (name ++ rest))

theorem inModuleName_eq_false_iff
    {c : Char} :
    inModuleName c = false ↔
      Text.isBlank c = true ∨ c = ';' := by
  unfold inModuleName
  rw [Bool.and_eq_false_iff, Bool.not_eq_false',
    bne_eq_false_iff_eq]

/- The name that is found is the name among the parts. -/
theorem moduleName?_eq_some_iff_parts
    {name : Text} :
    g.moduleName? t = some name ↔
      ∃ parts : g.Declaration t, parts.name = name := by
  rw [moduleName?_eq_some_iff]
  constructor
  · rintro ⟨hName, gap, rest, hGap, hWhole, hEnds⟩
    refine ⟨⟨gap, name, rest, hGap, hName, ?_, hWhole⟩, rfl⟩
    intro c hFirst
    exact inModuleName_eq_false_iff.mp (hEnds c hFirst)
  · rintro ⟨parts, rfl⟩
    refine
      ⟨parts.isName, parts.gap, parts.rest, parts.isGap,
        parts.whole, ?_⟩
    intro c hFirst
    exact inModuleName_eq_false_iff.mpr (parts.ends c hFirst)

theorem moduleName?_eq_none_iff :
    g.moduleName? t = none ↔ IsEmpty (g.Declaration t) :=
  eq_none_iff_isEmpty fun _ => moduleName?_eq_some_iff_parts

/- A declaration has its parts in one way only. -/
theorem Declaration.unique
    (a b : g.Declaration t) :
    a = b := by
  have hWhole := a.whole.symm.trans b.whole
  rw [List.append_cancel_left_eq] at hWhole
  rcases Edges.longest_unique a.isGap.blank
      (a.isName.solid.first_append a.rest) b.isGap.blank
      (b.isName.solid.first_append b.rest) hWhole with
    ⟨hGap, hBehind⟩
  rcases Edges.longest_unique a.isName.letters
      (fun c hFirst =>
        inModuleName_eq_false_iff.mpr (a.ends c hFirst))
      b.isName.letters
      (fun c hFirst =>
        inModuleName_eq_false_iff.mpr (b.ends c hFirst))
      hBehind with
    ⟨hName, hRest⟩
  exact Declaration.ext hGap hName hRest

------------------------------------------------------------
-- Openings
------------------------------------------------------------

/- A comment behind other tokens, or nothing. -/
def remarkText
    (g : LineGrammar) : Option Text → Text
  | none => []
  | some text => g.comment ++ text

/- The opening of a block of imports and its parts. -/
@[ext] structure Opening
    (g : LineGrammar)
    (t : Text) where
  gap : Text
  space : Text
  -- What the comment at the end says, if there is one.
  remark : Option Text
  gapBlank : ∀ c ∈ gap, Text.isBlank c = true
  spaceBlank : ∀ c ∈ space, Text.isBlank c = true
  marked : ∀ text, remark = some text → g.comment ≠ []
  whole :
    t =
      g.importKeyword ++
        (gap ++
          (g.blockOpen ++ (space ++ g.remarkText remark)))

theorem isComment_iff :
    g.isComment t = true ↔
      g.comment ≠ [] ∧ g.comment <+: t := by
  simp [isComment, Text.startsWith_iff]

/- A comment that is allowed does not begin with a blank. -/
theorem first_remarkText
    (hComment : Edges.Tight Text.isBlank g.comment)
    {remark : Option Text}
    (hMarked : ∀ text, remark = some text → g.comment ≠ []) :
    ∀ c, (g.remarkText remark).head? = some c →
      Text.isBlank c = false := by
  cases remark with
  | none => simp [remarkText]
  | some text =>
      have hSolid : g.comment.Solid :=
        ⟨hMarked text rfl, hComment⟩
      exact hSolid.first_append text

/- A line that opens a block has the parts of an opening. -/
theorem exists_opening
    (hOpens : g.opensBlock t = true) :
    Nonempty (g.Opening t) := by
  unfold opensBlock at hOpens
  split at hOpens
  · cases hOpens
  · rename_i behind hBehind
    split at hOpens
    · cases hOpens
    · rename_i found hFound
      have hGap :
          ∀ c ∈ behind.takeWhile Text.isBlank,
            Text.isBlank c = true :=
        fun c hMem => List.mem_takeWhile_imp hMem
      have hSpace :
          ∀ c ∈ found.takeWhile Text.isBlank,
            Text.isBlank c = true :=
        fun c hMem => List.mem_takeWhile_imp hMem
      -- Only what stands behind the last blanks is open.
      have hWhole :
          t =
            g.importKeyword ++
              (behind.takeWhile Text.isBlank ++
                (g.blockOpen ++
                  (found.takeWhile Text.isBlank ++
                    found.trimStart))) := by
        rw [Text.trimStart, List.takeWhile_append_dropWhile,
          ← Text.after?_eq_some_iff.mp hFound,
          Text.trimStart, List.takeWhile_append_dropWhile]
        exact Text.after?_eq_some_iff.mp hBehind
      simp only [Bool.or_eq_true, List.isEmpty_iff,
        Bool.and_eq_true, isComment_iff] at hOpens
      rcases hOpens with hNothing | ⟨⟨hMark, hStarts⟩, -⟩
      · rw [hNothing] at hWhole
        exact
          ⟨⟨_, _, none, hGap, hSpace, by simp, hWhole⟩⟩
      · rcases hStarts with ⟨text, hText⟩
        rw [← hText] at hWhole
        exact
          ⟨⟨_, _, some text, hGap, hSpace, fun _ _ => hMark,
            hWhole⟩⟩

/- A line on its own opens a block if it has these parts. -/
theorem opensBlock_iff
    (hUsable : g.Usable)
    (hComment : Edges.Tight Text.isBlank g.comment)
    (hFeed : '\n' ∉ t) :
    g.opensBlock t = true ↔ Nonempty (g.Opening t) := by
  refine ⟨exists_opening, ?_⟩
  rintro ⟨parts⟩
  have hOpen :
      Text.trimStart
          (parts.gap ++
            (g.blockOpen ++
              (parts.space ++ g.remarkText parts.remark))) =
        g.blockOpen ++
          (parts.space ++ g.remarkText parts.remark) :=
    Edges.dropWhile_of_longest parts.gapBlank
      (hUsable.blockOpen.first_append _)
  have hRemark :
      Text.trimStart
          (parts.space ++ g.remarkText parts.remark) =
        g.remarkText parts.remark :=
    Edges.dropWhile_of_longest parts.spaceBlank
      (first_remarkText hComment parts.marked)
  have hClear : '\n' ∉ g.remarkText parts.remark := by
    intro hMem
    apply hFeed
    rw [parts.whole]
    simp [hMem]
  unfold opensBlock
  conv_lhs => rw [parts.whole]
  simp only [Text.after?_append, hOpen, hRemark]
  cases hText : parts.remark with
  | none => rfl
  | some text =>
      rw [hText] at hClear
      have hMark := parts.marked text hText
      have hStarts : g.isComment (g.comment ++ text) = true :=
        isComment_iff.mpr ⟨hMark, List.prefix_append _ _⟩
      have hClear : '\n' ∉ text := by
        intro hMem
        exact hClear (List.mem_append_right _ hMem)
      simp [remarkText, hStarts, hClear]

/- An opening has its parts in one way only. -/
theorem Opening.unique
    (hUsable : g.Usable)
    (hComment : Edges.Tight Text.isBlank g.comment)
    (a b : g.Opening t) :
    a = b := by
  have hWhole := a.whole.symm.trans b.whole
  rw [List.append_cancel_left_eq] at hWhole
  rcases Edges.longest_unique a.gapBlank
      (hUsable.blockOpen.first_append _) b.gapBlank
      (hUsable.blockOpen.first_append _) hWhole with
    ⟨hGap, hBehind⟩
  rw [List.append_cancel_left_eq] at hBehind
  rcases Edges.longest_unique a.spaceBlank
      (first_remarkText hComment a.marked) b.spaceBlank
      (first_remarkText hComment b.marked) hBehind with
    ⟨hSpace, hText⟩
  have hRemark : a.remark = b.remark := by
    have hMarkA := a.marked
    have hMarkB := b.marked
    cases hA : a.remark with
    | none =>
        cases hB : b.remark with
        | none => rfl
        | some text => simp_all [remarkText]
    | some text =>
        cases hB : b.remark with
        | none => simp_all [remarkText]
        | some other => simp_all [remarkText]
  exact Opening.ext hGap hSpace hRemark

------------------------------------------------------------
-- Imports on One Line
------------------------------------------------------------

/- An alias and the blanks behind it. -/
@[ext] structure Alias where
  name : Text
  gap : Text
  isAlias : IsAlias name
  isGap : IsGap gap

namespace Alias

/- An alias as it is written, if there is one. -/
def text : Option Alias → Text
  | none => []
  | some a => a.name ++ a.gap

/- The entry that a path stands for. -/
def entry
    (path : Text) : Option Alias → Text
  | none => plainEntry path
  | some a => aliasEntry a.name path

end Alias

/- An import on one line and its parts. -/
@[ext] structure SingleImport
    (g : LineGrammar)
    (t : Text) where
  gap : Text
  named : Option Alias
  path : Text
  rest : Text
  isGap : IsGap gap
  nonempty : path ≠ []
  noQuote : '"' ∉ path
  whole :
    t =
      g.importKeyword ++
        (gap ++
          (Alias.text named ++
            '"' :: (path ++ '"' :: rest)))

/- The entry of an import on one line. -/
def SingleImport.entry
    (parts : g.SingleImport t) : Text :=
  Alias.entry parts.path parts.named

/- What follows the blanks of an import is not blank. -/
theorem first_aliasText
    (named : Option Alias)
    (quoted : Text) :
    ∀ c, (Alias.text named ++ '"' :: quoted).head? = some c →
      Text.isBlank c = false := by
  cases named with
  | none =>
      intro c hFirst
      cases hFirst
      decide
  | some a =>
      rw [Alias.text, List.append_assoc]
      exact a.isAlias.solid.first_append _

/- An alias is found with what stands behind its blanks. -/
theorem alias?_text
    (a : Alias)
    (quoted : Text) :
    alias? (Alias.text (some a) ++ '"' :: quoted) =
      some (a.name, '"' :: quoted) := by
  have hQuote : Text.isBlank '"' = false := by decide
  rw [alias?_eq_some_iff]
  refine
    ⟨a.isAlias, a.gap ++ '"' :: quoted, by simp [Alias.text],
      ?_⟩
  rw [afterBlanks?_eq_some_iff]
  exact ⟨⟨a.gap, a.isGap, rfl⟩, by simpa using hQuote⟩

/- There is no alias before a path. -/
theorem alias?_quote
    (quoted : Text) :
    alias? ('"' :: quoted) = none := by
  have hQuote : beginsAlias '"' = false := by decide
  simp [alias?, hQuote]

/- The entry that is found is the entry of the parts. -/
theorem singleImport?_eq_some_iff
    {entry : Text} :
    g.singleImport? t = some entry ↔
      ∃ parts : g.SingleImport t, parts.entry = entry := by
  constructor
  · intro hEntry
    unfold singleImport? at hEntry
    split at hEntry
    · cases hEntry
    · rename_i found hFound
      rcases Option.bind_eq_some_iff.mp hFound with
        ⟨behind, hBehind, hBlanks⟩
      rcases afterBlanks?_eq_some_iff.mp hBlanks with
        ⟨⟨gap, hGap, rfl⟩, -⟩
      have hWhole := Text.after?_eq_some_iff.mp hBehind
      split at hEntry
      · rename_i name after hAlias
        rcases Option.map_eq_some_iff.mp hEntry with
          ⟨path, hPath, rfl⟩
        rcases alias?_eq_some_iff.mp hAlias with
          ⟨hName, behind, rfl, hAfter⟩
        rcases afterBlanks?_eq_some_iff.mp hAfter with
          ⟨⟨space, hSpace, rfl⟩, -⟩
        rcases quotedPath?_eq_some_iff.mp hPath with
          ⟨hNonempty, hQuote, rest, rfl⟩
        refine
          ⟨⟨gap, some ⟨name, space, hName, hSpace⟩, path,
            rest, hGap, hNonempty, hQuote, ?_⟩, rfl⟩
        simpa [Alias.text] using hWhole
      · rcases Option.map_eq_some_iff.mp hEntry with
          ⟨path, hPath, rfl⟩
        rcases quotedPath?_eq_some_iff.mp hPath with
          ⟨hNonempty, hQuote, rest, rfl⟩
        exact
          ⟨⟨gap, none, path, rest, hGap, hNonempty, hQuote,
            hWhole⟩, rfl⟩
  · rintro ⟨parts, rfl⟩
    rcases parts with
      ⟨gap, named, path, rest, hGap, hNonempty, hQuote, rfl⟩
    have hBlanks :=
      afterBlanks?_eq_some_iff.mpr
        ⟨⟨gap, hGap, rfl⟩,
          first_aliasText named (path ++ '"' :: rest)⟩
    have hPath :
        quotedPath? ('"' :: (path ++ '"' :: rest)) =
          some path :=
      quotedPath?_eq_some_iff.mpr
        ⟨hNonempty, hQuote, rest, rfl⟩
    unfold singleImport?
    simp only [Text.after?_append, Option.bind_some, hBlanks]
    cases named with
    | none =>
        simp [Alias.text, alias?_quote, hPath,
          SingleImport.entry, Alias.entry]
    | some a =>
        simp [alias?_text, hPath, SingleImport.entry,
          Alias.entry]

theorem singleImport?_eq_none_iff :
    g.singleImport? t = none ↔
      IsEmpty (g.SingleImport t) :=
  eq_none_iff_isEmpty fun _ => singleImport?_eq_some_iff

/- The alias before a path is found in one way only. -/
theorem aliasText_unique
    {named named' : Option Alias}
    {quoted quoted' : Text}
    (hSame :
      Alias.text named ++ '"' :: quoted =
        Alias.text named' ++ '"' :: quoted') :
    named = named' ∧ quoted = quoted' := by
  have hFound := congrArg alias? hSame
  cases named with
  | none =>
      cases named' with
      | none => exact ⟨rfl, by simpa [Alias.text] using hSame⟩
      | some b =>
          rw [alias?_text] at hFound
          simp [Alias.text, alias?_quote] at hFound
  | some a =>
      cases named' with
      | none =>
          rw [alias?_text] at hFound
          simp [Alias.text, alias?_quote] at hFound
      | some b =>
          rw [alias?_text, alias?_text] at hFound
          simp only [Option.some.injEq, Prod.mk.injEq,
            List.cons.injEq, true_and] at hFound
          rcases hFound with ⟨hName, rfl⟩
          have hGap : a.gap = b.gap := by
            simpa [Alias.text, hName] using hSame
          exact ⟨congrArg some (Alias.ext hName hGap), rfl⟩

/- An import on one line has its parts in one way only. -/
theorem SingleImport.unique
    (a b : g.SingleImport t) :
    a = b := by
  have hWhole := a.whole.symm.trans b.whole
  rw [List.append_cancel_left_eq] at hWhole
  rcases Edges.longest_unique a.isGap.blank
      (first_aliasText a.named _) b.isGap.blank
      (first_aliasText b.named _) hWhole with
    ⟨hGap, hBehind⟩
  rcases aliasText_unique hBehind with ⟨hNamed, hQuoted⟩
  -- A path goes up to the first quote.
  have hInside :
      ∀ parts : g.SingleImport t, ∀ c ∈ parts.path,
        (c != '"') = true := by
    intro parts c hMem
    have hOther : c ≠ '"' := by
      rintro rfl
      exact parts.noQuote hMem
    simpa using hOther
  rcases Edges.longest_unique (hInside a) (by simp) (hInside b)
      (by simp) hQuoted with
    ⟨hPath, hEnd⟩
  exact
    SingleImport.ext hGap hNamed hPath (List.cons.inj hEnd).2

------------------------------------------------------------
-- Roles by Form
------------------------------------------------------------

/-
  A line is looked at as code or imports in the body, and in
  the header if it is neither a declaration nor a comment.
-/
def Passes
    (g : LineGrammar)
    (t : Text) : Region → Prop
  | .header =>
      IsEmpty (g.Declaration t) ∧
        ¬ (g.comment ≠ [] ∧ g.comment <+: t)
  | .body => True
  | .importBlock => False

/-
  The role that the grammar gives to a trimmed line in a
  region, and the region after it.
-/
inductive Assigns
    (g : LineGrammar)
    (t : Text) : Region → LineRole → Region → Prop where
  | closing
      (hClose : t = g.blockClose) :
      Assigns g t .importBlock .blockClose .body
  | entry
      (hOther : t ≠ g.blockClose) :
      Assigns g t .importBlock (.blockEntry t) .importBlock
  | blank
      {region : Region}
      (hOutside : region ≠ .importBlock)
      (hBlank : t = []) :
      Assigns g t region .blank region
  | declaration
      (parts : g.Declaration t) :
      Assigns g t .header (.moduleDeclaration parts.name) .body
  | comment
      (hNotBlank : t ≠ [])
      (hNone : IsEmpty (g.Declaration t))
      (hMark : g.comment ≠ [])
      (hStarts : g.comment <+: t) :
      Assigns g t .header .headerComment .header
  | opening
      {region : Region}
      (hPasses : g.Passes t region)
      (parts : g.Opening t) :
      Assigns g t region .blockOpen .importBlock
  | single
      {region : Region}
      (hPasses : g.Passes t region)
      (hNone : IsEmpty (g.Opening t))
      (parts : g.SingleImport t) :
      Assigns g t region (.singleImport parts.entry) .body
  | code
      {region : Region}
      (hNotBlank : t ≠ [])
      (hPasses : g.Passes t region)
      (hNone : IsEmpty (g.Opening t))
      (hNoImport : IsEmpty (g.SingleImport t)) :
      Assigns g t region .code .body

/- A line that is looked at so has some role. -/
theorem exists_assigns_of_passes
    (hNotBlank : t ≠ [])
    {region : Region}
    (hPasses : g.Passes t region) :
    ∃ role next, g.Assigns t region role next := by
  rcases isEmpty_or_nonempty (g.Opening t) with hNone | hOpens
  · rcases isEmpty_or_nonempty (g.SingleImport t) with
      hNoImport | hImports
    · exact ⟨_, _, .code hNotBlank hPasses hNone hNoImport⟩
    · rcases hImports with ⟨parts⟩
      exact ⟨_, _, .single hPasses hNone parts⟩
  · rcases hOpens with ⟨parts⟩
    exact ⟨_, _, .opening hPasses parts⟩

/- The grammar gives every line a role in every region. -/
theorem exists_assigns
    (g : LineGrammar)
    (t : Text)
    (region : Region) :
    ∃ role next, g.Assigns t region role next := by
  cases region with
  | importBlock =>
      by_cases hClose : t = g.blockClose
      · exact ⟨_, _, .closing hClose⟩
      · exact ⟨_, _, .entry hClose⟩
  | body =>
      by_cases hBlank : t = []
      · exact ⟨_, _, .blank (by simp) hBlank⟩
      · exact exists_assigns_of_passes hBlank trivial
  | header =>
      by_cases hBlank : t = []
      · exact ⟨_, _, .blank (by simp) hBlank⟩
      · rcases isEmpty_or_nonempty (g.Declaration t) with
          hNone | hDeclares
        · by_cases hComment :
              g.comment ≠ [] ∧ g.comment <+: t
          · exact
              ⟨_, _,
                .comment hBlank hNone hComment.1 hComment.2⟩
          · exact
              exists_assigns_of_passes hBlank ⟨hNone, hComment⟩
        · rcases hDeclares with ⟨parts⟩
          exact ⟨_, _, .declaration parts⟩

/- A line that is looked at so is treated as in the body. -/
theorem classify_of_passes
    {line : Text}
    (hNotBlank : line.trim ≠ [])
    {region : Region}
    (hPasses : g.Passes line.trim region) :
    g.classify region line = g.classify .body line := by
  cases region with
  | importBlock => exact hPasses.elim
  | body => rfl
  | header =>
      have hNone := moduleName?_eq_none_iff.mpr hPasses.1
      have hComment : g.isComment line.trim = false := by
        rw [← Bool.not_eq_true, isComment_iff]
        exact hPasses.2
      have hLeaves : g.keepsHeader line = false := by
        simp [keepsHeader, hNotBlank, hComment]
      exact classify_leaves hLeaves hNone

/- The role of a line is the one that the grammar gives it. -/
theorem classify_of_assigns
    (hUsable : g.Usable)
    (hComment : Edges.Tight Text.isBlank g.comment)
    {line : Text}
    (hFeed : '\n' ∉ line)
    {region next : Region}
    {role : LineRole}
    (hAssigns : g.Assigns line.trim region role next) :
    g.classify region line = (role, next) := by
  have hOpens :
      g.opensBlock line.trim = true ↔
        Nonempty (g.Opening line.trim) :=
    opensBlock_iff hUsable hComment fun hMem =>
      hFeed (Text.mem_of_mem_trim hMem)
  have hCloses :
      IsEmpty (g.Opening line.trim) →
        g.opensBlock line.trim = false := by
    intro hNone
    rw [← Bool.not_eq_true, hOpens, not_nonempty_iff]
    exact hNone
  cases hAssigns with
  | closing hClose => exact classify_closes hClose
  | entry hOther => exact classify_entry hOther
  | blank hOutside hBlank =>
      cases region with
      | importBlock => exact absurd rfl hOutside
      | body | header => simp [classify, hBlank]
  | declaration parts =>
      exact classify_declares hUsable
        (moduleName?_eq_some_iff_parts.mpr ⟨parts, rfl⟩)
  | comment hNotBlank hNone hMark hStarts =>
      have hNone := moduleName?_eq_none_iff.mpr hNone
      have hStarts := isComment_iff.mpr ⟨hMark, hStarts⟩
      simp [classify, hNotBlank, hNone, hStarts]
  | opening hPasses parts =>
      have hFound := hOpens.mpr ⟨parts⟩
      have hNotBlank : line.trim ≠ [] := by
        rw [parts.whole]
        simp [hUsable.importKeyword.nonempty]
      rw [classify_of_passes hNotBlank hPasses]
      exact classify_opens hUsable hFound
  | single hPasses hNone parts =>
      have hFound :=
        singleImport?_eq_some_iff.mpr ⟨parts, rfl⟩
      have hNotBlank : line.trim ≠ [] := by
        rw [parts.whole]
        simp [hUsable.importKeyword.nonempty]
      rw [classify_of_passes hNotBlank hPasses]
      exact classify_imports hUsable (hCloses hNone) hFound
  | code hNotBlank hPasses hNone hNoImport =>
      have hPlain : g.IsPlain line :=
        ⟨hCloses hNone, singleImport?_eq_none_iff.mpr hNoImport⟩
      rw [classify_of_passes hNotBlank hPasses,
        classify_plain hPlain]
      simp [plainRole, hNotBlank]

/-
  In every region a line has the role that the grammar gives
  it, and no other.  A declaration, an opening and an import
  on one line each have their parts in one way only.
-/
theorem classify_eq_iff
    {d : Dialect}
    (hAccept : d.accept = .ok g)
    (line : Text)
    (hFeed : '\n' ∉ line) :
    (∀ region role next,
        g.classify region line = (role, next) ↔
          g.Assigns line.trim region role next) ∧
      (∀ a b : g.Declaration line.trim, a = b) ∧
      (∀ a b : g.Opening line.trim, a = b) ∧
      ∀ a b : g.SingleImport line.trim, a = b := by
  have hUsable := Dialect.usable_of_accept hAccept
  have hComment : Edges.Tight Text.isBlank g.comment := by
    rcases Dialect.accept_eq_ok_iff.mp hAccept with ⟨-, rfl⟩
    exact Text.tight_trim d.commentMark
  refine
    ⟨?_, Declaration.unique, Opening.unique hUsable hComment,
      SingleImport.unique⟩
  intro region role next
  constructor
  · intro hClassify
    -- Some role is given, and it is the one that was found.
    rcases g.exists_assigns line.trim region with
      ⟨given, after, hGiven⟩
    have hFound :=
      classify_of_assigns hUsable hComment hFeed hGiven
    rw [hClassify] at hFound
    cases hFound
    exact hGiven
  · intro hAssigns
    exact classify_of_assigns hUsable hComment hFeed hAssigns

/- A dialect in which a path in quotes opens a block. -/
def quotedOpening : Dialect :=
  { Dialect.go with
    importKeyword := " use".toList
    blockOpen := "\"q\"".toList
    commentMark := "# ".toList }

def openingLine : Text :=
  "use  \"q\" # r".toList

def aliasLine : Text :=
  "\tuse _x \"q\"; # r ".toList

/- The same path opens a block or is imported by an alias. -/
theorem classify_eq_iff_quotedOpening :
    quotedOpening.accept = .ok quotedOpening.grammar ∧
      quotedOpening.grammar.Assigns openingLine.trim .header
        .blockOpen .importBlock ∧
      quotedOpening.grammar.Assigns aliasLine.trim .body
        (.singleImport "_x \"q\"".toList) .body ∧
      ∀ a b :
          quotedOpening.grammar.SingleImport aliasLine.trim,
        a = b := by
  have hAccept :
      quotedOpening.accept = .ok quotedOpening.grammar := rfl
  have hOpening :=
    classify_eq_iff hAccept openingLine (by decide)
  have hAlias := classify_eq_iff hAccept aliasLine (by decide)
  refine ⟨hAccept, ?_, ?_, hAlias.2.2.2⟩
  · rw [← hOpening.1]
    decide +kernel
  · rw [← hAlias.1]
    decide +kernel

end LineGrammar

end Collate
