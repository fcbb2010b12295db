import Collate.Proofs.Forms

/-
  What stands behind the name of a module declaration, or
  behind the path of an import on one line.  It is not looked
  at: a line is recognized by what stands before it, and the
  file is read as if it were not there.  So nothing but a
  comment is lost exactly if nothing but a comment is there.

  Key definitions include:
    * `LineGrammar.Ends`
    * `LineGrammar.Recognizes`
    * `LineGrammar.LosesNothing`

  Main declarations:
    * `LineGrammar.ends_iff`
    * `LineGrammar.classify_of_recognizes`
    * `LineGrammar.exists_recognizes`
    * `LineGrammar.losesNothing_iff`
    * `Source.read_of_recognizes`
    * `Source.losesNothing_iff_ends`
-/

------------------------------------------------------------
-- Ends of Lines
------------------------------------------------------------

namespace Collate

/- A text and the blanks that it begins with. -/
theorem Text.takeWhile_append_trimStart
    (t : Text) :
    t.takeWhile Text.isBlank ++ t.trimStart = t :=
  List.takeWhile_append_dropWhile

namespace LineGrammar

variable {g : LineGrammar}
variable {t : Text}

/-
  A text that only ends a line: a semicolon or none, a comment
  or none, and blanks around them.
-/
def Ends
    (g : LineGrammar)
    (rest : Text) : Prop :=
  ∃ space stop gap remark,
    (∀ c ∈ space, Text.isBlank c = true) ∧
      (stop = [] ∨ stop = [';']) ∧
      (∀ c ∈ gap, Text.isBlank c = true) ∧
      (∀ text, remark = some text → g.comment ≠ []) ∧
      rest = space ++ (stop ++ (gap ++ g.remarkText remark))

/- Whether there is nothing but a comment. -/
def isRemark
    (g : LineGrammar)
    (t : Text) : Bool :=
  t.isEmpty || g.isComment t

theorem isRemark_iff :
    g.isRemark t = true ↔
      ∃ remark,
        (∀ text, remark = some text → g.comment ≠ []) ∧
          t = g.remarkText remark := by
  simp only [isRemark, Bool.or_eq_true, List.isEmpty_iff,
    isComment_iff]
  constructor
  · rintro (hNothing | ⟨hMark, text, hText⟩)
    · exact ⟨none, by simp, hNothing⟩
    · exact ⟨some text, fun _ _ => hMark, hText.symm⟩
  · rintro ⟨remark, hMarked, rfl⟩
    cases remark with
    | none => exact .inl rfl
    | some text =>
        exact
          .inr ⟨hMarked text rfl, List.prefix_append _ _⟩

/- Whether a text only ends a line. -/
def ends
    (g : LineGrammar)
    (rest : Text) : Bool :=
  g.isRemark rest.trimStart ||
    (Text.after? [';'] rest.trimStart).any
      fun behind => g.isRemark behind.trimStart

theorem ends_iff
    (hComment : Edges.Tight Text.isBlank g.comment)
    {rest : Text} :
    g.ends rest = true ↔ g.Ends rest := by
  simp only [ends, Bool.or_eq_true, Option.any_eq_true,
    Text.after?_eq_some_iff]
  constructor
  · rintro (hRemark | ⟨behind, hStop, hRemark⟩)
    · rcases isRemark_iff.mp hRemark with
        ⟨remark, hMarked, hText⟩
      refine
        ⟨rest.takeWhile Text.isBlank, [], [], remark,
          fun _ hMem => List.mem_takeWhile_imp hMem, .inl rfl,
          by simp, hMarked, ?_⟩
      rw [List.nil_append, List.nil_append, ← hText,
        Text.takeWhile_append_trimStart]
    · rcases isRemark_iff.mp hRemark with
        ⟨remark, hMarked, hText⟩
      refine
        ⟨rest.takeWhile Text.isBlank, [';'],
          behind.takeWhile Text.isBlank, remark,
          fun _ hMem => List.mem_takeWhile_imp hMem, .inr rfl,
          fun _ hMem => List.mem_takeWhile_imp hMem, hMarked,
          ?_⟩
      rw [← hText, Text.takeWhile_append_trimStart, ← hStop,
        Text.takeWhile_append_trimStart]
  · rintro
      ⟨space, stop, gap, remark, hSpace, hStop, hGap, hMarked,
        rfl⟩
    have hFirst := first_remarkText hComment hMarked
    have hRemark : g.isRemark (g.remarkText remark) = true :=
      isRemark_iff.mpr ⟨remark, hMarked, rfl⟩
    have hBehind :
        Text.trimStart (gap ++ g.remarkText remark) =
          g.remarkText remark :=
      Edges.dropWhile_of_longest hGap hFirst
    rcases hStop with rfl | rfl
    · -- The blanks on both sides of no semicolon are one gap.
      have hBlanks :
          Text.trimStart (space ++ (gap ++ g.remarkText remark)) =
            g.remarkText remark :=
        (List.dropWhile_append_of_pos hSpace).trans hBehind
      rw [List.nil_append, hBlanks]
      exact .inl hRemark
    · have hBlanks :
          Text.trimStart
              (space ++ ([';'] ++ (gap ++ g.remarkText remark))) =
            [';'] ++ (gap ++ g.remarkText remark) :=
        Edges.dropWhile_of_longest hSpace (by simp; decide)
      rw [hBlanks]
      refine .inr ⟨_, rfl, ?_⟩
      rw [hBehind]
      exact hRemark

/- Another character behind the blanks does not end a line. -/
theorem not_ends_of_first
    (hComment : Edges.Tight Text.isBlank g.comment)
    {space rest : Text}
    {c : Char}
    (hSpace : ∀ d ∈ space, Text.isBlank d = true)
    (hBlank : Text.isBlank c = false)
    (hStop : c ≠ ';')
    (hFirst : g.comment.head? ≠ some c) :
    ¬ g.Ends (space ++ c :: rest) := by
  have hStart :
      Text.trimStart (space ++ c :: rest) = c :: rest :=
    Edges.dropWhile_of_longest hSpace (by simpa using hBlank)
  rw [← ends_iff hComment]
  simp only [ends, hStart, isRemark, Bool.or_eq_true,
    List.isEmpty_iff, reduceCtorEq, false_or, isComment_iff,
    Option.any_eq_true, Text.after?_eq_some_iff]
  rintro (⟨hMark, hStarts⟩ | ⟨behind, hBehind, -⟩)
  · rcases hStarts with ⟨text, hText⟩
    apply hFirst
    rw [← List.head?_append_of_ne_nil _ hMark, hText]
    rfl
  · exact hStop (List.cons.inj hBehind).1

end LineGrammar

------------------------------------------------------------
-- Recognized Lines
------------------------------------------------------------

namespace LineRole

/- Whether a line can go on behind what gives it its role. -/
def leavesRest : LineRole → Bool
  | .moduleDeclaration _ | .singleImport _ => true
  | _ => false

end LineRole

namespace LineGrammar

variable {g : LineGrammar}
variable {t : Text}

@[simp] theorem leavesRest_plainRole
    (line : Text) :
    (plainRole line).leavesRest = false := by
  unfold plainRole
  split <;> rfl

/-
  A trimmed line that declares a module or is an import, with
  the role it has in a region and with what stands behind the
  name or the path.
-/
inductive Recognizes
    (g : LineGrammar)
    (t : Text) : Region → LineRole → Text → Prop where
  | declaration
      (parts : g.Declaration t) :
      Recognizes g t .header (.moduleDeclaration parts.name)
        parts.rest
  | single
      {region : Region}
      (hPasses : g.Passes t region)
      (hNone : g.opensBlock t = false)
      (parts : g.SingleImport t) :
      Recognizes g t region (.singleImport parts.entry)
        parts.rest

/- A line is recognized in one way only. -/
theorem Recognizes.unique
    {region : Region}
    {role role' : LineRole}
    {rest rest' : Text}
    (hA : g.Recognizes t region role rest)
    (hB : g.Recognizes t region role' rest') :
    role = role' ∧ rest = rest' := by
  cases hA with
  | declaration a =>
      cases hB with
      | declaration b =>
          rw [Declaration.unique a b]
          exact ⟨rfl, rfl⟩
      | single hPasses => exact (hPasses.1.false a).elim
  | single hPasses hNone a =>
      cases hB with
      | declaration b => exact (hPasses.1.false b).elim
      | single hPasses hNone b =>
          rw [SingleImport.unique a b]
          exact ⟨rfl, rfl⟩

/- A recognized line has its role, whatever stands behind. -/
theorem classify_of_recognizes
    (hUsable : g.Usable)
    {line rest : Text}
    {region : Region}
    {role : LineRole}
    (hRecognizes : g.Recognizes line.trim region role rest) :
    g.classify region line = (role, .body) := by
  cases hRecognizes with
  | declaration parts =>
      exact classify_declares hUsable
        (moduleName?_eq_some_iff_parts.mpr ⟨parts, rfl⟩)
  | single hPasses hNone parts =>
      have hNotBlank : line.trim ≠ [] := by
        rw [parts.whole]
        simp [hUsable.importKeyword.nonempty]
      rw [classify_of_passes hNotBlank hPasses]
      exact classify_imports hUsable hNone
        (singleImport?_eq_some_iff.mpr ⟨parts, rfl⟩)

/- Outside blocks, no other lines are imports. -/
theorem exists_recognizes_of_passes
    (hUsable : g.Usable)
    {line : Text}
    {region : Region}
    (hPasses : g.Passes line.trim region)
    (hRole : (g.classify .body line).1.leavesRest = true) :
    ∃ rest,
      g.Recognizes line.trim region (g.classify .body line).1
        rest := by
  cases hOpens : g.opensBlock line.trim with
  | true =>
      rw [classify_opens hUsable hOpens] at hRole
      cases hRole
  | false =>
      cases hEntry : g.singleImport? line.trim with
      | some entry =>
          rw [classify_imports hUsable hOpens hEntry]
          rcases singleImport?_eq_some_iff.mp hEntry with
            ⟨parts, rfl⟩
          exact ⟨_, .single hPasses hOpens parts⟩
      | none =>
          rw [classify_plain ⟨hOpens, hEntry⟩] at hRole
          simp at hRole

/- No other lines declare a module or are imports. -/
theorem exists_recognizes
    (hUsable : g.Usable)
    {line : Text}
    {region : Region}
    (hRole : (g.classify region line).1.leavesRest = true) :
    ∃ rest,
      g.Recognizes line.trim region (g.classify region line).1
        rest := by
  cases region with
  | importBlock =>
      by_cases hClose : line.trim = g.blockClose
      · rw [classify_closes hClose] at hRole
        cases hRole
      · rw [classify_entry hClose] at hRole
        cases hRole
  | body =>
      exact exists_recognizes_of_passes hUsable trivial hRole
  | header =>
      cases hName : g.moduleName? line.trim with
      | some name =>
          rw [classify_declares hUsable hName]
          rcases moduleName?_eq_some_iff_parts.mp hName with
            ⟨parts, rfl⟩
          exact ⟨_, .declaration parts⟩
      | none =>
          cases hKeeps : g.keepsHeader line with
          | true =>
              rcases classify_keepsHeader hKeeps with
                hSame | hSame
              · rw [hSame] at hRole
                cases hRole
              · rw [hSame] at hRole
                cases hRole
          | false =>
              rw [classify_leaves hKeeps hName] at hRole ⊢
              have hComment : g.isComment line.trim = false := by
                simp only [keepsHeader, hName,
                  Option.isNone_none, Bool.true_and,
                  Bool.or_eq_false_iff] at hKeeps
                exact hKeeps.2
              rw [← Bool.not_eq_true, isComment_iff] at hComment
              exact exists_recognizes_of_passes hUsable
                ⟨moduleName?_eq_none_iff.mp hName, hComment⟩
                hRole

/-
  Nothing but a comment is lost on a line: if it declares a
  module or is an import, then what stands behind the name or
  the path only ends the line.
-/
def LosesNothing
    (g : LineGrammar)
    (region : Region)
    (line : Text) : Prop :=
  match (g.classify region line).1 with
  | .moduleDeclaration name =>
      ∃ parts : g.Declaration line.trim,
        parts.name = name ∧ g.Ends parts.rest
  | .singleImport entry =>
      ∃ parts : g.SingleImport line.trim,
        parts.entry = entry ∧ g.Ends parts.rest
  | _ => True

theorem losesNothing_iff
    (hUsable : g.Usable)
    {region : Region}
    {line : Text} :
    g.LosesNothing region line ↔
      ∀ role rest,
        g.Recognizes line.trim region role rest →
          g.Ends rest := by
  unfold LosesNothing
  constructor
  · intro hLoses role rest hRecognizes
    rw [classify_of_recognizes hUsable hRecognizes] at hLoses
    cases hRecognizes with
    | declaration parts =>
        rcases hLoses with ⟨found, -, hEnds⟩
        rw [Declaration.unique parts found]
        exact hEnds
    | single hPasses hNone parts =>
        rcases hLoses with ⟨found, -, hEnds⟩
        rw [SingleImport.unique parts found]
        exact hEnds
  · intro hEnds
    have hFound :
        (g.classify region line).1.leavesRest = true →
          ∃ rest,
            g.Recognizes line.trim region
              (g.classify region line).1 rest :=
      exists_recognizes hUsable
    cases hRole : (g.classify region line).1 with
    | moduleDeclaration name =>
        rw [hRole] at hFound
        rcases hFound rfl with ⟨rest, hRecognizes⟩
        have hRest := hEnds _ _ hRecognizes
        cases hRecognizes with
        | declaration parts => exact ⟨parts, rfl, hRest⟩
    | singleImport entry =>
        rw [hRole] at hFound
        rcases hFound rfl with ⟨rest, hRecognizes⟩
        have hRest := hEnds _ _ hRecognizes
        cases hRecognizes with
        | single hPasses hNone parts =>
            exact ⟨parts, rfl, hRest⟩
    | blockOpen | blockClose | blockEntry | headerComment
    | code | blank => trivial

/-
  In every dialect some line loses more: a letter behind the
  declared name, with which no comment begins.
-/
theorem exists_not_losesNothing
    (hUsable : g.Usable)
    (hComment : Edges.Tight Text.isBlank g.comment) :
    ∃ line, ¬ g.LosesNothing .header line := by
  have hLetter :
      ∃ c, Text.isBlank c = false ∧ c ≠ ';' ∧
        g.comment.head? ≠ some c := by
    by_cases hFirst : g.comment.head? = some 'a'
    · exact
        ⟨'b', by decide, by decide, by rw [hFirst]; decide⟩
    · exact ⟨'a', by decide, by decide, hFirst⟩
  rcases hLetter with ⟨c, hBlank, hStop, hFirst⟩
  have hSolid : Text.Solid [c] :=
    ⟨by simp,
      Text.tight_of_noBlank
        (List.forall_mem_singleton.mpr hBlank)⟩
  have hName : IsModuleName ['p'] := .singleton (by decide)
  let line :=
    g.moduleKeyword ++ ([' '] ++ (['p'] ++ [' ', c]))
  have hTrim : line.trim = line := by
    have hWhole :
        line = g.moduleKeyword ++ " p ".toList ++ [c] := by
      simp [line]
    rw [hWhole]
    exact (hUsable.moduleKeyword.bridge _ hSolid).trim_eq
  refine ⟨line, ?_⟩
  rw [losesNothing_iff hUsable, hTrim]
  intro hEnds
  have hRest :=
    hEnds _ _
      (.declaration
        ⟨[' '], ['p'], [' ', c], isGap_space, hName,
          fun d hFirst => by cases hFirst; decide, rfl⟩)
  exact not_ends_of_first hComment isGap_space.blank hBlank
    hStop hFirst hRest

end LineGrammar

------------------------------------------------------------
-- Reading
------------------------------------------------------------

namespace Source

variable {g : LineGrammar}
variable {mark : Text}

/- What a recognized line says does not depend on the rest. -/
theorem contribute_of_recognizes
    {t rest : Text}
    {region : Region}
    {role : LineRole}
    (hRecognizes : g.Recognizes t region role rest)
    (line other : Text)
    (name : Option Text)
    (after : List (Text × LineRole)) :
    contribute mark name ((line, role) :: after) =
      contribute mark name ((other, role) :: after) := by
  cases hRecognizes with
  | declaration => rfl
  | single => rfl

/- A file is read without what stands behind such a line. -/
theorem read_of_recognizes
    (hUsable : g.Usable)
    {text text' line line' rest rest' : Text}
    {before after : List Text}
    {role : LineRole}
    (hText : text.lines = before ++ line :: after)
    (hText' : text'.lines = before ++ line' :: after)
    (hLine :
      g.Recognizes line.trim (g.regionAfter .header before)
        role rest)
    (hLine' :
      g.Recognizes line'.trim (g.regionAfter .header before)
        role rest') :
    read g mark text = read g mark text' := by
  have hCollect :
      collect g mark text.lines = collect g mark text'.lines := by
    rw [hText, hText', collect_append, collect_append]
    simp only [LineGrammar.roles,
      LineGrammar.classify_of_recognizes hUsable hLine,
      LineGrammar.classify_of_recognizes hUsable hLine',
      contribute_of_recognizes hLine line line']
  rw [read_of_collect rfl, read_of_collect rfl, hCollect]

/-
  Behind a declared name or the path of an import, nothing but
  a comment is lost exactly if nothing but a semicolon and a
  comment is there.  Whatever else is there, the file is read
  without it, and every dialect has a line that loses it.
-/
theorem losesNothing_iff_ends
    {d : Dialect}
    (hAccept : d.accept = .ok g) :
    (∀ region line,
        g.LosesNothing region line ↔
          ∀ role rest,
            g.Recognizes line.trim region role rest →
              g.Ends rest) ∧
      (∀ (mark text text' : Text) (before after : List Text)
          (line line' : Text) (role : LineRole)
          (rest rest' : Text),
        text.lines = before ++ line :: after →
          text'.lines = before ++ line' :: after →
          g.Recognizes line.trim
              (g.regionAfter .header before) role rest →
            g.Recognizes line'.trim
                (g.regionAfter .header before) role rest' →
              read g mark text = read g mark text') ∧
      ∃ line, ¬ g.LosesNothing .header line := by
  have hUsable := Dialect.usable_of_accept hAccept
  have hComment : Edges.Tight Text.isBlank g.comment := by
    rcases Dialect.accept_eq_ok_iff.mp hAccept with ⟨-, rfl⟩
    exact Text.tight_trim d.commentMark
  refine ⟨?_, ?_, ?_⟩
  · intro region line
    exact LineGrammar.losesNothing_iff hUsable
  · intro mark text text' before after line line' role rest
      rest' hText hText' hLine hLine'
    exact read_of_recognizes hUsable hText hText' hLine hLine'
  · exact LineGrammar.exists_not_losesNothing hUsable hComment

/- An import with a remark, and one with another behind it. -/
def remarkedImport : Text :=
  "import \"a\" ; // b".toList

def twoImports : Text :=
  "import \"a\"; import \"b\"".toList

/- A file whose only other line is one of these. -/
def fileWith
    (line : Text) : Text :=
  "package p\n".toList ++ line

/- Both lines import the same path, whatever follows it. -/
theorem recognizes_import
    {line rest : Text}
    (hTrim : line.trim = "import \"a\"".toList ++ rest)
    (hNone :
      Dialect.go.grammar.opensBlock line.trim = false) :
    Dialect.go.grammar.Recognizes line.trim .body
      (.singleImport "\"a\"".toList) rest := by
  have hPasses :
      Dialect.go.grammar.Passes line.trim .body := trivial
  exact .single hPasses hNone
    { gap := [' ']
      named := none
      path := ['a']
      rest := rest
      isGap := isGap_space
      nonempty := by simp
      noQuote := by decide
      whole := hTrim }

theorem recognizes_remarkedImport :
    Dialect.go.grammar.Recognizes remarkedImport.trim .body
      (.singleImport "\"a\"".toList) " ; // b".toList :=
  recognizes_import (by decide +kernel) (by decide +kernel)

theorem recognizes_twoImports :
    Dialect.go.grammar.Recognizes twoImports.trim .body
      (.singleImport "\"a\"".toList) "; import \"b\"".toList :=
  recognizes_import (by decide +kernel) (by decide +kernel)

/- A comment is lost, and another import as if it were one. -/
theorem losesNothing_iff_ends_remarkedImport :
    Dialect.go.accept = .ok Dialect.go.grammar ∧
      Dialect.go.grammar.LosesNothing .body remarkedImport ∧
      read Dialect.go.grammar Dialect.go.commentMark
          (fileWith remarkedImport) =
        read Dialect.go.grammar Dialect.go.commentMark
          (fileWith twoImports) := by
  have hAccept :
      Dialect.go.accept = .ok Dialect.go.grammar := rfl
  rcases losesNothing_iff_ends hAccept with
    ⟨hLoses, hRead, -⟩
  refine ⟨hAccept, ?_, ?_⟩
  · rw [hLoses]
    intro role rest hRecognizes
    rcases recognizes_remarkedImport.unique hRecognizes with
      ⟨-, rfl⟩
    exact
      ⟨[' '], [';'], [' '], some " b".toList,
        isGap_space.blank, .inr rfl, isGap_space.blank,
        fun _ _ => by decide, by decide +kernel⟩
  · exact hRead _ _ _ ["package p".toList] [] _ _ _ _ _
      (by decide +kernel) (by decide +kernel)
      recognizes_remarkedImport recognizes_twoImports

/- The second import of a line is neither import nor code. -/
theorem not_losesNothing_twoImports :
    Dialect.go.accept = .ok Dialect.go.grammar ∧
      Dialect.go.grammar.classify .body twoImports =
        (.singleImport "\"a\"".toList, .body) ∧
      ¬ Dialect.go.grammar.LosesNothing .body twoImports ∧
      "\"b\"".toList ∉
        (read Dialect.go.grammar Dialect.go.commentMark
          (fileWith twoImports)).imports ∧
      (read Dialect.go.grammar Dialect.go.commentMark
        (fileWith twoImports)).body = [] := by
  have hAccept :
      Dialect.go.accept = .ok Dialect.go.grammar := rfl
  have hUsable := Dialect.usable_of_accept hAccept
  have hComment :
      Edges.Tight Text.isBlank Dialect.go.grammar.comment :=
    Text.tight_trim Dialect.go.commentMark
  refine
    ⟨hAccept,
      LineGrammar.classify_of_recognizes hUsable
        recognizes_twoImports,
      ?_, by decide +kernel, by decide +kernel⟩
  intro hLoses
  have hEnds :=
    (LineGrammar.losesNothing_iff hUsable).mp hLoses _ _
      recognizes_twoImports
  rw [← LineGrammar.ends_iff hComment] at hEnds
  revert hEnds
  decide +kernel

end Source

end Collate
