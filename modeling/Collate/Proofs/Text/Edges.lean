import Collate.Text.Lines
import Mathlib.Data.List.DropRight

/-
  Dropping from both ends of a list what satisfies a test.
  Trimming a text and trimming the blank lines around a list
  of lines are both of this kind, so what holds of either is
  shown once here.

  Key definitions include:
    * `Edges.strip`
    * `Edges.Tight`
    * `Edges.Frames`

  Main declarations:
    * `Edges.exists_surrounded`
    * `Edges.strip_surrounded`
    * `Edges.takeWhile_of_longest`
    * `Edges.dropWhile_of_longest`
    * `Edges.longest_unique`
    * `Edges.strip_stretch`
    * `Text.trim_eq_strip`
    * `Text.trimBlankEdges_eq_strip`
    * `Text.trimBlankEdges_framed`
-/

------------------------------------------------------------
-- Stripped Lists
------------------------------------------------------------

namespace Collate

namespace Edges

variable {α : Type}

/- Drop from both ends of a list what satisfies a test. -/
def strip
    (p : α → Bool)
    (l : List α) : List α :=
  (l.dropWhile p).rdropWhile p

/- Neither end of a list satisfies a test. -/
structure Tight
    (p : α → Bool)
    (l : List α) : Prop where
  first : ∀ a, l.head? = some a → p a = false
  last : ∀ a, l.getLast? = some a → p a = false

variable {p : α → Bool}

theorem tight_nil : Tight p [] :=
  ⟨by simp, by simp⟩

/- Dropping at the start stops at a tight list. -/
theorem dropWhile_of_first
    {l : List α}
    (hFirst : ∀ a, l.head? = some a → p a = false) :
    l.dropWhile p = l := by
  cases l with
  | nil => rfl
  | cons a l =>
      have hKept : p a = false := hFirst a rfl
      exact List.dropWhile_cons_of_neg (by simp [hKept])

/- Dropping at the end stops at a tight list. -/
theorem rdropWhile_of_last
    {l : List α}
    (hLast : ∀ a, l.getLast? = some a → p a = false) :
    l.rdropWhile p = l := by
  rw [List.rdropWhile_eq_self_iff]
  intro hNonempty
  have hKept := hLast (l.getLast hNonempty)
    (List.getLast?_eq_getLast_of_ne_nil hNonempty)
  simp [hKept]

/- The longest beginning that satisfies a test is taken. -/
theorem takeWhile_of_longest
    {a b : List α}
    (hA : ∀ x ∈ a, p x = true)
    (hB : ∀ x, b.head? = some x → p x = false) :
    (a ++ b).takeWhile p = a := by
  rw [List.takeWhile_append_of_pos hA]
  cases b with
  | nil => simp
  | cons x b => simp [hB x rfl]

/- And what follows it is left. -/
theorem dropWhile_of_longest
    {a b : List α}
    (hA : ∀ x ∈ a, p x = true)
    (hB : ∀ x, b.head? = some x → p x = false) :
    (a ++ b).dropWhile p = b := by
  rw [List.dropWhile_append_of_pos hA, dropWhile_of_first hB]

/- What is left does not satisfy the test at its start. -/
theorem first_dropWhile
    {l : List α}
    {x : α}
    (hFirst : (l.dropWhile p).head? = some x) :
    p x = false := by
  have hNot := List.head?_dropWhile_not p l
  rw [hFirst] at hNot
  exact hNot

/- The longest beginning that satisfies a test is unique. -/
theorem longest_unique
    {a a' b b' : List α}
    (hA : ∀ x ∈ a, p x = true)
    (hB : ∀ x, b.head? = some x → p x = false)
    (hA' : ∀ x ∈ a', p x = true)
    (hB' : ∀ x, b'.head? = some x → p x = false)
    (hSame : a ++ b = a' ++ b') :
    a = a' ∧ b = b' := by
  have hRest : b = b' := by
    have hDrop := congrArg (List.dropWhile p) hSame
    rwa [dropWhile_of_longest hA hB,
      dropWhile_of_longest hA' hB'] at hDrop
  subst hRest
  exact ⟨List.append_cancel_right hSame, rfl⟩

/- What satisfies the test at the end is dropped. -/
theorem rdropWhile_append
    (l : List α)
    {post : List α}
    (hPost : ∀ a ∈ post, p a = true) :
    (l ++ post).rdropWhile p = l.rdropWhile p := by
  unfold List.rdropWhile
  rw [List.reverse_append, List.dropWhile_append_of_pos]
  intro a hMem
  exact hPost a (List.mem_reverse.mp hMem)

/- Stripping removes exactly what surrounds a tight list. -/
theorem strip_surrounded
    {pre l post : List α}
    (hPre : ∀ a ∈ pre, p a = true)
    (hTight : Tight p l)
    (hPost : ∀ a ∈ post, p a = true) :
    strip p (pre ++ (l ++ post)) = l := by
  unfold strip
  rw [List.dropWhile_append_of_pos hPre]
  cases l with
  | nil =>
      have hNone : post.dropWhile p = [] := by
        rw [List.dropWhile_eq_nil_iff]
        exact hPost
      simp [hNone]
  | cons a l =>
      have hKept : p a = false := hTight.first a rfl
      rw [List.cons_append,
        List.dropWhile_cons_of_neg (by simp [hKept]),
        ← List.cons_append, rdropWhile_append _ hPost]
      exact rdropWhile_of_last hTight.last

/- Dropping at the end stops before something else. -/
theorem last_rdropWhile
    {l : List α}
    {a : α}
    (hLast : (l.rdropWhile p).getLast? = some a) :
    p a = false := by
  have hNonempty : l.rdropWhile p ≠ [] := by
    intro hNil
    simp [hNil] at hLast
  have hNot := List.rdropWhile_last_not p l hNonempty
  have hSame : (l.rdropWhile p).getLast hNonempty = a := by
    rw [List.getLast?_eq_getLast_of_ne_nil hNonempty]
      at hLast
    exact Option.some.inj hLast
  rw [← hSame]
  simpa using hNot

/- What stripping leaves is tight. -/
theorem tight_strip
    (l : List α) :
    Tight p (strip p l) := by
  constructor
  · intro a hHead
    have hPrefix : strip p l <+: l.dropWhile p :=
      List.rdropWhile_prefix p _
    rcases hPrefix with ⟨rest, hRest⟩
    have hFirst : (l.dropWhile p).head? = some a := by
      rw [← hRest, List.head?_append, hHead]
      rfl
    exact first_dropWhile hFirst
  · intro a hLast
    exact last_rdropWhile hLast

/-
  Every list is a tight list, which stripping finds, between
  elements that satisfy the test.
-/
theorem exists_surrounded
    (p : α → Bool)
    (l : List α) :
    ∃ pre post, l = pre ++ (strip p l ++ post) ∧
      (∀ a ∈ pre, p a = true) ∧
      (∀ a ∈ post, p a = true) := by
  refine ⟨l.takeWhile p, (l.dropWhile p).rtakeWhile p,
    ?_, ?_, ?_⟩
  · unfold strip
    rw [List.rdropWhile_append_rtakeWhile,
      List.takeWhile_append_dropWhile]
  · intro a hMem
    exact List.mem_takeWhile_imp hMem
  · intro a hMem
    exact List.mem_rtakeWhile_imp hMem

theorem mem_of_mem_strip
    {l : List α}
    {a : α}
    (hMem : a ∈ strip p l) :
    a ∈ l := by
  rcases exists_surrounded p l with
    ⟨pre, post, hSplit, -, -⟩
  rw [hSplit]
  exact List.mem_append_right _
    (List.mem_append_left _ hMem)

theorem strip_of_tight
    {l : List α}
    (hTight : Tight p l) :
    strip p l = l := by
  have hNone : ∀ a ∈ ([] : List α), p a = true := by simp
  simpa using strip_surrounded hNone hTight hNone

/- What satisfies the test at the start makes no difference. -/
theorem strip_append_left
    {pre : List α}
    (hPre : ∀ a ∈ pre, p a = true)
    (l : List α) :
    strip p (pre ++ l) = strip p l := by
  unfold strip
  rw [List.dropWhile_append_of_pos hPre]

/- What satisfies the test at the end makes no difference. -/
theorem strip_append_right
    (l : List α)
    {post : List α}
    (hPost : ∀ a ∈ post, p a = true) :
    strip p (l ++ post) = strip p l := by
  rcases exists_surrounded p l with
    ⟨before, after, hSplit, hBefore, hAfter⟩
  have hAll : ∀ a ∈ after ++ post, p a = true := by
    intro a hMem
    rcases List.mem_append.mp hMem with hMem | hMem
    · exact hAfter a hMem
    · exact hPost a hMem
  calc
    strip p (l ++ post) =
        strip p
          (before ++ (strip p l ++ (after ++ post))) := by
      conv_lhs => rw [hSplit]
      simp only [List.append_assoc]
    _ = strip p l :=
      strip_surrounded hBefore (tight_strip l) hAll

/- Only a list without other elements is stripped to nothing. -/
theorem strip_eq_nil_iff
    {l : List α} :
    strip p l = [] ↔ ∀ a ∈ l, p a = true := by
  constructor
  · intro hNil
    rcases exists_surrounded p l with
      ⟨pre, post, hSplit, hPre, hPost⟩
    intro a hMem
    rw [hSplit, hNil, List.nil_append] at hMem
    rcases List.mem_append.mp hMem with hMem | hMem
    · exact hPre a hMem
    · exact hPost a hMem
  · intro hAll
    simpa [strip] using strip_append_left hAll []

/- Dropping at the end first makes no difference. -/
theorem strip_rdropWhile
    (l : List α) :
    strip p (l.rdropWhile p) = strip p l := by
  have hDropped : ∀ a ∈ l.rtakeWhile p, p a = true :=
    fun a hMem => List.mem_rtakeWhile_imp hMem
  have hSplit := strip_append_right (l.rdropWhile p) hDropped
  rw [List.rdropWhile_append_rtakeWhile] at hSplit
  exact hSplit.symm

/- What is kept, with what is dropped before and behind it. -/
structure Frames
    (p : α → Bool)
    (pre kept post l : List α) : Prop where
  split : l = pre ++ (kept ++ post)
  before : ∀ a ∈ pre, p a = true
  behind : ∀ a ∈ post, p a = true
  tight : Tight p kept

/- Only one list can be kept. -/
theorem Frames.kept_eq
    {pre kept post l : List α}
    (hFrames : Frames p pre kept post l) :
    kept = strip p l := by
  rw [hFrames.split,
    strip_surrounded hFrames.before hFrames.tight hFrames.behind]

/- If something is kept, what is dropped is known as well. -/
theorem Frames.unique
    {pre pre' kept post post' l : List α}
    (hKept : kept ≠ [])
    (hFrames : Frames p pre kept post l)
    (hOther : Frames p pre' kept post' l) :
    pre = pre' ∧ post = post' := by
  rcases List.exists_cons_of_ne_nil hKept with ⟨a, rest, rfl⟩
  have hFirst :
      ∀ behind x,
        (a :: rest ++ behind).head? = some x → p x = false := by
    intro behind x hHead
    exact hFrames.tight.first x hHead
  have hSame :
      pre ++ (a :: rest ++ post) = pre' ++ (a :: rest ++ post') := by
    rw [← hFrames.split, ← hOther.split]
  rcases longest_unique hFrames.before (hFirst post) hOther.before
      (hFirst post') hSame with ⟨hPre, hRest⟩
  exact ⟨hPre, List.append_cancel_left hRest⟩

/-
  Whatever stands between two elements that do not satisfy the
  test is kept as it is, whether it satisfies the test or not.
-/
theorem strip_stretch
    {x y : α}
    (hX : p x = false)
    (hY : p y = false)
    (before middle after : List α) :
    strip p (before ++ (x :: (middle ++ y :: after))) =
      before.dropWhile p ++
        (x :: (middle ++ [y]) ++ after.rdropWhile p) := by
  have hStart :
      ∀ rest,
        (before ++ x :: rest).dropWhile p =
          before.dropWhile p ++ x :: rest := by
    intro rest
    rw [List.dropWhile_append]
    split
    · rename_i hNone
      rw [List.isEmpty_iff.mp hNone,
        List.dropWhile_cons_of_neg (by simp [hX])]
      rfl
    · rfl
  have hEnd :
      ∀ front,
        (front ++ y :: after).rdropWhile p =
          front ++ [y] ++ after.rdropWhile p := by
    intro front
    unfold List.rdropWhile
    rw [List.reverse_append, List.reverse_cons,
      List.append_assoc, List.dropWhile_append]
    split
    · rename_i hNone
      rw [List.isEmpty_iff.mp hNone, List.singleton_append,
        List.dropWhile_cons_of_neg (by simp [hY])]
      simp
    · simp
  unfold strip
  rw [hStart, ← List.cons_append, ← List.append_assoc, hEnd]
  simp only [List.cons_append, List.append_assoc,
    List.nil_append]

/- Stripping loses no element that does not satisfy the test. -/
theorem filter_strip
    (l : List α) :
    ((strip p l).filter fun a => !p a) =
      l.filter fun a => !p a := by
  rcases exists_surrounded p l with
    ⟨pre, post, hSplit, hPre, hPost⟩
  have hNone :
      ∀ dropped : List α,
        (∀ a ∈ dropped, p a = true) →
          (dropped.filter fun a => !p a) = [] := by
    intro dropped hDropped
    rw [List.filter_eq_nil_iff]
    intro a hMem
    simp [hDropped a hMem]
  conv_rhs => rw [hSplit]
  rw [List.filter_append, List.filter_append, hNone pre hPre,
    hNone post hPost, List.nil_append, List.append_nil]

/- A list whose two ends are those of tight lists is tight. -/
theorem Tight.bridge
    {a c : List α}
    (hA : Tight p a)
    (hNonemptyA : a ≠ [])
    (b : List α)
    (hC : Tight p c)
    (hNonemptyC : c ≠ []) :
    Tight p (a ++ b ++ c) := by
  constructor
  · intro x hHead
    rw [List.append_assoc, List.head?_append] at hHead
    cases hFirst : a.head? with
    | none => simp_all
    | some y =>
        rw [hFirst] at hHead
        rw [← Option.some.inj hHead]
        exact hA.first y hFirst
  · intro x hLast
    rw [List.getLast?_append] at hLast
    cases hFinal : c.getLast? with
    | none => simp_all
    | some y =>
        rw [hFinal] at hLast
        rw [← Option.some.inj hLast]
        exact hC.last y hFinal

end Edges

------------------------------------------------------------
-- Trimmed Texts
------------------------------------------------------------

namespace Text

open Edges

theorem trim_eq_strip
    (t : Text) :
    t.trim = strip isBlank t := rfl

/- The first line that is not blank is behind the blank ones. -/
theorem firstFilled?_eq
    {pre kept post : List Text}
    (hPre : ∀ line ∈ pre, line.allBlank = true)
    (hKept : kept ≠ [])
    (hFirst :
      ∀ line, kept.head? = some line → line.allBlank = false) :
    firstFilled? (pre ++ (kept ++ post)) = some pre.length := by
  rcases List.exists_cons_of_ne_nil hKept with ⟨line, rest, rfl⟩
  have hNone : pre.findIdx? (!·.allBlank) = none := by
    rw [List.findIdx?_eq_none_iff]
    intro line hMem
    rw [hPre line hMem]
    rfl
  have hFound : (!line.allBlank) = true := by
    rw [hFirst line rfl]
    rfl
  rw [firstFilled?, List.findIdx?_append, hNone, List.cons_append,
    List.findIdx?_cons, if_pos hFound]
  simp

/- Read backwards, the last such line is the first one. -/
theorem lastFilled?_eq
    {pre kept post : List Text}
    (hPost : ∀ line ∈ post, line.allBlank = true)
    (hKept : kept ≠ [])
    (hLast :
      ∀ line,
        kept.getLast? = some line → line.allBlank = false) :
    lastFilled? (pre ++ (kept ++ post)) =
      some (pre.length + (kept.length - 1)) := by
  have hReverse :
      (pre ++ (kept ++ post)).reverse =
        post.reverse ++ (kept.reverse ++ pre.reverse) := by
    simp
  have hFound :
      firstFilled?
          (post.reverse ++ (kept.reverse ++ pre.reverse)) =
        some post.reverse.length := by
    apply firstFilled?_eq
    · intro line hMem
      exact hPost line (List.mem_reverse.mp hMem)
    · simpa using hKept
    · intro line hHead
      rw [List.head?_reverse] at hHead
      exact hLast line hHead
  have hPositive := List.length_pos_iff.mpr hKept
  rw [lastFilled?, hReverse, hFound, Option.map_some,
    List.length_reverse, List.length_append, List.length_append]
  congr 1
  omega

/- Only lists of blank lines have no line that is not blank. -/
theorem firstFilled?_eq_none_iff
    {lines : List Text} :
    firstFilled? lines = none ↔
      ∀ line ∈ lines, line.allBlank = true := by
  simp [firstFilled?, List.findIdx?_eq_none_iff]

/-
  Cutting a list of lines at the positions of its first and its
  last line that is not blank drops the blank lines at both
  ends.
-/
theorem trimBlankEdges_eq_strip
    (lines : List Text) :
    trimBlankEdges lines = strip allBlank lines := by
  by_cases hNil : strip allBlank lines = []
  · have hBlank := strip_eq_nil_iff.mp hNil
    rw [hNil, trimBlankEdges,
      firstFilled?_eq_none_iff.mpr hBlank]
  rcases exists_surrounded allBlank lines with
    ⟨pre, post, hSplit, hPre, hPost⟩
  have hTight : Tight allBlank (strip allBlank lines) :=
    tight_strip lines
  have hPositive := List.length_pos_iff.mpr hNil
  generalize hEq : strip allBlank lines = kept at *
  have hEnd :
      pre.length + (kept.length - 1) + 1 =
        pre.length + kept.length := by
    omega
  rw [hSplit, trimBlankEdges,
    firstFilled?_eq hPre hNil hTight.first,
    lastFilled?_eq hPost hNil hTight.last]
  simp [hEnd, List.take_append]

theorem allBlank_iff
    {t : Text} :
    t.allBlank = true ↔ ∀ c ∈ t, isBlank c = true := by
  simp [allBlank]

/- Trimming leaves nothing of a blank text only. -/
theorem trim_eq_nil_iff
    {t : Text} :
    t.trim = [] ↔ t.allBlank = true := by
  rw [trim_eq_strip, strip_eq_nil_iff, allBlank_iff]

theorem trim_nil :
    Text.trim [] = [] := rfl

theorem tight_trim
    (t : Text) :
    Tight isBlank t.trim :=
  tight_strip t

/- Blanks before a text do not change what trimming leaves. -/
theorem trim_append_left
    {blanks : Text}
    (hBlanks : ∀ c ∈ blanks, isBlank c = true)
    (t : Text) :
    (blanks ++ t).trim = t.trim :=
  strip_append_left hBlanks t

theorem trim_trimEnd
    (t : Text) :
    t.trimEnd.trim = t.trim :=
  strip_rdropWhile t

theorem trimEnd_trimEnd
    (t : Text) :
    t.trimEnd.trimEnd = t.trimEnd :=
  List.rdropWhile_idempotent isBlank t

/- Trimming at the start stops where a text is not blank. -/
theorem trimStart_of_tight
    {t : Text}
    (hTight : Tight isBlank t) :
    t.trimStart = t :=
  dropWhile_of_first hTight.first

/- A text without blanks is tight. -/
theorem tight_of_noBlank
    {t : Text}
    (hSolid : ∀ c ∈ t, isBlank c = false) :
    Tight isBlank t := by
  constructor
  · intro c hHead
    exact hSolid c (List.mem_of_head? hHead)
  · intro c hLast
    exact hSolid c (List.mem_of_getLast? hLast)

/- Every character of a trimmed text stood in the text. -/
theorem mem_of_mem_trim
    {t : Text}
    {c : Char}
    (hMem : c ∈ t.trim) :
    c ∈ t :=
  mem_of_mem_strip hMem

/- Every character kept at the end stood in the text. -/
theorem mem_of_mem_trimEnd
    {t : Text}
    {c : Char}
    (hMem : c ∈ t.trimEnd) :
    c ∈ t :=
  (List.rdropWhile_prefix isBlank t).subset hMem

/- The last character that trimming at the end keeps. -/
theorem last_trimEnd
    {t : Text}
    {c : Char}
    (hLast : t.trimEnd.getLast? = some c) :
    isBlank c = false :=
  last_rdropWhile hLast

------------------------------------------------------------
-- Trimmed Lines
------------------------------------------------------------

theorem tight_trimBlankEdges
    (lines : List Text) :
    Tight allBlank (trimBlankEdges lines) := by
  rw [trimBlankEdges_eq_strip]
  exact tight_strip lines

/- Blank lines behind others make no difference. -/
theorem trimBlankEdges_append_right
    (lines : List Text)
    {post : List Text}
    (hPost : ∀ line ∈ post, line.allBlank = true) :
    trimBlankEdges (lines ++ post) = trimBlankEdges lines := by
  rw [trimBlankEdges_eq_strip, trimBlankEdges_eq_strip,
    strip_append_right lines hPost]

/-
  Lines without the blank ones at both ends are the one list
  that begins and ends with other lines and stands between
  blank ones.  So nothing else is lost: no line that is not
  blank, and no blank line between two such lines.
-/
theorem trimBlankEdges_framed
    (lines : List Text) :
    let kept := trimBlankEdges lines
    (∃ pre post, Frames allBlank pre kept post lines) ∧
      (∀ pre other post,
        Frames allBlank pre other post lines → other = kept) ∧
      (kept ≠ [] →
        ∀ pre post pre' post',
          Frames allBlank pre kept post lines →
            Frames allBlank pre' kept post' lines →
              pre = pre' ∧ post = post') ∧
      trimBlankEdges kept = kept ∧
      (kept.filter fun line => !allBlank line) =
        (lines.filter fun line => !allBlank line) ∧
      (∀ before x middle y after,
        lines = before ++ (x :: (middle ++ y :: after)) →
          allBlank x = false → allBlank y = false →
            x :: (middle ++ [y]) <:+: kept) ∧
      (kept = [] ↔ ∀ line ∈ lines, allBlank line = true) := by
  intro kept
  have hKept : kept = strip allBlank lines :=
    trimBlankEdges_eq_strip lines
  clear_value kept
  subst hKept
  refine ⟨?_, ?_, ?_, ?_, ?_, ?_, ?_⟩
  · rcases exists_surrounded allBlank lines with
      ⟨pre, post, hSplit, hPre, hPost⟩
    exact ⟨pre, post, hSplit, hPre, hPost, tight_strip lines⟩
  · intro pre other post hFrames
    exact hFrames.kept_eq
  · intro hSome pre post pre' post' hFrames hOther
    exact hFrames.unique hSome hOther
  · rw [trimBlankEdges_eq_strip]
    exact strip_of_tight (tight_strip lines)
  · exact filter_strip lines
  · intro before x middle y after hLines hX hY
    rw [hLines, strip_stretch hX hY]
    exact List.infix_append' _ _ _
  · exact strip_eq_nil_iff

/- Lines with other kinds of white space around them. -/
def spacedOut : List Text :=
  [ "\t ".toList, "\u3000".toList, "a".toList, " ".toList,
    "b ".toList, "\u0085".toList ]

theorem trimBlankEdges_framed_spacedOut :
    trimBlankEdges spacedOut =
        ["a".toList, " ".toList, "b ".toList] ∧
      ["a".toList, " ".toList, "b ".toList] <:+:
        trimBlankEdges spacedOut ∧
      trimBlankEdges spacedOut ≠ [] := by
  rcases trimBlankEdges_framed spacedOut with
    ⟨-, hOnly, -, -, -, hStretch, hEmpty⟩
  have hFrames :
      Frames allBlank ["\t ".toList, "\u3000".toList]
        ["a".toList, " ".toList, "b ".toList]
        ["\u0085".toList] spacedOut :=
    { split := rfl
      before := by decide
      behind := by decide
      tight := ⟨by decide +kernel, by decide +kernel⟩ }
  refine ⟨(hOnly _ _ _ hFrames).symm, ?_, ?_⟩
  · exact
      hStretch ["\t ".toList, "\u3000".toList] "a".toList
        [" ".toList] "b ".toList ["\u0085".toList] rfl
        (by decide) (by decide)
  · rw [ne_eq, hEmpty]
    decide

end Text

end Collate
