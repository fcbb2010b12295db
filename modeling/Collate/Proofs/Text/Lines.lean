import Collate.Proofs.Text.Edges

/-
  The lines of a text, and texts that are written line by
  line.

  Key definitions include:
    * `Text.unlines`
    * `Text.OneLine`

  Main declarations:
    * `Text.lines_unlines`
    * `Text.feed_not_mem_of_mem_lines`
    * `Text.exists_lines_eq`
    * `Text.splitOn_unlines`
    * `Text.exists_unlines`
    * `Text.joinWith_sections`
-/

------------------------------------------------------------
-- Reading Lines
------------------------------------------------------------

namespace Collate

namespace Text

/- A text that stands on one line whatever follows it. -/
structure OneLine
    (t : Text) : Prop where
  noFeed : '\n' ∉ t
  noReturn : t.getLast? ≠ some '\r'

/- The lines of a text that begins a line of its own. -/
theorem lines_append_feed
    {line : Text}
    (hLine : OneLine line)
    (t : Text) :
    lines (line ++ '\n' :: t) = line :: lines t := by
  induction line with
  | nil => simp [lines]
  | cons c line ih =>
      have hFeed : c ≠ '\n' := by
        intro hEq
        exact hLine.noFeed (by simp [hEq])
      have hRest : OneLine line := by
        refine ⟨?_, ?_⟩
        · intro hMem
          exact hLine.noFeed (List.mem_cons_of_mem _ hMem)
        · intro hLast
          apply hLine.noReturn
          simp [List.getLast?_cons, hLast]
      have hReturn :
          ∀ rest, c = '\r' →
            line ++ '\n' :: t = '\n' :: rest → False := by
        intro rest hEq hStart
        cases line with
        | nil => exact hLine.noReturn (by simp [hEq])
        | cons d line =>
            have hHead : d = '\n' := by
              simpa using congrArg List.head? hStart
            exact hRest.noFeed (by simp [hHead])
      rw [List.cons_append, lines, ih hRest]
      · exact hFeed
      · exact hReturn

/- A line holds no line feed. -/
theorem feed_not_mem_of_mem_lines
    {t line : Text}
    (hMem : line ∈ lines t) :
    '\n' ∉ line := by
  fun_induction lines t generalizing line with
  | case1 => simp at hMem
  | case2 t ih =>
      rcases List.mem_cons.mp hMem with rfl | hMem
      · simp
      · exact ih hMem
  | case3 t ih =>
      rcases List.mem_cons.mp hMem with rfl | hMem
      · simp
      · exact ih hMem
  | case4 c t hFeed hReturn hNone ih =>
      have hEq : line = [c] := by simpa using hMem
      subst hEq
      simpa using fun h : '\n' = c => hFeed h.symm
  | case5 c t hFeed hReturn first rest hLines ih =>
      rw [hLines] at ih
      rcases List.mem_cons.mp hMem with rfl | hMem
      · have hFirst : '\n' ∉ first := ih (by simp)
        intro hIn
        rcases List.mem_cons.mp hIn with hEq | hIn
        · exact hFeed hEq.symm
        · exact hFirst hIn
      · exact ih (List.mem_cons_of_mem _ hMem)

------------------------------------------------------------
-- Writing Lines
------------------------------------------------------------

/- Lines written one after another, each with a line feed. -/
def unlines
    (ls : List Text) : Text :=
  ls.flatMap (· ++ ['\n'])

@[simp] theorem unlines_nil :
    unlines [] = [] := rfl

@[simp] theorem unlines_cons
    (line : Text)
    (ls : List Text) :
    unlines (line :: ls) = line ++ '\n' :: unlines ls := by
  simp [unlines]

theorem unlines_append
    (before after : List Text) :
    unlines (before ++ after) =
      unlines before ++ unlines after := by
  simp [unlines]

/- Written lines are read back. -/
theorem lines_unlines
    {ls : List Text}
    (hLines : ∀ line ∈ ls, OneLine line) :
    lines (unlines ls) = ls := by
  induction ls with
  | nil => simp [lines]
  | cons line ls ih =>
      have hRest : ∀ other ∈ ls, OneLine other := by
        intro other hMem
        exact hLines other (List.mem_cons_of_mem _ hMem)
      rw [unlines_cons,
        lines_append_feed (hLines line (by simp)),
        ih hRest]

/- A carriage return and a line feed end any line. -/
theorem lines_append_return
    {line : Text}
    (hLine : '\n' ∉ line)
    (t : Text) :
    lines (line ++ '\r' :: '\n' :: t) = line :: lines t := by
  induction line with
  | nil => simp [lines]
  | cons c line ih =>
      rw [List.mem_cons, not_or] at hLine
      have hPair :
          ∀ rest, c = '\r' →
            line ++ '\r' :: '\n' :: t = '\n' :: rest →
              False := by
        intro rest _ hStart
        cases line with
        | nil => simp at hStart
        | cons d line =>
            have hFeed : d = '\n' := by
              simpa using congrArg List.head? hStart
            exact hLine.2 (by simp [hFeed])
      rw [List.cons_append, lines, ih hLine.2]
      · exact fun hFeed => hLine.1 hFeed.symm
      · exact hPair

/- There is a text with any given lines. -/
theorem exists_lines_eq
    {ls : List Text}
    (hLines : ∀ line ∈ ls, '\n' ∉ line) :
    ∃ t, lines t = ls := by
  induction ls with
  | nil => exact ⟨[], by simp [lines]⟩
  | cons line ls ih =>
      rw [List.forall_mem_cons] at hLines
      rcases ih hLines.2 with ⟨t, rfl⟩
      exact
        ⟨line ++ '\r' :: '\n' :: t,
          lines_append_return hLines.1 t⟩

/- A line feed ends the first piece. -/
theorem splitOn_append_feed
    {line : Text}
    (hLine : '\n' ∉ line)
    (t : Text) :
    splitOn '\n' (line ++ '\n' :: t) =
      line :: splitOn '\n' t := by
  induction line with
  | nil => simp [splitOn]
  | cons c line ih =>
      have hFeed : c ≠ '\n' := by
        rintro rfl
        exact hLine (by simp)
      have hRest : '\n' ∉ line := by
        intro hMem
        exact hLine (List.mem_cons_of_mem _ hMem)
      simp [splitOn, hFeed, ih hRest]

theorem splitOn_of_not_mem
    {line : Text}
    (hLine : '\n' ∉ line) :
    splitOn '\n' line = [line] := by
  induction line with
  | nil => rfl
  | cons c line ih =>
      rw [List.mem_cons, not_or] at hLine
      have hFeed : c ≠ '\n' := fun hEq => hLine.1 hEq.symm
      simp [splitOn, hFeed, ih hLine.2]

/- The pieces of a text whose last line may go on. -/
theorem splitOn_unlines_append
    {ls : List Text}
    (hLines : ∀ line ∈ ls, '\n' ∉ line)
    {last : Text}
    (hLast : '\n' ∉ last) :
    splitOn '\n' (unlines ls ++ last) = ls ++ [last] := by
  induction ls with
  | nil => simpa using splitOn_of_not_mem hLast
  | cons line ls ih =>
      rw [List.forall_mem_cons] at hLines
      rw [unlines_cons, List.append_assoc, List.cons_append,
        splitOn_append_feed hLines.1, ih hLines.2,
        List.cons_append]

/- The pieces of a text that is written line by line. -/
theorem splitOn_unlines
    {ls : List Text}
    (hLines : ∀ line ∈ ls, '\n' ∉ line) :
    splitOn '\n' (unlines ls) = ls ++ [[]] := by
  have hNone : '\n' ∉ ([] : Text) := by simp
  simpa using splitOn_unlines_append hLines hNone

/- Every text is made of lines and of what follows them. -/
theorem exists_unlines
    (t : Text) :
    ∃ ls last,
      (∀ line ∈ ls, '\n' ∉ line) ∧ '\n' ∉ last ∧
        t = unlines ls ++ last := by
  induction t with
  | nil => exact ⟨[], [], by simp, by simp, rfl⟩
  | cons c t ih =>
      rcases ih with ⟨ls, last, hLines, hLast, rfl⟩
      by_cases hFeed : c = '\n'
      · subst hFeed
        refine ⟨[] :: ls, last, ?_, hLast, by simp⟩
        exact List.forall_mem_cons.mpr ⟨by simp, hLines⟩
      · have hOther : '\n' ≠ c := fun hEq => hFeed hEq.symm
        cases ls with
        | nil =>
            have hLonger : '\n' ∉ c :: last := by
              simp [hOther, hLast]
            exact ⟨[], c :: last, by simp, hLonger, rfl⟩
        | cons line ls =>
            rw [List.forall_mem_cons] at hLines
            refine
              ⟨(c :: line) :: ls, last, ?_, hLast, by simp⟩
            exact List.forall_mem_cons.mpr
              ⟨by simp [hOther, hLines.1], hLines.2⟩

/- A section written with line feeds between its lines. -/
theorem joinWith_feed
    {ls : List Text}
    (hNonempty : ls ≠ []) :
    joinWith ['\n'] ls ++ ['\n'] = unlines ls := by
  unfold joinWith
  induction ls with
  | nil => exact absurd rfl hNonempty
  | cons line ls ih =>
      cases ls with
      | nil => simp
      | cons next rest =>
          rw [List.intercalate_cons_cons, unlines_cons,
            ← ih (by simp)]
          simp

/-
  Sections written with two line feeds between them are
  their lines with one empty line between sections.
-/
theorem joinWith_sections
    {sections : List (List Text)}
    (hNonempty : sections ≠ [])
    (hSections : ∀ ls ∈ sections, ls ≠ []) :
    joinWith ['\n', '\n']
        (sections.map (joinWith ['\n'])) ++ ['\n'] =
      unlines (List.intercalate [[]] sections) := by
  induction sections with
  | nil => exact absurd rfl hNonempty
  | cons ls sections ih =>
      have hFirst := joinWith_feed (hSections ls (by simp))
      cases sections with
      | nil => simpa [joinWith] using hFirst
      | cons next rest =>
          have hRest := ih (by simp) fun other hMem =>
            hSections other (List.mem_cons_of_mem _ hMem)
          rw [List.intercalate_cons_cons, unlines_append,
            unlines_append, ← hRest, ← hFirst]
          simp [joinWith, List.intercalate_cons_cons]

end Text

end Collate
