import Collate.Proofs.Text.Lines

/-
  What is left of the lines of a text when the blanks at
  their ends and the blank lines around them are dropped.  How
  a text marks the ends of its lines makes no difference to
  it, and neither do blanks behind the text.

  Key definitions include:
    * `Text.gist`

  Main declarations:
    * `Text.gist_eq_pieces`
    * `Text.gist_unlines`
    * `Text.gist_unlines_returns`
    * `Text.gist_append_blanks`
-/

------------------------------------------------------------
-- Ends of Lines
------------------------------------------------------------

namespace Collate

namespace Text

open Edges

/-
  The lines of a text without the blanks at their ends and
  without the blank lines around them.
-/
def gist
    (t : Text) : List Text :=
  trimBlankEdges (t.lines.map trimEnd)

/- Blanks at the end of a line do not matter to it. -/
theorem trimEnd_append_blanks
    (t : Text)
    {blanks : Text}
    (hBlanks : ∀ c ∈ blanks, isBlank c = true) :
    (t ++ blanks).trimEnd = t.trimEnd :=
  rdropWhile_append t hBlanks

/- A line that is trimmed alike still is with more before it. -/
theorem trimEnd_append_congr
    (start : Text)
    {a b : Text}
    (hSame : a.trimEnd = b.trimEnd) :
    (start ++ a).trimEnd = (start ++ b).trimEnd := by
  have hTrim :
      ∀ t : Text,
        (start ++ t).trimEnd =
          (start ++ t.trimEnd).trimEnd := by
    intro t
    have hBlanks :
        ∀ c ∈ t.rtakeWhile isBlank, isBlank c = true :=
      fun c hMem => List.mem_rtakeWhile_imp hMem
    have hSplit :
        t.trimEnd ++ t.rtakeWhile isBlank = t :=
      List.rdropWhile_append_rtakeWhile
    calc
      (start ++ t).trimEnd =
          (start ++ t.trimEnd ++
            t.rtakeWhile isBlank).trimEnd := by
        rw [List.append_assoc, hSplit]
      _ = (start ++ t.trimEnd).trimEnd :=
        trimEnd_append_blanks _ hBlanks
  rw [hTrim a, hTrim b, hSame]

theorem trimEnd_nil :
    trimEnd [] = [] := rfl

theorem splitOn_ne_nil
    (mark : Char)
    (t : Text) :
    splitOn mark t ≠ [] := by
  fun_cases splitOn mark t <;> simp_all

theorem lines_eq_nil
    {t : Text}
    (hNone : lines t = []) :
    t = [] := by
  unfold lines at hNone
  split at hNone
  · rfl
  · cases hNone
  · cases hNone
  · split at hNone <;> cases hNone

/-
  Trimmed at their ends, the lines of a text are the pieces
  between its line feeds, but for an empty last piece.
-/
theorem pieces_of_lines
    (t : Text) :
    ∃ last,
      (∀ piece ∈ last, piece = []) ∧
        (splitOn '\n' t).map trimEnd =
          (lines t).map trimEnd ++ last := by
  have hReturn : trimEnd ['\r'] = [] := by decide
  fun_induction lines t with
  | case1 => exact ⟨[[]], by simp, rfl⟩
  | case2 t ih =>
      rcases ih with ⟨last, hLast, hSame⟩
      exact ⟨last, hLast, by simp [splitOn, hSame]⟩
  | case3 t ih =>
      rcases ih with ⟨last, hLast, hSame⟩
      exact
        ⟨last, hLast,
          by simp [splitOn, hReturn, trimEnd_nil, hSame]⟩
  | case4 c t hFeed hPair hNone ih =>
      cases lines_eq_nil hNone
      have hOther : c ≠ '\n' := hFeed
      exact ⟨[], by simp, by simp [splitOn, hOther]⟩
  | case5 c t hFeed hPair line rest hLines ih =>
      have hOther : c ≠ '\n' := hFeed
      rcases ih with ⟨last, hLast, hSame⟩
      refine ⟨last, hLast, ?_⟩
      cases hPieces : splitOn '\n' t with
      | nil => exact absurd hPieces (splitOn_ne_nil _ t)
      | cons piece pieces =>
          rw [hPieces, hLines, List.map_cons, List.map_cons,
            List.cons_append] at hSame
          rcases List.cons.inj hSame with ⟨hFirst, hRest⟩
          have hLine := trimEnd_append_congr [c] hFirst
          rw [List.singleton_append,
            List.singleton_append] at hLine
          simp [splitOn, hOther, hPieces, hLine, hRest]

/- Whether a carriage return ends a line makes no difference. -/
theorem gist_eq_pieces
    (t : Text) :
    gist t =
      trimBlankEdges ((splitOn '\n' t).map trimEnd) := by
  rcases pieces_of_lines t with ⟨last, hLast, hSame⟩
  have hBlank : ∀ piece ∈ last, allBlank piece = true := by
    intro piece hMem
    rw [hLast piece hMem]
    rfl
  rw [hSame, trimBlankEdges_append_right _ hBlank]
  rfl

------------------------------------------------------------
-- Texts with the Same Gist
------------------------------------------------------------

/- The gist of a text that is written line by line. -/
theorem gist_unlines_append
    {ls : List Text}
    (hLines : ∀ line ∈ ls, '\n' ∉ line)
    {last : Text}
    (hLast : '\n' ∉ last) :
    gist (unlines ls ++ last) =
      trimBlankEdges ((ls ++ [last]).map trimEnd) := by
  rw [gist_eq_pieces, splitOn_unlines_append hLines hLast]

theorem gist_unlines
    {ls : List Text}
    (hLines : ∀ line ∈ ls, '\n' ∉ line) :
    gist (unlines ls) = trimBlankEdges (ls.map trimEnd) := by
  have hEmpty : ∀ piece ∈ [[]], allBlank piece = true := by
    simp [allBlank]
  rw [gist_eq_pieces, splitOn_unlines hLines, List.map_append]
  exact trimBlankEdges_append_right _ hEmpty

/- Carriage returns before the line feeds do not matter. -/
theorem gist_unlines_returns
    {ls : List Text}
    (hLines : ∀ line ∈ ls, '\n' ∉ line) :
    gist (unlines (ls.map (· ++ ['\r']))) =
      gist (unlines ls) := by
  have hBlank : ∀ c ∈ ['\r'], isBlank c = true :=
    List.forall_mem_singleton.mpr (by decide)
  have hReturns :
      ∀ line ∈ ls.map (· ++ ['\r']), '\n' ∉ line := by
    simpa using hLines
  rw [gist_unlines hReturns, gist_unlines hLines,
    List.map_map]
  congr 1
  apply List.map_congr_left
  intro line _
  exact trimEnd_append_blanks line hBlank

theorem gist_concat_blank
    (t : Text)
    {c : Char}
    (hBlank : isBlank c = true) :
    gist (t ++ [c]) = gist t := by
  rcases exists_unlines t with
    ⟨ls, last, hLines, hLast, rfl⟩
  rw [gist_unlines_append hLines hLast]
  by_cases hFeed : c = '\n'
  · -- The last line is now complete.
    have hMore : ∀ line ∈ ls ++ [last], '\n' ∉ line := by
      intro line hMem
      rcases List.mem_append.mp hMem with hMem | hMem
      · exact hLines line hMem
      · rw [List.mem_singleton.mp hMem]
        exact hLast
    rw [← gist_unlines hMore, unlines_append, unlines_cons,
      unlines_nil, hFeed, List.append_assoc]
  · have hMore : '\n' ∉ last ++ [c] := by
      simp [hLast, Ne.symm hFeed]
    have hTrim : trimEnd (last ++ [c]) = trimEnd last :=
      trimEnd_append_blanks last (by simpa using hBlank)
    rw [List.append_assoc, gist_unlines_append hLines hMore,
      List.map_append, List.map_append, List.map_singleton,
      List.map_singleton, hTrim]

/- Blanks behind a text make no difference to its gist. -/
theorem gist_append_blanks
    (t : Text)
    {blanks : Text}
    (hBlanks : ∀ c ∈ blanks, isBlank c = true) :
    gist (t ++ blanks) = gist t := by
  induction blanks generalizing t with
  | nil => rw [List.append_nil]
  | cons c blanks ih =>
      rw [List.forall_mem_cons] at hBlanks
      rw [List.append_cons, ih (t ++ [c]) hBlanks.2,
        gist_concat_blank t hBlanks.1]

end Text

end Collate
