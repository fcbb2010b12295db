import Collate.Coverage.Report
import Collate.Proofs.Line

/-
  The lines of a coverage table.  A line counts towards a file
  if its words name the file first and end in a percentage,
  and it says so without regard to how it is read.

  Key definitions include:
    * `Percent.Writes`
    * `CoverLine.NamesFile`
    * `CoverLine.HoldsTotal`
    * `CoverLine.Counts`
    * `CoverLine.CountsFor`
    * `CoverLine.IsCounted`

  Main declarations:
    * `Text.holds_iff`
    * `Text.words_eq_nil_iff`
    * `CoverLine.read_eq_function_iff`
    * `CoverLine.read_eq_total_iff`
-/

------------------------------------------------------------
-- Parts and Words of a Text
------------------------------------------------------------

namespace Collate

namespace Text

/- A text holds a part if it stands anywhere in the text. -/
theorem holds_iff
    {t part : Text} :
    t.holds part = true ↔ part <:+: t := by
  induction t with
  | nil => simp [holds]
  | cons c t ih =>
      rw [holds, Bool.or_eq_true, startsWith_iff, ih,
        List.infix_cons_iff]

/- There is no word without a character that is not blank. -/
theorem wordsFrom_eq_nil_iff
    {word t : Text} :
    wordsFrom word t = [] ↔
      word = [] ∧ ∀ c ∈ t, isBlank c = true := by
  induction t generalizing word with
  | nil => by_cases hWord : word = [] <;> simp [wordsFrom, hWord]
  | cons c t ih =>
      by_cases hBlank : isBlank c = true
      · by_cases hWord : word = []
        · simp [wordsFrom, hBlank, hWord, ih]
        · simp [wordsFrom, hBlank, hWord]
      · simp [wordsFrom, hBlank, ih]

theorem words_eq_nil_iff
    {t : Text} :
    t.words = [] ↔ t.allBlank = true := by
  rw [words, wordsFrom_eq_nil_iff, allBlank_iff]
  simp

end Text

------------------------------------------------------------
-- Percentages and Files
------------------------------------------------------------

namespace Percent

/-
  A word writes a percentage if it is a number and any
  percent signs behind that.
-/
def Writes
    (word : Text)
    (percent : Percent) : Prop :=
  ∃ number signs,
    word = number ++ signs ∧
      (∀ c ∈ signs, c = '%') ∧
      number.getLast? ≠ some '%' ∧
      number? number = some percent

theorem read?_eq_some_iff
    {word : Text}
    {percent : Percent} :
    read? word = some percent ↔ Writes word percent := by
  have hDrop :
      Text.dropTrailing '%' word =
        word.rdropWhile (· == '%') := rfl
  rw [read?, hDrop]
  constructor
  · intro hRead
    refine
      ⟨word.rdropWhile (· == '%'), word.rtakeWhile (· == '%'),
        List.rdropWhile_append_rtakeWhile.symm, ?_, ?_,
        hRead⟩
    · intro c hMem
      simpa using List.mem_rtakeWhile_imp hMem
    · intro hLast
      have hSign := Edges.last_rdropWhile hLast
      simp at hSign
  · rintro ⟨number, signs, rfl, hSigns, hLast, hNumber⟩
    have hAll : ∀ c ∈ signs, (c == '%') = true := by
      simpa using hSigns
    have hEnds :
        ∀ c, number.getLast? = some c → (c == '%') = false := by
      intro c hFinal
      rw [beq_eq_false_iff_ne]
      rintro rfl
      exact hLast hFinal
    rw [Edges.rdropWhile_append _ hAll,
      Edges.rdropWhile_of_last hEnds]
    exact hNumber

end Percent

namespace CoverLine

/-
  A word names a file by what stands before its first colon
  and behind the last slash before that colon.
-/
def NamesFile
    (word file : Text) : Prop :=
  ∃ folder rest,
    word = folder ++ (file ++ ':' :: rest) ∧
      ':' ∉ folder ∧ ':' ∉ file ∧ '/' ∉ file ∧
      (folder = [] ∨ folder.getLast? = some '/')

/- The path in a word goes up to its first colon. -/
theorem takeWhile_colon
    {path : Text}
    (hPath : ':' ∉ path)
    (rest : Text) :
    (path ++ ':' :: rest).takeWhile (· != ':') = path := by
  apply Edges.takeWhile_of_longest
  · intro c hMem
    rw [bne_iff_ne]
    rintro rfl
    exact hPath hMem
  · simp

/- The file in a word is the one that the word names. -/
theorem fileOf_of_namesFile
    {word file : Text}
    (hNames : NamesFile word file) :
    fileOf word = file := by
  rcases hNames with
    ⟨folder, rest, rfl, hFolder, hColon, hSlash, hEnds⟩
  have hPath : ':' ∉ folder ++ file := by
    simp [hFolder, hColon]
  have hInside : ∀ c ∈ file.reverse, (c != '/') = true := by
    intro c hMem
    rw [bne_iff_ne]
    rintro rfl
    exact hSlash (List.mem_reverse.mp hMem)
  have hStops :
      ∀ c, folder.reverse.head? = some c →
        (c != '/') = false := by
    intro c hFirst
    rw [List.head?_reverse] at hFirst
    rcases hEnds with rfl | hLast
    · cases hFirst
    · rw [hLast] at hFirst
      cases hFirst
      rfl
  unfold fileOf
  dsimp only
  rw [← List.append_assoc, takeWhile_colon hPath,
    List.reverse_append,
    Edges.takeWhile_of_longest hInside hStops,
    List.reverse_reverse]

/- A word with a colon names a file. -/
theorem namesFile_fileOf
    {word : Text}
    (hColon : ':' ∈ word) :
    NamesFile word (fileOf word) := by
  have hPath :
      ∀ c ∈ word.takeWhile (· != ':'), c ≠ ':' := by
    intro c hMem
    simpa using List.mem_takeWhile_imp hMem
  have hSplit :
      (word.takeWhile (· != ':')).rdropWhile (· != '/') ++
          fileOf word =
        word.takeWhile (· != ':') :=
    List.rdropWhile_append_rtakeWhile
  have hParts :
      ∀ c ∈
          (word.takeWhile (· != ':')).rdropWhile (· != '/') ++
            fileOf word,
        c ≠ ':' := by
    rwa [hSplit]
  have hRest :
      ∃ rest, word.dropWhile (· != ':') = ':' :: rest := by
    cases hBehind : word.dropWhile (· != ':') with
    | nil =>
        rw [List.dropWhile_eq_nil_iff] at hBehind
        have hOther := hBehind ':' hColon
        simp at hOther
    | cons c rest =>
        have hFirst :
            (word.dropWhile (· != ':')).head? = some c := by
          rw [hBehind]
          rfl
        have hStop := Edges.first_dropWhile hFirst
        rw [bne_eq_false_iff_eq] at hStop
        exact ⟨rest, by rw [hStop]⟩
  rcases hRest with ⟨rest, hRest⟩
  refine
    ⟨(word.takeWhile (· != ':')).rdropWhile (· != '/'), rest,
      ?_, ?_, ?_, ?_, ?_⟩
  · rw [← List.append_assoc, hSplit, ← hRest,
      List.takeWhile_append_dropWhile]
  · intro hMem
    exact hParts _ (List.mem_append_left _ hMem) rfl
  · intro hMem
    exact hParts _ (List.mem_append_right _ hMem) rfl
  · intro hMem
    have hOther : ('/' != '/') = true :=
      List.mem_rtakeWhile_imp (p := (· != '/')) hMem
    simp at hOther
  · cases hLast :
        ((word.takeWhile (· != ':')).rdropWhile
          (· != '/')).getLast? with
    | none => exact .inl (List.getLast?_eq_none_iff.mp hLast)
    | some c =>
        have hStop := Edges.last_rdropWhile hLast
        rw [bne_eq_false_iff_eq] at hStop
        exact .inr (by rw [hStop])

------------------------------------------------------------
-- Lines That Count
------------------------------------------------------------

/- A line with the overall coverage holds the mark of it. -/
def HoldsTotal
    (line : Text) : Prop :=
  totalMark <:+: line

instance : DecidablePred HoldsTotal := fun _ =>
  decidable_of_iff _ Text.holds_iff

/-
  Words that name a file first and end in a percentage.
  There are at least three of them.
-/
def Tells
    (words : List Text)
    (file : Text)
    (percent : Percent) : Prop :=
  ∃ first between last,
    words = first :: (between ++ [last]) ∧
      between ≠ [] ∧
      NamesFile first file ∧
      Percent.Writes last percent

/- A line counts towards a file with a percentage. -/
structure Counts
    (start : Option Text)
    (line file : Text)
    (percent : Percent) : Prop where
  noTotal : ¬ HoldsTotal line
  starts : ∀ part, start = some part → part <+: line
  tells : Tells line.words file percent

theorem ofWords_eq_function_iff
    {words : List Text}
    {file : Text}
    {percent : Percent} :
    ofWords words = .function file percent ↔
      Tells words file percent := by
  constructor
  · intro hWords
    unfold ofWords at hWords
    split at hWords
    · rename_i first second third rest
      split at hWords
      · rename_i hColon
        have hColon : ':' ∈ first := by simpa using hColon
        dsimp only at hWords
        split at hWords
        · rename_i found hFound
          cases hWords
          have hNonempty : second :: third :: rest ≠ [] := by
            simp
          have hLast :=
            List.getLast?_eq_getLast_of_ne_nil hNonempty
          rw [hLast, Option.getD_some] at hFound
          exact
            ⟨first, (second :: third :: rest).dropLast, _,
              by rw [List.dropLast_append_getLast hNonempty],
              by simp, namesFile_fileOf hColon,
              Percent.read?_eq_some_iff.mp hFound⟩
        · cases hWords
      · cases hWords
    · cases hWords
  · rintro
      ⟨first, between, last, rfl, hBetween, hNames, hWrites⟩
    have hFile := fileOf_of_namesFile hNames
    have hColon : ':' ∈ first := by
      rcases hNames with ⟨folder, rest, rfl, -⟩
      simp
    have hRead := Percent.read?_eq_some_iff.mpr hWrites
    cases between with
    | nil => exact absurd rfl hBetween
    | cons second between =>
        -- The third word is the last one if no other follows.
        cases between with
        | nil => simp [ofWords, hColon, hRead, hFile]
        | cons third between =>
            simp [ofWords, hColon, hRead, hFile,
              List.getLast?_cons]

/- A line says the overall coverage if it holds the mark. -/
theorem read_eq_total_iff
    {start : Option Text}
    {line : Text}
    {word : Option Text} :
    read start line = .total word ↔
      HoldsTotal line ∧ word = line.words.getLast? := by
  have hWords :
      ∀ words, ofWords words ≠ .total word := by
    intro words
    unfold ofWords
    split
    · split
      · dsimp only
        split <;> simp
      · simp
    · simp
  unfold HoldsTotal
  rw [← Text.holds_iff]
  by_cases hMark : line.holds totalMark = true
  · simp [read, hMark, eq_comm]
  · cases start with
    | none => simp [read, hMark, hWords]
    | some part =>
        by_cases hStarts : line.startsWith part = true
        · simp [read, hMark, hStarts, hWords]
        · simp [read, hMark, hStarts]

/- A line is read as a function exactly if it counts. -/
theorem read_eq_function_iff
    {start : Option Text}
    {line file : Text}
    {percent : Percent} :
    read start line = .function file percent ↔
      Counts start line file percent := by
  have hFields :
      Counts start line file percent ↔
        ¬ line.holds totalMark = true ∧
          (∀ part, start = some part →
            line.startsWith part = true) ∧
          Tells line.words file percent := by
    simp only [Text.holds_iff, Text.startsWith_iff]
    exact
      ⟨fun h => ⟨h.noTotal, h.starts, h.tells⟩,
        fun ⟨hMark, hStarts, hTells⟩ =>
          ⟨hMark, hStarts, hTells⟩⟩
  rw [hFields, ← ofWords_eq_function_iff]
  by_cases hMark : line.holds totalMark = true
  · simp [read, hMark]
  · cases start with
    | none => simp [read, hMark]
    | some part =>
        by_cases hStarts : line.startsWith part = true
        · simp [read, hMark, hStarts]
        · simp [read, hMark, hStarts]

theorem function?_read_eq_some_iff
    {start : Option Text}
    {line file : Text}
    {percent : Percent} :
    (read start line).function? = some (file, percent) ↔
      Counts start line file percent := by
  rw [← read_eq_function_iff]
  cases read start line with
  | total word => simp [function?]
  | function other value => simp [function?]
  | other => simp [function?]

/- A line counts towards a file with some percentage. -/
def CountsFor
    (start : Option Text)
    (file line : Text) : Prop :=
  ∃ percent, Counts start line file percent

/- A line counts towards some file. -/
def IsCounted
    (start : Option Text)
    (line : Text) : Prop :=
  ∃ file, CountsFor start file line

theorem map_function?_read_eq_iff
    {start : Option Text}
    {line file : Text} :
    (read start line).function?.map (·.1) = some file ↔
      CountsFor start file line := by
  rw [Option.map_eq_some_iff]
  constructor
  · rintro ⟨⟨found, percent⟩, hFound, rfl⟩
    exact ⟨percent, function?_read_eq_some_iff.mp hFound⟩
  · rintro ⟨percent, hCounts⟩
    exact
      ⟨(file, percent),
        function?_read_eq_some_iff.mpr hCounts, rfl⟩

theorem isSome_function?_read_iff
    {start : Option Text}
    {line : Text} :
    (read start line).function?.isSome = true ↔
      IsCounted start line := by
  rw [Option.isSome_iff_exists]
  constructor
  · rintro ⟨⟨file, percent⟩, hFound⟩
    exact ⟨file, percent, function?_read_eq_some_iff.mp hFound⟩
  · rintro ⟨file, percent, hCounts⟩
    exact ⟨_, function?_read_eq_some_iff.mpr hCounts⟩

instance
    (start : Option Text)
    (file : Text) :
    DecidablePred (CountsFor start file) := fun _ =>
  decidable_of_iff _ map_function?_read_eq_iff

instance
    (start : Option Text) :
    DecidablePred (IsCounted start) := fun _ =>
  decidable_of_iff _ isSome_function?_read_iff

end CoverLine

end Collate
