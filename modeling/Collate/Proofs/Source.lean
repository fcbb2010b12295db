import Collate.Source
import Collate.Proofs.Line

/-
  What a source is made of: where its header ends, which
  roles its lines have after that, and what each role adds to
  the module, the imports and the body.

  Key definitions include:
    * `LineGrammar.regionAfter`
    * `LineGrammar.keepsHeader`
    * `LineGrammar.Fits`
    * `Source.plainLines`
    * `Source.Clean`

  Main declarations:
    * `Source.collect_of_divides`
    * `Source.mem_imports_contribute`
    * `Source.body_contribute`
    * `Source.contribute_append`
    * `Source.read_of_divides`
    * `Source.clean_read`
    * `Source.read_invariant`
-/

------------------------------------------------------------
-- Roles after the Header
------------------------------------------------------------

namespace Collate

namespace LineRole

/- Whether a line declares the module. -/
def declares : LineRole → Bool
  | .moduleDeclaration _ => true
  | _ => false

/- Whether a line belongs to the code. -/
def isPlain : LineRole → Bool
  | .code | .blank => true
  | _ => false

/- The entry that a line adds to the imports, if any. -/
def imported? : LineRole → Option Text
  | .blockEntry entry | .singleImport entry => some entry
  | _ => none

end LineRole

namespace LineGrammar

variable {g : LineGrammar}

/- The roles that a line can have after the header. -/
inductive Fits
    (g : LineGrammar)
    (line : Text) : LineRole → Prop where
  | opening
      (hOpens : g.opensBlock line.trim = true) :
      Fits g line .blockOpen
  | closing
      (hClose : line.trim = g.blockClose) :
      Fits g line .blockClose
  | entry : Fits g line (.blockEntry line.trim)
  | single
      {entry : Text}
      (hEntry : g.singleImport? line.trim = some entry) :
      Fits g line (.singleImport entry)
  | plain
      (hPlain : g.IsPlain line) :
      Fits g line (plainRole line)

/- After the header a line fits its role and stays after it. -/
theorem classify_fits
    (hUsable : g.Usable)
    {region : Region}
    (hRegion : region ≠ .header)
    (line : Text) :
    g.Fits line (g.classify region line).1 ∧
      (g.classify region line).2 ≠ .header := by
  cases region with
  | header => exact absurd rfl hRegion
  | importBlock =>
      by_cases hClose : line.trim = g.blockClose
      · rw [classify_closes hClose]
        exact ⟨.closing hClose, by simp⟩
      · rw [classify_entry hClose]
        exact ⟨.entry, by simp⟩
  | body =>
      cases hOpens : g.opensBlock line.trim with
      | true =>
          rw [classify_opens hUsable hOpens]
          exact ⟨.opening hOpens, by simp⟩
      | false =>
          cases hEntry : g.singleImport? line.trim with
          | some entry =>
              rw [classify_imports hUsable hOpens hEntry]
              exact ⟨.single hEntry, by simp⟩
          | none =>
              have hPlain : g.IsPlain line := ⟨hOpens, hEntry⟩
              rw [classify_plain hPlain]
              exact ⟨.plain hPlain, by simp⟩

/- After the header every line fits the role it is given. -/
theorem fits_of_mem_roles
    (hUsable : g.Usable)
    {region : Region}
    (hRegion : region ≠ .header)
    {lines : List Text}
    {line : Text}
    {role : LineRole}
    (hMem : (line, role) ∈ g.roles region lines) :
    line ∈ lines ∧ g.Fits line role := by
  induction lines generalizing region with
  | nil => simp [roles] at hMem
  | cons first rest ih =>
      rcases classify_fits hUsable hRegion first with
        ⟨hFits, hNext⟩
      rw [roles] at hMem
      rcases List.mem_cons.mp hMem with hSame | hMem
      · rcases Prod.mk.inj hSame with ⟨rfl, rfl⟩
        exact ⟨by simp, hFits⟩
      · rcases ih hNext hMem with ⟨hLine, hRole⟩
        exact ⟨List.mem_cons_of_mem _ hLine, hRole⟩

@[simp] theorem isPlain_plainRole
    (line : Text) :
    (plainRole line).isPlain = true := by
  unfold plainRole
  split <;> rfl

@[simp] theorem declares_plainRole
    (line : Text) :
    (plainRole line).declares = false := by
  unfold plainRole
  split <;> rfl

@[simp] theorem imported?_plainRole
    (line : Text) :
    (plainRole line).imported? = none := by
  unfold plainRole
  split <;> rfl

/- The region in which the line after some lines stands. -/
def regionAfter
    (g : LineGrammar) : Region → List Text → Region
  | region, [] => region
  | region, line :: rest =>
      regionAfter g (g.classify region line).2 rest

/- Lines behind others begin in the region after those. -/
theorem roles_append
    (g : LineGrammar)
    (region : Region)
    (before after : List Text) :
    g.roles region (before ++ after) =
      g.roles region before ++
        g.roles (g.regionAfter region before) after := by
  induction before generalizing region with
  | nil => rfl
  | cons line before ih =>
      simp [roles, regionAfter, ih]

/- The lines of a block are entries up to its closing line. -/
theorem roles_entries_append
    {entries : List Text}
    (hEntries : ∀ line ∈ entries, line.trim ≠ g.blockClose)
    (rest : List Text) :
    g.roles .importBlock (entries ++ rest) =
      (entries.map fun line =>
          (line, LineRole.blockEntry line.trim)) ++
        g.roles .importBlock rest := by
  induction entries with
  | nil => rfl
  | cons line entries ih =>
      have hRest := ih fun other hMem =>
        hEntries other (List.mem_cons_of_mem _ hMem)
      simp [roles, hRest,
        classify_entry (hEntries line (by simp))]

/- Plain lines are plain wherever they stand in the body. -/
theorem roles_plain
    {lines : List Text}
    (hLines : ∀ line ∈ lines, g.IsPlain line) :
    g.roles .body lines =
      lines.map fun line => (line, plainRole line) := by
  induction lines with
  | nil => rfl
  | cons line rest ih =>
      have hRest := ih fun other hMem =>
        hLines other (List.mem_cons_of_mem _ hMem)
      simp [roles, hRest, classify_plain (hLines line (by simp))]

/- No module is declared after the header. -/
theorem declares_of_mem_roles
    (hUsable : g.Usable)
    {region : Region}
    (hRegion : region ≠ .header)
    {lines : List Text}
    {annotated : Text × LineRole}
    (hMem : annotated ∈ g.roles region lines) :
    annotated.2.declares = false := by
  rcases annotated with ⟨line, role⟩
  rcases fits_of_mem_roles hUsable hRegion hMem with
    ⟨-, hFits⟩
  cases hFits with
  | opening | closing | entry | single => rfl
  | plain => exact declares_plainRole line

------------------------------------------------------------
-- The Header
------------------------------------------------------------

/-
  Whether a line leaves the header open: it is blank, or a
  comment that declares no module.
-/
def keepsHeader
    (g : LineGrammar)
    (line : Text) : Bool :=
  line.trim.isEmpty ||
    ((g.moduleName? line.trim).isNone && g.isComment line.trim)

/- A line that leaves the header open only stays in it. -/
theorem classify_keepsHeader
    {line : Text}
    (hKeeps : g.keepsHeader line = true) :
    g.classify .header line = (.blank, .header) ∨
      g.classify .header line = (.headerComment, .header) := by
  by_cases hBlank : line.trim = []
  · exact .inl (by simp [classify, hBlank])
  · simp only [keepsHeader, Bool.or_eq_true, List.isEmpty_iff,
      hBlank, false_or, Bool.and_eq_true,
      Option.isNone_iff_eq_none] at hKeeps
    exact .inr (by simp [classify, hBlank, hKeeps])

/- A declaration ends the header. -/
theorem classify_declares
    (hUsable : g.Usable)
    {line name : Text}
    (hName : g.moduleName? line.trim = some name) :
    g.classify .header line =
      (.moduleDeclaration name, .body) := by
  have hNotBlank : line.trim ≠ [] := by
    intro hBlank
    rw [hBlank] at hName
    cases hKeyword : g.moduleKeyword with
    | nil => exact hUsable.moduleKeyword.nonempty hKeyword
    | cons c keyword =>
        simp [moduleName?, hKeyword, Text.after?] at hName
  simp [classify, hNotBlank, hName]

/- Any other line ends the header as if it stood after it. -/
theorem classify_leaves
    {line : Text}
    (hLeaves : g.keepsHeader line = false)
    (hNone : g.moduleName? line.trim = none) :
    g.classify .header line = g.classify .body line := by
  simp only [keepsHeader, hNone, Option.isNone_none,
    Bool.true_and, Bool.or_eq_false_iff] at hLeaves
  simp [classify, hLeaves, hNone]

/-
  The lines of a file divide into a header, which is as long
  as possible, and the region after it.  The line between
  them declares the module, or there is no such line.
-/
inductive Divides
    (g : LineGrammar) :
    List Text → List Text → Option Text → List Text → Prop where
  | declared
      {header region : List Text}
      {line name : Text}
      (hHeader : ∀ l ∈ header, g.keepsHeader l = true)
      (hLeaves : g.keepsHeader line = false)
      (hName : g.moduleName? line.trim = some name) :
      Divides g (header ++ line :: region) header
        (some name) region
  | undeclared
      {header region : List Text}
      (hHeader : ∀ l ∈ header, g.keepsHeader l = true)
      (hRegion :
        ∀ l, region.head? = some l →
          g.keepsHeader l = false ∧
            g.moduleName? l.trim = none) :
      Divides g (header ++ region) header none region

/- Every list of lines divides in this way. -/
theorem exists_divides
    (g : LineGrammar)
    (lines : List Text) :
    ∃ header name region,
      g.Divides lines header name region := by
  have hHeader :
      ∀ l ∈ lines.takeWhile g.keepsHeader,
        g.keepsHeader l = true :=
    fun l hMem => List.mem_takeWhile_imp hMem
  have hSplit : lines.takeWhile g.keepsHeader ++
      lines.dropWhile g.keepsHeader = lines :=
    List.takeWhile_append_dropWhile
  cases hRest : lines.dropWhile g.keepsHeader with
  | nil =>
      have hDivides :
          g.Divides (lines.takeWhile g.keepsHeader ++ [])
            (lines.takeWhile g.keepsHeader) none [] :=
        .undeclared hHeader (by simp)
      rw [← hRest, hSplit] at hDivides
      exact ⟨_, _, _, hDivides⟩
  | cons line region =>
      have hLeaves : g.keepsHeader line = false := by
        have hNot :=
          List.head?_dropWhile_not g.keepsHeader lines
        rw [hRest] at hNot
        exact hNot
      rw [hRest] at hSplit
      cases hName : g.moduleName? line.trim with
      | some name =>
          have hDivides :
              g.Divides
                (lines.takeWhile g.keepsHeader ++
                  line :: region)
                (lines.takeWhile g.keepsHeader) (some name)
                region :=
            .declared hHeader hLeaves hName
          rw [hSplit] at hDivides
          exact ⟨_, _, _, hDivides⟩
      | none =>
          have hDivides :
              g.Divides
                (lines.takeWhile g.keepsHeader ++
                  line :: region)
                (lines.takeWhile g.keepsHeader) none
                (line :: region) := by
            refine .undeclared hHeader ?_
            intro l hFirst
            have hSame : line = l := Option.some.inj hFirst
            subst hSame
            exact ⟨hLeaves, hName⟩
          rw [hSplit] at hDivides
          exact ⟨_, _, _, hDivides⟩

namespace Divides

variable {lines header region : List Text}
variable {name : Option Text}

/- The lines of the region are lines of the file. -/
theorem mem_lines
    (hDivides : g.Divides lines header name region)
    {line : Text}
    (hMem : line ∈ region) :
    line ∈ lines := by
  cases hDivides with
  | declared =>
      exact List.mem_append_right _
        (List.mem_cons_of_mem _ hMem)
  | undeclared => exact List.mem_append_right _ hMem

/- A declared module has a module name. -/
theorem isModuleName
    (hDivides : g.Divides lines header name region)
    {declared : Text}
    (hName : name = some declared) :
    IsModuleName declared := by
  cases hDivides with
  | declared hHeader hLeaves hFound =>
      cases hName
      exact isModuleName_of_moduleName? hFound
  | undeclared => cases hName

end Divides

end LineGrammar

------------------------------------------------------------
-- Contributions
------------------------------------------------------------

namespace ImportSet

theorem mem_insert_iff
    {imports : ImportSet}
    {entry other : Text} :
    entry ∈ imports.insert other ↔
      entry = other ∨ entry ∈ imports := by
  rw [Std.ExtTreeSet.mem_insert,
    Std.LawfulEqCmp.compare_eq_iff_eq, eq_comm]

end ImportSet

namespace Source

variable {g : LineGrammar}
variable {mark : Text}

/- The lines that belong to the code, as the body has them. -/
def plainLines
    (annotated : List (Text × LineRole)) : List Text :=
  (annotated.filter (·.2.isPlain)).map (·.1.trimEnd)

theorem plainLines_append
    (before after : List (Text × LineRole)) :
    plainLines (before ++ after) =
      plainLines before ++ plainLines after := by
  simp [plainLines]

/- An entry that counts is neither empty nor a comment. -/
theorem counts_iff
    {entry : Text} :
    counts mark entry = true ↔
      entry ≠ [] ∧ (mark ≠ [] → ¬ mark <+: entry) := by
  rw [← Text.startsWith_iff]
  by_cases hMark : mark = []
  · simp [counts, hMark]
  · simp [counts, hMark]

theorem mem_imports_addImport
    {s : Source}
    {entry other : Text} :
    entry ∈ (s.addImport mark other).imports ↔
      (counts mark entry = true ∧ entry = other) ∨
        entry ∈ s.imports := by
  unfold addImport
  by_cases hCounts : counts mark other = true
  · simp only [hCounts, if_true, ImportSet.mem_insert_iff]
    constructor
    · rintro (rfl | hMem)
      · exact .inl ⟨hCounts, rfl⟩
      · exact .inr hMem
    · rintro (⟨-, rfl⟩ | hMem)
      · exact .inl rfl
      · exact .inr hMem
  · simp only [hCounts, Bool.false_eq_true, if_false]
    constructor
    · intro hMem
      exact .inr hMem
    · rintro (⟨hEntry, rfl⟩ | hMem)
      · exact absurd hEntry hCounts
      · exact hMem

@[simp] theorem moduleName_addImport
    (s : Source)
    (entry : Text) :
    (s.addImport mark entry).moduleName = s.moduleName := by
  unfold addImport
  split <;> rfl

@[simp] theorem body_addImport
    (s : Source)
    (entry : Text) :
    (s.addImport mark entry).body = s.body := by
  unfold addImport
  split <;> rfl

/- Sources with the same parts are the same. -/
theorem ext_parts
    {s other : Source}
    (hModule : s.moduleName = other.moduleName)
    (hImports :
      ∀ entry, entry ∈ s.imports ↔ entry ∈ other.imports)
    (hBody : s.body = other.body) :
    s = other := by
  rcases s with ⟨name, imports, body⟩
  rcases other with ⟨name', imports', body'⟩
  have hSame : imports = imports' :=
    Std.ExtTreeSet.ext_mem fun {entry} => hImports entry
  cases hModule
  cases hSame
  cases hBody
  rfl

/- The imports are the entries that count, whatever else. -/
theorem mem_imports_contribute
    {name : Option Text}
    {annotated : List (Text × LineRole)}
    {entry : Text} :
    entry ∈ (contribute mark name annotated).imports ↔
      counts mark entry = true ∧
        ∃ line ∈ annotated, line.2.imported? = some entry := by
  induction annotated generalizing name with
  | nil => simp [contribute]
  | cons first rest ih =>
      rcases first with ⟨line, role⟩
      cases role with
      | moduleDeclaration declared =>
          simp [contribute, ih, LineRole.imported?]
      | blockOpen => simp [contribute, ih, LineRole.imported?]
      | blockClose => simp [contribute, ih, LineRole.imported?]
      | headerComment =>
          simp [contribute, ih, LineRole.imported?]
      | blockEntry other =>
          simp only [contribute, mem_imports_addImport, ih,
            List.mem_cons, exists_eq_or_imp, LineRole.imported?,
            Option.some.injEq, eq_comm (a := other)]
          tauto
      | singleImport other =>
          simp only [contribute, mem_imports_addImport, ih,
            List.mem_cons, exists_eq_or_imp, LineRole.imported?,
            Option.some.injEq, eq_comm (a := other)]
          tauto
      | code =>
          cases name <;>
            simp [contribute, addLine, ih, LineRole.imported?]
      | blank =>
          cases name <;>
            simp [contribute, addLine, ih, LineRole.imported?]

/- Lines that declare nothing leave the module as it is. -/
theorem moduleName_contribute
    {name : Option Text}
    {annotated : List (Text × LineRole)}
    (hRoles :
      ∀ line ∈ annotated, line.2.declares = false) :
    (contribute mark name annotated).moduleName = name := by
  induction annotated generalizing name with
  | nil => rfl
  | cons first rest ih =>
      rcases first with ⟨line, role⟩
      have hRest :
          ∀ name, (contribute mark name rest).moduleName =
            name :=
        fun name => ih fun other hMem =>
          hRoles other (List.mem_cons_of_mem _ hMem)
      cases role with
      | moduleDeclaration declared =>
          have hFirst := hRoles _ List.mem_cons_self
          simp [LineRole.declares] at hFirst
      | blockOpen | blockClose | headerComment =>
          simp [contribute, hRest]
      | blockEntry entry | singleImport entry =>
          simp [contribute, hRest]
      | code | blank =>
          cases name <;> simp [contribute, addLine, hRest]

/- The body has the plain lines once a module is declared. -/
theorem body_contribute
    {name : Option Text}
    {annotated : List (Text × LineRole)}
    (hRoles :
      ∀ line ∈ annotated, line.2.declares = false) :
    (contribute mark name annotated).body =
      if name = none then [] else plainLines annotated := by
  induction annotated generalizing name with
  | nil => cases name <;> rfl
  | cons first rest ih =>
      rcases first with ⟨line, role⟩
      have hRest :
          ∀ name, (contribute mark name rest).body =
            if name = none then [] else plainLines rest :=
        fun name => ih fun other hMem =>
          hRoles other (List.mem_cons_of_mem _ hMem)
      cases role with
      | moduleDeclaration declared =>
          have hFirst := hRoles _ List.mem_cons_self
          simp [LineRole.declares] at hFirst
      | blockOpen | blockClose | headerComment =>
          simp [contribute, hRest, plainLines,
            LineRole.isPlain]
      | blockEntry entry | singleImport entry =>
          simp [contribute, hRest, plainLines,
            LineRole.isPlain]
      | code | blank =>
          cases name <;>
            simp [contribute, addLine, hRest, plainLines,
              LineRole.isPlain]

/- What lines contribute before others that contribute. -/
def followedBy
    (s after : Source) : Source where
  moduleName := after.moduleName
  imports := s.imports ∪ after.imports
  body := s.body ++ after.body

theorem addImport_followedBy
    (s after : Source)
    (entry : Text) :
    (s.addImport mark entry).followedBy after =
      (s.followedBy after).addImport mark entry := by
  apply ext_parts
  · simp [followedBy]
  · intro other
    simp only [followedBy, Std.ExtTreeSet.mem_union_iff,
      mem_imports_addImport, or_assoc]
  · simp [followedBy]

/- Lines behind others know the module that those declare. -/
theorem contribute_append
    (mark : Text)
    (name : Option Text)
    (before after : List (Text × LineRole)) :
    contribute mark name (before ++ after) =
      let s := contribute mark name before
      s.followedBy (contribute mark s.moduleName after) := by
  induction before generalizing name with
  | nil =>
      refine ext_parts rfl ?_ rfl
      intro entry
      simp [contribute, followedBy]
  | cons first rest ih =>
      rcases first with ⟨line, role⟩
      cases role with
      | moduleDeclaration declared => exact ih (some declared)
      | blockOpen | blockClose | headerComment => exact ih name
      | blockEntry entry | singleImport entry =>
          simp only [List.cons_append, contribute, ih,
            moduleName_addImport, addImport_followedBy]
      | code | blank =>
          cases name with
          | none => exact ih none
          | some declared =>
              simp only [List.cons_append, contribute, ih]
              rfl

------------------------------------------------------------
-- Collecting after the Header
------------------------------------------------------------

/- Everything that lines behind others contribute. -/
theorem collect_append
    (g : LineGrammar)
    (mark : Text)
    (before after : List Text) :
    collect g mark (before ++ after) =
      let s := collect g mark before
      s.followedBy
        (contribute mark s.moduleName
          (g.roles (g.regionAfter .header before) after)) := by
  unfold collect
  rw [LineGrammar.roles_append, contribute_append]

/- The lines of a header contribute nothing. -/
theorem collect_header_append
    {header : List Text}
    (hHeader : ∀ line ∈ header, g.keepsHeader line = true)
    (rest : List Text) :
    collect g mark (header ++ rest) = collect g mark rest := by
  induction header with
  | nil => rfl
  | cons line header ih =>
      have hLater := ih fun other hMem =>
        hHeader other (List.mem_cons_of_mem _ hMem)
      unfold collect at hLater ⊢
      rcases LineGrammar.classify_keepsHeader
          (hHeader line (by simp)) with hRole | hRole
      · simpa [LineGrammar.roles, hRole, contribute]
          using hLater
      · simpa [LineGrammar.roles, hRole, contribute]
          using hLater

/- Only the region contributes, and the module is known. -/
theorem collect_of_divides
    (hUsable : g.Usable)
    (mark : Text)
    {lines header region : List Text}
    {name : Option Text}
    (hDivides : g.Divides lines header name region) :
    collect g mark lines =
      contribute mark name (g.roles .body region) := by
  cases hDivides with
  | declared hHeader hLeaves hName =>
      rw [collect_header_append hHeader]
      simp [collect, LineGrammar.roles, contribute,
        LineGrammar.classify_declares hUsable hName]
  | undeclared hHeader hRegion =>
      rw [collect_header_append hHeader]
      unfold collect
      cases region with
      | nil => rfl
      | cons line rest =>
          rcases hRegion line rfl with ⟨hLeaves, hNone⟩
          simp [LineGrammar.roles,
            LineGrammar.classify_leaves hLeaves hNone]

/- Reading only trims the body that was collected. -/
theorem read_of_collect
    {text : Text}
    {s : Source}
    (hCollect : collect g mark text.lines = s) :
    read g mark text =
      ⟨s.moduleName, s.imports, Text.trimBlankEdges s.body⟩ := by
  unfold read
  rw [hCollect]

/- What is read from a file, by what its region contributes. -/
theorem read_of_divides
    (hUsable : g.Usable)
    (mark : Text)
    {text : Text}
    {header region : List Text}
    {name : Option Text}
    (hDivides : g.Divides text.lines header name region) :
    (read g mark text).moduleName = name ∧
      (∀ entry,
        entry ∈ (read g mark text).imports ↔
          counts mark entry = true ∧
            ∃ line ∈ g.roles .body region,
              line.2.imported? = some entry) ∧
      (read g mark text).body =
        Text.trimBlankEdges
          (if name = none then []
            else plainLines (g.roles .body region)) := by
  have hRoles :
      ∀ line ∈ g.roles .body region,
        line.2.declares = false := by
    intro line hMem
    exact LineGrammar.declares_of_mem_roles hUsable (by simp)
      hMem
  have hRead :=
    read_of_collect (collect_of_divides hUsable mark hDivides)
  rw [hRead]
  refine ⟨moduleName_contribute hRoles, ?_, ?_⟩
  · intro entry
    exact mem_imports_contribute
  · rw [body_contribute hRoles]

------------------------------------------------------------
-- Clean Sources
------------------------------------------------------------

/- An import entry as a source can have it. -/
structure IsEntry
    (mark entry : Text) : Prop where
  solid : entry.Solid
  noFeed : '\n' ∉ entry
  counts : counts mark entry = true

/- A line of code as a source can have it. -/
structure IsBodyLine
    (g : LineGrammar)
    (line : Text) : Prop where
  noFeed : '\n' ∉ line
  trimmed : line.trimEnd = line
  plain : g.IsPlain line

/- A body as a source can have it. -/
structure IsBody
    (g : LineGrammar)
    (body : List Text) : Prop where
  lines : ∀ line ∈ body, IsBodyLine g line
  tight : Edges.Tight Text.allBlank body

/- What every source that was read satisfies. -/
structure Clean
    (g : LineGrammar)
    (mark : Text)
    (s : Source) : Prop where
  moduleName :
    ∀ name, s.moduleName = some name → IsModuleName name
  imports : ∀ entry ∈ s.imports, IsEntry mark entry
  undeclared : s.moduleName = none → s.body = []
  body : IsBody g s.body

/- Entries of lines after the header are clean. -/
theorem isEntry_of_roles
    (hUsable : g.Usable)
    {lines : List Text}
    (hLines : ∀ line ∈ lines, '\n' ∉ line)
    {annotated : Text × LineRole}
    (hMem : annotated ∈ g.roles .body lines)
    {entry : Text}
    (hEntry : annotated.2.imported? = some entry)
    (hCounts : counts mark entry = true) :
    IsEntry mark entry := by
  rcases annotated with ⟨line, role⟩
  rcases LineGrammar.fits_of_mem_roles hUsable (by simp)
      hMem with
    ⟨hLine, hFits⟩
  have hFeed : '\n' ∉ line.trim := fun hIn =>
    hLines line hLine (Text.mem_of_mem_trim hIn)
  cases hFits with
  | opening | closing => cases hEntry
  | plain hPlain => simp at hEntry
  | entry =>
      cases hEntry
      have hNonempty := (counts_iff.mp hCounts).1
      exact ⟨⟨hNonempty, Text.tight_trim line⟩, hFeed, hCounts⟩
  | single hSingle =>
      cases hEntry
      rcases LineGrammar.singleImport?_eq_some hSingle with
        ⟨hSolid, hFrom⟩
      refine ⟨hSolid, ?_, hCounts⟩
      intro hIn
      rcases hFrom _ hIn with hIn | hSpace
      · exact hFeed hIn
      · exact absurd hSpace (by decide)

/- Plain lines after the header are clean once trimmed. -/
theorem isBodyLine_of_roles
    (hUsable : g.Usable)
    {lines : List Text}
    (hLines : ∀ line ∈ lines, '\n' ∉ line)
    {line : Text}
    (hMem : line ∈ plainLines (g.roles .body lines)) :
    IsBodyLine g line := by
  unfold plainLines at hMem
  rcases List.mem_map.mp hMem with
    ⟨⟨whole, role⟩, hFound, rfl⟩
  rcases List.mem_filter.mp hFound with
    ⟨hRole, hPlainRole⟩
  rcases LineGrammar.fits_of_mem_roles hUsable (by simp)
      hRole with
    ⟨hLine, hFits⟩
  have hPlain : g.IsPlain whole := by
    cases hFits with
    | opening | closing | entry | single => cases hPlainRole
    | plain hPlain => exact hPlain
  refine ⟨?_, Text.trimEnd_trimEnd whole,
    LineGrammar.isPlain_trimEnd hPlain⟩
  intro hIn
  exact hLines whole hLine (Text.mem_of_mem_trimEnd hIn)

/- Every source that is read is clean. -/
theorem clean_read
    (hUsable : g.Usable)
    (mark text : Text) :
    Clean g mark (read g mark text) := by
  rcases g.exists_divides text.lines with
    ⟨header, name, region, hDivides⟩
  rcases read_of_divides hUsable mark hDivides with
    ⟨hModule, hImports, hBody⟩
  have hLines : ∀ line ∈ region, '\n' ∉ line := by
    intro line hMem
    exact Text.feed_not_mem_of_mem_lines
      (hDivides.mem_lines hMem)
  refine ⟨?_, ?_, ?_, ?_, ?_⟩
  · intro declared hDeclared
    exact hDivides.isModuleName (hModule ▸ hDeclared)
  · intro entry hMem
    rcases (hImports entry).mp hMem with
      ⟨hCounts, line, hRole, hEntry⟩
    exact isEntry_of_roles hUsable hLines hRole hEntry
      hCounts
  · intro hNone
    rw [hModule] at hNone
    rw [hBody, if_pos hNone]
    rfl
  · intro line hMem
    rw [hBody, Text.trimBlankEdges_eq_strip] at hMem
    have hFound := Edges.mem_of_mem_strip hMem
    by_cases hNone : name = none
    · simp [hNone] at hFound
    · rw [if_neg hNone] at hFound
      exact isBodyLine_of_roles hUsable hLines hFound
  · rw [hBody]
    exact Text.tight_trimBlankEdges _

/-
  Whatever is read, the entries are trimmed lines that count,
  the module has a module name, and there is no body without
  it.  The body neither begins nor ends with a blank line, and
  read again outside of blocks each of its lines belongs to
  the code.
-/
theorem read_invariant
    {d : Dialect}
    (hAccept : d.accept = .ok g)
    (mark text : Text) :
    let s := read g mark text
    (∀ entry ∈ s.imports,
        entry ≠ [] ∧ entry.trim = entry ∧ '\n' ∉ entry ∧
          (mark ≠ [] → ¬ mark <+: entry)) ∧
      (∀ name,
        s.moduleName = some name →
          name ≠ [] ∧
            ∀ c ∈ name, Text.isBlank c = false ∧ c ≠ ';') ∧
      (s.moduleName = none → s.body = []) ∧
      (∀ line,
        s.body.head? = some line ∨
            s.body.getLast? = some line →
          line.allBlank = false) ∧
      ∀ line ∈ s.body,
        '\n' ∉ line ∧
          (∀ c, line.getLast? = some c →
            Text.isBlank c = false) ∧
          (g.classify .body line = (.code, .body) ∨
            g.classify .body line = (.blank, .body)) := by
  intro s
  have hClean : s.Clean g mark :=
    clean_read (Dialect.usable_of_accept hAccept) mark text
  refine ⟨?_, ?_, hClean.undeclared, ?_, ?_⟩
  · intro entry hMem
    have hEntry := hClean.imports entry hMem
    exact
      ⟨hEntry.solid.nonempty, hEntry.solid.trim_eq,
        hEntry.noFeed, (counts_iff.mp hEntry.counts).2⟩
  · intro name hName
    have hDeclared := hClean.moduleName name hName
    refine ⟨hDeclared.nonempty, ?_⟩
    intro c hMem
    simpa [inModuleName] using hDeclared.letters c hMem
  · rintro line (hFirst | hLast)
    · exact hClean.body.tight.first line hFirst
    · exact hClean.body.tight.last line hLast
  · intro line hMem
    have hLine := hClean.body.lines line hMem
    refine ⟨hLine.noFeed, ?_, ?_⟩
    · intro c hLast
      rw [← hLine.trimmed] at hLast
      exact Text.last_trimEnd hLast
    · rw [LineGrammar.classify_plain hLine.plain]
      unfold LineGrammar.plainRole
      split
      · exact .inr rfl
      · exact .inl rfl

/- Wide blanks, stray returns and a block that is not closed. -/
def strayText : Text :=
  ("\u2003package p;q\r\n\nvar\u3000a \r\r\n" ++
    "import (\n\u00A0x \"y\" \r").toList

def strayEntry : Text :=
  "x \"y\"".toList

def wideLine : Text :=
  "var\u3000a".toList

theorem read_invariant_strayText :
    let s :=
      read Dialect.go.grammar Dialect.go.commentMark strayText
    s.moduleName = some "p".toList ∧
      (strayEntry ∈ s.imports ∧
        strayEntry.trim = strayEntry) ∧
      s.body = [wideLine] ∧
      (Dialect.go.grammar.classify .body wideLine =
          (.code, .body) ∨
        Dialect.go.grammar.classify .body wideLine =
          (.blank, .body)) := by
  intro s
  have hAccept :
      Dialect.go.accept = .ok Dialect.go.grammar := rfl
  rcases read_invariant hAccept Dialect.go.commentMark
      strayText with
    ⟨hImports, -, -, -, hBody⟩
  have hEntry : strayEntry ∈ s.imports := by
    decide +kernel
  have hLines : s.body = [wideLine] := by
    decide +kernel
  have hLine : wideLine ∈ s.body := by
    simp [hLines]
  exact
    ⟨by decide +kernel, ⟨hEntry, (hImports _ hEntry).2.1⟩,
      hLines, (hBody _ hLine).2.2⟩

end Source

end Collate
