import Collate.File.Tree
import Mathlib.Data.List.Basic

/-
  What a write changes in a file tree.  Which file a path
  names depends only on the places of directories, and a
  write moves none of them.

  Key definitions include:
    * `FileTree.follow?`
    * `FileTree.LeadsTo`
    * `FileTree.Names`
    * `FileTree.Replaces`

  Main declarations:
    * `FileTree.walk_of_leadsTo`
    * `FileTree.leadsTo_of_walk`
    * `FileTree.target_eq_ok_iff`
    * `FileTree.locate_of_names`
    * `FileTree.replaces_of_write`
-/

------------------------------------------------------------
-- Nodes
------------------------------------------------------------

namespace Collate

namespace FileTree

variable {t t' : FileTree}

@[simp] theorem current_set
    (t : FileTree)
    (place : Location)
    (node : Node) :
    (t.set place node).current = t.current := by
  rfl

/- A place that is not a directory is not the root. -/
theorem ne_nil_of_not_directory
    {place : Location}
    (hNot : t.node? place ≠ some .directory) :
    place ≠ [] := by
  rintro rfl
  exact hNot rfl

theorem node?_eq_getElem?
    {place : Location}
    (hPlace : place ≠ []) :
    t.node? place = t.nodes[place]? := by
  cases place with
  | nil => exact absurd rfl hPlace
  | cons name rest => rfl

theorem node?_set
    {place : Location}
    (hPlace : place ≠ [])
    (node : Node)
    (other : Location) :
    (t.set place node).node? other =
      if other = place then some node else t.node? other := by
  cases other with
  | nil => simp [node?, hPlace.symm]
  | cons name rest =>
      rw [node?_eq_getElem? (by simp),
        node?_eq_getElem? (by simp)]
      unfold set
      rw [Std.ExtTreeMap.getElem?_insert]
      simp only [Std.LawfulEqCmp.compare_eq_iff_eq]
      simp only [eq_comm]

/- Files take the place of files only. -/
theorem directory_set_file_iff
    {place : Location}
    (hNot : t.node? place ≠ some .directory)
    (content : Octets)
    (other : Location) :
    (t.set place (.file content)).node? other =
        some .directory ↔
      t.node? other = some .directory := by
  rw [node?_set (ne_nil_of_not_directory hNot)]
  by_cases hOther : other = place
  · subst hOther
    simp [hNot]
  · rw [if_neg hOther]

------------------------------------------------------------
-- Ways Through Directories
------------------------------------------------------------

/- Where one part of a path leads if everything is there. -/
def follow?
    (place : Location)
    (part : Text) : Option Location :=
  if part = Path.here then some place
  else if part = Path.up then some place.dropLast
  else if isLongName part then none
  else some (place ++ [part])

/- A way along parts of a path on which all is directories. -/
inductive LeadsTo
    (t : FileTree) :
    Location → List Text → Location → Prop where
  | stay
      {place : Location}
      (hPlace : t.node? place = some .directory) :
      LeadsTo t place [] place
  | move
      {place next dir : Location}
      {part : Text}
      {rest : List Text}
      (hPlace : t.node? place = some .directory)
      (hNext : follow? place part = some next)
      (hRest : LeadsTo t next rest dir) :
      LeadsTo t place (part :: rest) dir

namespace LeadsTo

variable {start dir : Location}
variable {parts : List Text}

theorem directory_start
    (hLeads : t.LeadsTo start parts dir) :
    t.node? start = some .directory := by
  cases hLeads with
  | stay hPlace => exact hPlace
  | move hPlace hNext hRest => exact hPlace

theorem directory_end
    (hLeads : t.LeadsTo start parts dir) :
    t.node? dir = some .directory := by
  induction hLeads with
  | stay hPlace => exact hPlace
  | move hPlace hNext hRest ih => exact ih

/- A way stays open as long as its directories do. -/
theorem mono
    (hDirectories :
      ∀ place,
        t.node? place = some .directory →
          t'.node? place = some .directory)
    (hLeads : t.LeadsTo start parts dir) :
    t'.LeadsTo start parts dir := by
  induction hLeads with
  | stay hPlace => exact .stay (hDirectories _ hPlace)
  | move hPlace hNext hRest ih =>
      exact .move (hDirectories _ hPlace) hNext ih

end LeadsTo

theorem step_of_follow?
    {place next : Location}
    {part : Text}
    (hPlace : t.node? place = some .directory)
    (hNext : follow? place part = some next)
    (hThere : (t.node? next).isSome) :
    t.step place part = .ok next := by
  unfold step
  rw [hPlace]
  by_cases hHere : part = Path.here
  · simp_all [follow?]
  · by_cases hUp : part = Path.up
    · simp_all [follow?]
    · cases hLong : isLongName part with
      | true => simp [follow?, hHere, hUp, hLong] at hNext
      | false =>
          have hEq : place ++ [part] = next := by
            simpa [follow?, hHere, hUp, hLong] using hNext
          subst hEq
          simpa [hHere, hUp, Option.isSome_iff_ne_none] using
            hThere

theorem step_eq_ok
    {place next : Location}
    {part : Text}
    (hStep : t.step place part = .ok next) :
    t.node? place = some .directory ∧
      follow? place part = some next := by
  unfold step at hStep
  split at hStep
  · cases hStep
  · cases hStep
  · rename_i hPlace
    refine ⟨hPlace, ?_⟩
    by_cases hHere : part = Path.here
    · simp_all [follow?]
    · by_cases hUp : part = Path.up
      · simp_all [follow?]
      · cases hLong : isLongName part with
        | true => simp [hHere, hUp, hLong] at hStep
        | false =>
            rw [if_neg hHere, if_neg hUp, hLong] at hStep
            simp only [Bool.false_eq_true, if_false] at hStep
            split at hStep
            · cases hStep
            · cases hStep
              simp [follow?, hHere, hUp, hLong]

theorem walk_of_leadsTo
    {start dir : Location}
    {parts : List Text}
    (hLeads : t.LeadsTo start parts dir) :
    t.walk start parts = .ok dir := by
  induction hLeads with
  | stay hPlace => rfl
  | move hPlace hNext hRest ih =>
      have hThere := hRest.directory_start
      unfold walk
      rw [step_of_follow? hPlace hNext (by simp [hThere])]
      exact ih

theorem leadsTo_of_walk
    {start dir : Location}
    {parts : List Text}
    (hWalk : t.walk start parts = .ok dir)
    (hDir : t.node? dir = some .directory) :
    t.LeadsTo start parts dir := by
  induction parts generalizing start with
  | nil =>
      cases hWalk
      exact .stay hDir
  | cons part rest ih =>
      unfold walk at hWalk
      split at hWalk
      · cases hWalk
      · rename_i next hStep
        rcases step_eq_ok hStep with ⟨hPlace, hNext⟩
        exact .move hPlace hNext (ih hWalk)

theorem walk_append
    (t : FileTree)
    {start mid : Location}
    {parts : List Text}
    (hWalk : t.walk start parts = .ok mid)
    (rest : List Text) :
    t.walk start (parts ++ rest) = t.walk mid rest := by
  induction parts generalizing start with
  | nil =>
      cases hWalk
      rfl
  | cons part parts ih =>
      unfold walk at hWalk
      split at hWalk
      · cases hWalk
      · rename_i next hStep
        rw [List.cons_append, walk, hStep]
        exact ih hWalk

------------------------------------------------------------
-- Named Files
------------------------------------------------------------

/-
  A path names a file, which need not be there: it leads to a
  directory, and then to a name under which no directory
  stands.
-/
structure Names
    (t : FileTree)
    (p : Path)
    (dir : Location)
    (name : Text) : Prop where
  noFault : targetFault? p = none
  leads : t.LeadsTo (t.origin p) (steps p).dropLast dir
  last : (steps p).getLast? = some name
  notHere : name ≠ Path.here
  notUp : name ≠ Path.up
  short : isLongName name = false
  noSlash : Path.endsInSlash p = false
  noDirectory : t.node? (dir ++ [name]) ≠ some .directory

theorem target_of_names
    {p : Path}
    {dir : Location}
    {name : Text}
    (hNames : t.Names p dir name) :
    t.target p = .ok (dir ++ [name]) := by
  unfold target
  rw [hNames.noFault, walk_of_leadsTo hNames.leads]
  simp only [hNames.leads.directory_end, hNames.last]
  simp [hNames.notHere, hNames.notUp, hNames.short,
    hNames.noSlash, hNames.noDirectory]

theorem names_of_target
    {p : Path}
    {place : Location}
    (hTarget : t.target p = .ok place) :
    ∃ dir name, t.Names p dir name ∧ place = dir ++ [name] := by
  unfold target at hTarget
  split at hTarget
  · cases hTarget
  · rename_i hFault
    split at hTarget
    · cases hTarget
    · rename_i dir hWalk
      split at hTarget
      · cases hTarget
      · cases hTarget
      · cases hTarget
      · rename_i name hDir hLast
        simp only [ite_eq_iff, reduceCtorEq, and_false,
          false_or, not_or, Except.ok.injEq] at hTarget
        rcases hTarget with
          ⟨⟨hHere, hUp⟩, hShort, hSlash, hNot, rfl⟩
        refine ⟨dir, name, ?_, rfl⟩
        exact
          { noFault := hFault
            leads := leadsTo_of_walk hWalk hDir
            last := hLast
            notHere := hHere
            notUp := hUp
            short := by simpa using hShort
            noSlash := by simpa using hSlash
            noDirectory := hNot }

/- The places at which files can be put. -/
theorem target_eq_ok_iff
    {p : Path}
    {place : Location} :
    t.target p = .ok place ↔
      ∃ dir name,
        t.Names p dir name ∧ place = dir ++ [name] := by
  constructor
  · exact names_of_target
  · rintro ⟨dir, name, hNames, rfl⟩
    exact target_of_names hNames

/- What a path names depends on directories only. -/
theorem Names.congr
    {p : Path}
    {dir : Location}
    {name : Text}
    (hCurrent : t'.current = t.current)
    (hDirectories :
      ∀ place,
        t'.node? place = some .directory ↔
          t.node? place = some .directory)
    (hNames : t.Names p dir name) :
    t'.Names p dir name := by
  have hOrigin : t'.origin p = t.origin p := by
    simp [origin, hCurrent]
  have hLeads :
      t'.LeadsTo (t'.origin p) (steps p).dropLast dir := by
    rw [hOrigin]
    exact hNames.leads.mono fun place hPlace =>
      (hDirectories place).mpr hPlace
  refine { hNames with leads := hLeads, noDirectory := ?_ }
  rw [Ne, hDirectories]
  exact hNames.noDirectory

theorem pathFault?_of_targetFault?
    {p : Path}
    (hFault : targetFault? p = none) :
    pathFault? p = none := by
  unfold targetFault? at hFault
  split at hFault
  · cases hFault
  · exact hFault

/- A path leads to the file it names, if that is there. -/
theorem locate_of_names
    {p : Path}
    {dir : Location}
    {name : Text}
    (hNames : t.Names p dir name)
    (hThere : (t.node? (dir ++ [name])).isSome) :
    t.locate p = .ok (dir ++ [name]) := by
  have hSteps : steps p = (steps p).dropLast ++ [name] := by
    rw [List.dropLast_append_getLast? name hNames.last]
  have hNext : follow? dir name = some (dir ++ [name]) := by
    simp [follow?, hNames.notHere, hNames.notUp, hNames.short]
  have hWalk :
      t.walk (t.origin p) (steps p) = .ok (dir ++ [name]) := by
    rw [hSteps, walk_append t (walk_of_leadsTo hNames.leads),
      walk,
      step_of_follow? hNames.leads.directory_end hNext hThere]
    rfl
  unfold locate
  rw [pathFault?_of_targetFault? hNames.noFault]
  simp [hWalk, hNames.noSlash]

------------------------------------------------------------
-- Writing
------------------------------------------------------------

/-
  A tree after a write: the file that the path names holds
  the content, and nothing else has changed.
-/
structure Replaces
    (t : FileTree)
    (p : Path)
    (content : Octets)
    (t' : FileTree)
    (place : Location) : Prop where
  target : t.target p = .ok place
  located : t'.locate p = .ok place
  held : t'.node? place = some (.file content)
  current : t'.current = t.current
  others :
    ∀ other, other ≠ place → t'.node? other = t.node? other

theorem write_eq_ok_iff
    {p : Path}
    {content : Octets} :
    t.write p content = .ok t' ↔
      t.checkPassing p = .ok () ∧
        ∃ place,
          t.target p = .ok place ∧
            t' = t.set place (.file content) := by
  unfold write
  cases hPassing : t.checkPassing p with
  | error fault => simp
  | ok _ =>
      cases hTarget : t.target p with
      | error fault => simp
      | ok place => simp [eq_comm]

theorem replaces_set_file
    {p : Path}
    {place : Location}
    (hTarget : t.target p = .ok place)
    (content : Octets) :
    t.Replaces p content (t.set place (.file content))
      place := by
  rcases names_of_target hTarget with
    ⟨dir, name, hNames, rfl⟩
  have hPlace := ne_nil_of_not_directory hNames.noDirectory
  have hHeld :
      (t.set (dir ++ [name]) (.file content)).node?
          (dir ++ [name]) =
        some (.file content) := by
    rw [node?_set hPlace, if_pos rfl]
  refine
    { target := hTarget
      located := ?_
      held := hHeld
      current := rfl
      others := ?_ }
  · -- The new file is not a directory, so the path still
    -- names the same place.
    have hAfter :=
      hNames.congr (current_set t _ _)
        (directory_set_file_iff hNames.noDirectory content)
    exact locate_of_names hAfter (by simp [hHeld])
  · intro other hOther
    rw [node?_set hPlace, if_neg hOther]

/- What a write that succeeds does. -/
theorem replaces_of_write
    {p : Path}
    {content : Octets}
    (hWrite : t.write p content = .ok t') :
    ∃ place, t.Replaces p content t' place := by
  rcases write_eq_ok_iff.mp hWrite with
    ⟨-, place, hTarget, rfl⟩
  exact ⟨place, replaces_set_file hTarget content⟩

end FileTree

end Collate
