import Collate.Proofs.File.Job
import Mathlib.Data.List.Nodup

/-
  What reading and writing a file depend on.  A path is
  followed from place to place, and only the places on its way
  decide where it leads.  Trees that differ elsewhere, and in
  files only, answer alike.

  Key definitions include:
    * `FileTree.route`
    * `FileTree.approach`
    * `FileTree.AlikeOff`
    * `Patch`
    * `FileTree.patchAll`

  Main declarations:
    * `FileTree.AlikeOff.readText_eq`
    * `FileTree.AlikeOff.writeDirect_eq`
    * `FileTree.AlikeOff.patchAll`
    * `FileTree.patchAll_perm`
    * `FileTree.patchAll_patchAll`
-/

------------------------------------------------------------
-- Places on the Way
------------------------------------------------------------

namespace Collate

namespace FileTree

variable {t u : FileTree}

/-
  The places that are looked at while the parts of a path are
  followed.  The way ends at what is no directory.
-/
def way
    (t : FileTree) :
    Location → List Text → List Location
  | place, [] => [place]
  | place, part :: rest =>
      if t.node? place = some .directory then
        match follow? place part with
        | some next => place :: way t next rest
        | none => [place]
      else [place]

/- The places passed on the way to the end of a path. -/
def route
    (t : FileTree)
    (p : Path) : List Location :=
  t.way (t.origin p) (steps p)

/-
  The places passed before a file is put under a path: on the
  way to the directory in which the new file is made, and on
  the way to the name that it gets.
-/
def approach
    (t : FileTree)
    (p : Path) : List Location :=
  t.route (Path.directory p) ++
    t.way (t.origin p) (steps p).dropLast

theorem start_mem_way
    (t : FileTree)
    (start : Location)
    (parts : List Text) :
    start ∈ t.way start parts := by
  cases parts with
  | nil => simp [way]
  | cons part rest =>
      unfold way
      split
      · split <;> simp
      · simp

theorem way_subset_cons
    {place next : Location}
    {part : Text}
    (hPlace : t.node? place = some .directory)
    (hNext : follow? place part = some next)
    (rest : List Text) :
    t.way next rest ⊆ t.way place (part :: rest) := by
  intro other hMem
  simp [way, hPlace, hNext, hMem]

/- A way that can be followed passes its end. -/
theorem mem_way_of_walk
    {start place : Location}
    {parts : List Text}
    (hWalk : t.walk start parts = .ok place) :
    place ∈ t.way start parts := by
  induction parts generalizing start with
  | nil =>
      cases hWalk
      exact start_mem_way t _ _
  | cons part rest ih =>
      unfold walk at hWalk
      split at hWalk
      · cases hWalk
      · rename_i next hStep
        rcases step_eq_ok hStep with ⟨hPlace, hNext⟩
        exact way_subset_cons hPlace hNext rest (ih hWalk)

------------------------------------------------------------
-- Trees That Answer Alike
------------------------------------------------------------

/-
  Trees that differ at some places only, and nowhere in which
  places are directories.
-/
structure AlikeOff
    (t : FileTree)
    (off : Set Location)
    (u : FileTree) : Prop where
  current : u.current = t.current
  nodes :
    ∀ place, place ∉ off → u.node? place = t.node? place
  directories :
    ∀ place,
      u.node? place = some .directory ↔
        t.node? place = some .directory

theorem AlikeOff.refl
    (t : FileTree)
    (off : Set Location) :
    t.AlikeOff off t :=
  ⟨rfl, fun _ _ => rfl, fun _ => Iff.rfl⟩

/- A part is followed alike if it is met alike. -/
theorem step_congr
    {place : Location}
    {part : Text}
    (hPlace : u.node? place = t.node? place)
    (hNext :
      ∀ next,
        t.node? place = some .directory →
          follow? place part = some next →
            u.node? next = t.node? next) :
    u.step place part = t.step place part := by
  unfold step
  rw [hPlace]
  cases hNode : t.node? place with
  | none => rfl
  | some node =>
      cases node with
      | file content => rfl
      | directory =>
          by_cases hHere : part = Path.here
          · simp [hHere]
          · by_cases hUp : part = Path.up
            · simp [hUp]
            · cases hLong : isLongName part with
              | true => simp [hHere, hUp]
              | false =>
                  have hSame :=
                    hNext (place ++ [part]) hNode
                      (by simp [follow?, hHere, hUp, hLong])
                  simp [hHere, hUp, hSame]

namespace AlikeOff

variable {off : Set Location}
variable {p : Path}

theorem walk_eq
    (hAlike : t.AlikeOff off u)
    {start : Location}
    {parts : List Text}
    (hWay : ∀ place ∈ t.way start parts, place ∉ off) :
    u.walk start parts = t.walk start parts := by
  induction parts generalizing start with
  | nil => rfl
  | cons part rest ih =>
      have hStart := hWay start (start_mem_way t _ _)
      have hStep : u.step start part = t.step start part := by
        apply step_congr (hAlike.nodes start hStart)
        intro next hPlace hNext
        apply hAlike.nodes
        apply hWay
        exact way_subset_cons hPlace hNext rest
          (start_mem_way t _ _)
      unfold walk
      rw [hStep]
      cases hTaken : t.step start part with
      | error fault => rfl
      | ok next =>
          rcases step_eq_ok hTaken with ⟨hPlace, hNext⟩
          apply ih
          intro place hMem
          exact hWay place
            (way_subset_cons hPlace hNext rest hMem)

theorem origin_eq
    (hAlike : t.AlikeOff off u)
    (p : Path) :
    u.origin p = t.origin p := by
  simp [origin, hAlike.current]

theorem locate_eq
    (hAlike : t.AlikeOff off u)
    (hRoute : ∀ place ∈ t.route p, place ∉ off) :
    u.locate p = t.locate p := by
  unfold locate
  rw [hAlike.origin_eq, hAlike.walk_eq hRoute]
  simp only [Ne, hAlike.directories]

/- What stands at the end of a path that can be followed. -/
theorem node?_eq_of_locate
    (hAlike : t.AlikeOff off u)
    (hRoute : ∀ place ∈ t.route p, place ∉ off)
    {place : Location}
    (hLocate : t.locate p = .ok place) :
    u.node? place = t.node? place := by
  apply hAlike.nodes
  apply hRoute
  unfold locate at hLocate
  split at hLocate
  · cases hLocate
  · split at hLocate
    · cases hLocate
    · rename_i found hWalk
      split at hLocate
      · cases hLocate
      · cases hLocate
        exact mem_way_of_walk hWalk

/- A text is read alike if its path is followed alike. -/
theorem readText_eq
    (hAlike : t.AlikeOff off u)
    (hRoute : ∀ place ∈ t.route p, place ∉ off) :
    u.readText p = t.readText p := by
  have hRead : u.read p = t.read p := by
    unfold read
    rw [hAlike.locate_eq hRoute]
    cases hLocate : t.locate p with
    | error fault => rfl
    | ok place =>
        simp only [hAlike.node?_eq_of_locate hRoute hLocate]
  unfold readText
  rw [hRead]

theorem checkPassing_eq
    (hAlike : t.AlikeOff off u)
    (hRoute :
      ∀ place ∈ t.route (Path.directory p), place ∉ off) :
    u.checkPassing p = t.checkPassing p := by
  have hDirectory :
      u.checkDirectory (Path.directory p) =
        t.checkDirectory (Path.directory p) := by
    unfold checkDirectory
    rw [hAlike.locate_eq hRoute]
    cases hLocate : t.locate (Path.directory p) with
    | error fault => rfl
    | ok place =>
        simp only [hAlike.node?_eq_of_locate hRoute hLocate]
  unfold checkPassing passingPath currentPath
  rw [hAlike.current, hDirectory]

/-
  A name is free for a file alike, though the files that hold
  it may differ.
-/
theorem target_eq
    (hAlike : t.AlikeOff off u)
    (hWay :
      ∀ place ∈ t.way (t.origin p) (steps p).dropLast,
        place ∉ off) :
    u.target p = t.target p := by
  unfold target
  rw [hAlike.origin_eq, hAlike.walk_eq hWay]
  cases targetFault? p with
  | some fault => rfl
  | none =>
      cases hWalk :
          t.walk (t.origin p) (steps p).dropLast with
      | error fault => rfl
      | ok place =>
          have hPlace : u.node? place = t.node? place := by
            apply hAlike.nodes
            apply hWay
            exact mem_way_of_walk hWalk
          simp only [hPlace, hAlike.directories]

end AlikeOff

------------------------------------------------------------
-- Patches
------------------------------------------------------------

end FileTree

/- A file that is put at a place. -/
structure Patch where
  place : Location
  content : Octets
deriving DecidableEq, Repr

namespace FileTree

variable {t u : FileTree}

/- A tree with a file put at its place. -/
def patch
    (t : FileTree)
    (w : Patch) : FileTree :=
  t.set w.place (.file w.content)

/- A tree with files put at their places in order. -/
def patchAll
    (t : FileTree)
    (ws : List Patch) : FileTree :=
  ws.foldl patch t

@[simp] theorem patchAll_nil
    (t : FileTree) :
    t.patchAll [] = t := rfl

theorem patchAll_append
    (t : FileTree)
    (before after : List Patch) :
    t.patchAll (before ++ after) =
      (t.patchAll before).patchAll after := by
  simp [patchAll]

/- What a write would put into a tree. -/
def patch?
    (t : FileTree)
    (p : Path)
    (content : Octets) : Option Patch :=
  match t.checkPassing p, t.target p with
  | .ok (), .ok place => some ⟨place, content⟩
  | _, _ => none

theorem target_of_patch?
    {p : Path}
    {content : Octets}
    {w : Patch}
    (hPatch : t.patch? p content = some w) :
    t.target p = .ok w.place := by
  unfold patch? at hPatch
  split at hPatch
  · rename_i place hPassing hTarget
    cases hPatch
    exact hTarget
  · cases hPatch

theorem not_directory_of_target
    {p : Path}
    {place : Location}
    (hTarget : t.target p = .ok place) :
    t.node? place ≠ some .directory := by
  rcases names_of_target hTarget with
    ⟨dir, name, hNames, rfl⟩
  exact hNames.noDirectory

/-
  On trees that are alike on the approach to a path, a write
  ends alike and puts the same file at the same place.
-/
theorem AlikeOff.writeDirect_eq
    {off : Set Location}
    (hAlike : t.AlikeOff off u)
    {p : Path}
    (hApproach : ∀ place ∈ t.approach p, place ∉ off)
    (content : Octets) :
    u.writeDirect p content =
      ((t.writeDirect p content).1,
        u.patchAll (t.patch? p content).toList) := by
  have hPassing : u.checkPassing p = t.checkPassing p := by
    apply hAlike.checkPassing_eq
    intro place hMem
    exact hApproach place (by simp [approach, hMem])
  have hTarget : u.target p = t.target p := by
    apply hAlike.target_eq
    intro place hMem
    exact hApproach place (by simp [approach, hMem])
  unfold writeDirect write patch?
  rw [hPassing, hTarget]
  cases t.checkPassing p with
  | error fault => rfl
  | ok _ =>
      cases t.target p with
      | error fault => rfl
      | ok place => rfl

/- A file in place of no directory leaves trees alike. -/
theorem AlikeOff.patch
    {off : Set Location}
    (hAlike : t.AlikeOff off u)
    {w : Patch}
    (hOff : w.place ∈ off)
    (hNot : t.node? w.place ≠ some .directory) :
    t.AlikeOff off (u.patch w) := by
  have hNotHere : u.node? w.place ≠ some .directory := by
    rw [Ne, hAlike.directories]
    exact hNot
  refine ⟨hAlike.current, ?_, ?_⟩
  · intro place hPlace
    have hOther : place ≠ w.place := by
      rintro rfl
      exact hPlace hOff
    unfold FileTree.patch
    rw [node?_set (ne_nil_of_not_directory hNotHere),
      if_neg hOther]
    exact hAlike.nodes place hPlace
  · intro place
    unfold FileTree.patch
    rw [directory_set_file_iff hNotHere, hAlike.directories]

theorem AlikeOff.patchAll
    {off : Set Location}
    (hAlike : t.AlikeOff off u)
    {ws : List Patch}
    (hWs :
      ∀ w ∈ ws,
        w.place ∈ off ∧ t.node? w.place ≠ some .directory) :
    t.AlikeOff off (u.patchAll ws) := by
  induction ws generalizing u with
  | nil => exact hAlike
  | cons w ws ih =>
      rcases hWs w (by simp) with ⟨hOff, hNot⟩
      apply ih (hAlike.patch hOff hNot)
      intro other hMem
      exact hWs other (List.mem_cons_of_mem _ hMem)

------------------------------------------------------------
-- Patches in Any Order
------------------------------------------------------------

theorem ext_nodes
    (hCurrent : t.current = u.current)
    (hNodes :
      ∀ place : Location, t.nodes[place]? = u.nodes[place]?) :
    t = u := by
  have hMaps : t.nodes = u.nodes :=
    Std.ExtTreeMap.ext_getElem? fun {place} => hNodes place
  cases t
  cases u
  simp_all

theorem current_patchAll
    (t : FileTree)
    (ws : List Patch) :
    (t.patchAll ws).current = t.current := by
  induction ws generalizing t with
  | nil => rfl
  | cons w ws ih => exact ih (t.patch w)

theorem getElem?_patch
    (t : FileTree)
    (w : Patch)
    (place : Location) :
    (t.patch w).nodes[place]? =
      if place = w.place then some (.file w.content)
      else t.nodes[place]? := by
  unfold patch set
  rw [Std.ExtTreeMap.getElem?_insert]
  simp only [Std.LawfulEqCmp.compare_eq_iff_eq]
  simp only [eq_comm]

theorem patch_comm
    (t : FileTree)
    {v w : Patch}
    (hPlaces : v.place ≠ w.place) :
    (t.patch v).patch w = (t.patch w).patch v := by
  apply ext_nodes
  · rfl
  · intro place
    simp only [getElem?_patch]
    by_cases hV : place = v.place
    · simp [hV, hPlaces]
    · simp [hV]

/- Files for different places can be put there in any order. -/
theorem patchAll_perm
    (t : FileTree)
    {vs ws : List Patch}
    (hPlaces : (vs.map (·.place)).Nodup)
    (hPerm : vs.Perm ws) :
    t.patchAll vs = t.patchAll ws := by
  apply hPerm.foldl_eq'
  intro v hV w hW u
  by_cases hSame : v.place = w.place
  · have hEq : v = w :=
      List.inj_on_of_nodup_map hPlaces hV hW hSame
    rw [hEq]
  · exact u.patch_comm hSame

theorem getElem?_patchAll_of_not_mem
    (t : FileTree)
    {ws : List Patch}
    {place : Location}
    (hPlace : place ∉ ws.map (·.place)) :
    (t.patchAll ws).nodes[place]? = t.nodes[place]? := by
  induction ws generalizing t with
  | nil => rfl
  | cons w ws ih =>
      simp only [List.map_cons, List.mem_cons, not_or] at hPlace
      have hRest := ih (t.patch w) hPlace.2
      rw [getElem?_patch, if_neg hPlace.1] at hRest
      exact hRest

/- Where files are put, nothing shows what was there before. -/
theorem getElem?_patchAll_of_mem
    (t u : FileTree)
    {ws : List Patch}
    {place : Location}
    (hPlace : place ∈ ws.map (·.place)) :
    (t.patchAll ws).nodes[place]? =
      (u.patchAll ws).nodes[place]? := by
  induction ws generalizing t u with
  | nil => cases hPlace
  | cons w ws ih =>
      by_cases hRest : place ∈ ws.map (·.place)
      · exact ih (t.patch w) (u.patch w) hRest
      · have hHere : place = w.place := by
          simpa [hRest] using hPlace
        have hT := (t.patch w).getElem?_patchAll_of_not_mem hRest
        have hU := (u.patch w).getElem?_patchAll_of_not_mem hRest
        rw [getElem?_patch, if_pos hHere] at hT hU
        exact hT.trans hU.symm

/- Files that are put in place a second time change nothing. -/
theorem patchAll_patchAll
    (t : FileTree)
    (ws : List Patch) :
    (t.patchAll ws).patchAll ws = t.patchAll ws := by
  apply ext_nodes
  · simp only [current_patchAll]
  · intro place
    by_cases hPlace : place ∈ ws.map (·.place)
    · exact getElem?_patchAll_of_mem _ _ hPlace
    · exact getElem?_patchAll_of_not_mem _ hPlace

end FileTree

end Collate
