import Collate.File.Job
import Collate.Proofs.File.Tree

/-
  Jobs on a file tree under any way of writing files.  One way
  is to write through a new file beside the old one, which is
  removed when something goes wrong and renamed when nothing
  does.  It changes a tree as a direct write does, or not at
  all.

  Key definitions include:
    * `FileTree.rename`
    * `Passage`
    * `FileTree.writeThrough`
    * `FileTree.Settles`
    * `FileJob.runWith`

  Main declarations:
    * `FileTree.settles_writeThrough`
    * `FileTree.writeThrough_of_write`
    * `FileJob.run_eq_runWith`
    * `FileJob.runWith_bind`
-/

------------------------------------------------------------
-- Removing and Renaming
------------------------------------------------------------

namespace Collate

namespace FileTree

variable {t t' : FileTree}

local instance locationTransCmp :
    Std.TransCmp (compare : Location → Location → Ordering) :=
  inferInstance

/- A tree without what stands at a place. -/
def erase
    (t : FileTree)
    (place : Location) : FileTree :=
  { t with nodes := t.nodes.erase place }

/- A new node that is erased leaves no trace. -/
theorem erase_set
    {place : Location}
    (hPlace : place ≠ [])
    (hNone : t.node? place = none)
    (node : Node) :
    (t.set place node).erase place = t := by
  have hNodes :
      (t.nodes.insert place node).erase place = t.nodes := by
    apply Std.ExtTreeMap.ext_getElem?
    intro other
    rw [Std.ExtTreeMap.getElem?_erase,
      Std.ExtTreeMap.getElem?_insert]
    split
    · rename_i hOther
      rw [Std.LawfulEqCmp.compare_eq_iff_eq] at hOther
      rw [← hOther, ← node?_eq_getElem? hPlace, hNone]
    · rfl
  unfold set erase
  simp only [hNodes]

/-
  Give a file the name that a path names, in place of the
  file that may be there.
-/
def rename
    (t : FileTree)
    (source : Location)
    (p : Path) : Except FileFault FileTree :=
  match t.target p, t.node? source with
  | .error fault, _ => .error fault
  | .ok _, none => .error .noEntry
  | .ok place, some node =>
      .ok ((t.erase source).set place node)

/- A file beside the directories of a tree changes no target. -/
theorem target_set_file_iff
    {place : Location}
    (hNot : t.node? place ≠ some .directory)
    {p : Path}
    (content : Octets)
    (found : Location) :
    (t.set place (.file content)).target p = .ok found ↔
      t.target p = .ok found := by
  have hDirectories := directory_set_file_iff hNot content
  have hCurrent := current_set t place (.file content)
  rw [target_eq_ok_iff, target_eq_ok_iff]
  constructor
  · rintro ⟨dir, name, hNames, rfl⟩
    have hBefore : t.Names p dir name :=
      hNames.congr hCurrent.symm fun other =>
        (hDirectories other).symm
    exact ⟨dir, name, hBefore, rfl⟩
  · rintro ⟨dir, name, hNames, rfl⟩
    exact ⟨dir, name, hNames.congr hCurrent hDirectories, rfl⟩

/- A new file is renamed exactly to where it could be put. -/
theorem rename_set_file_iff
    {place : Location}
    (hPlace : place ≠ [])
    (hNone : t.node? place = none)
    {p : Path}
    (content : Octets) :
    (t.set place (.file content)).rename place p = .ok t' ↔
      ∃ found,
        t.target p = .ok found ∧
          t' = t.set found (.file content) := by
  have hHeld :
      (t.set place (.file content)).node? place =
        some (.file content) := by
    rw [node?_set hPlace, if_pos rfl]
  have hTarget :=
    target_set_file_iff (t := t) (p := p)
      (by simp [hNone] : t.node? place ≠ some .directory)
      content
  unfold rename
  rw [hHeld, erase_set hPlace hNone]
  cases hFound :
      (t.set place (.file content)).target p with
  | error fault =>
      have hNever : ∀ found, t.target p ≠ .ok found := by
        intro found hEq
        rw [← hTarget, hFound] at hEq
        cases hEq
      simp [hNever]
  | ok found =>
      rw [(hTarget found).mp hFound]
      simp [eq_comm]

end FileTree

------------------------------------------------------------
-- Writing Through a New File
------------------------------------------------------------

/- A new file through which a content passes. -/
structure Passage where
  -- The name of the new file.
  name : Text
  -- What went wrong before it was renamed, if anything did,
  -- and what it held then.
  mishap : Option (Octets × FileFault)
deriving DecidableEq, Repr

/- The name is free in the directory of a path. -/
def Passage.IsFresh
    (passage : Passage)
    (t : FileTree)
    (p : Path) : Prop :=
  ∀ dir,
    t.locate (Path.directory p) = .ok dir →
      t.node? (dir ++ [passage.name]) = none

namespace FileTree

variable {t t' : FileTree}
variable {p : Path}
variable {content : Octets}

/-
  Write a file through a new file in the directory of its
  path.  The new file is removed if it cannot be filled, or
  cannot be renamed.
-/
def writeThrough
    (passage : Passage)
    (t : FileTree)
    (p : Path)
    (content : Octets) : Except FileFault Unit × FileTree :=
  match t.checkPassing p, t.locate (Path.directory p) with
  | .error fault, _ => (.error fault, t)
  | .ok (), .error fault => (.error fault, t)
  | .ok (), .ok dir =>
      let place := dir ++ [passage.name]
      match passage.mishap with
      | some (held, fault) =>
          (.error fault, (t.set place (.file held)).erase place)
      | none =>
          let made := t.set place (.file content)
          match made.rename place p with
          | .error fault => (.error fault, made.erase place)
          | .ok after => (.ok (), after)

/-
  How a write can end: in a fault and with nothing changed, or
  with what a direct write does.
-/
inductive Settles
    (t : FileTree)
    (p : Path)
    (content : Octets) :
    Except FileFault Unit × FileTree → Prop where
  | failed
      (fault : FileFault) :
      Settles t p content (.error fault, t)
  | written
      {t' : FileTree}
      (hWrite : t.write p content = .ok t') :
      Settles t p content (.ok (), t')

theorem settles_writeThrough
    {passage : Passage}
    (hFresh : passage.IsFresh t p)
    (content : Octets) :
    t.Settles p content
      (writeThrough passage t p content) := by
  unfold writeThrough
  cases hPassing : t.checkPassing p with
  | error fault => exact .failed fault
  | ok _ =>
      cases hDir : t.locate (Path.directory p) with
      | error fault => exact .failed fault
      | ok dir =>
          have hNone := hFresh dir hDir
          have hPlace : dir ++ [passage.name] ≠ [] := by simp
          cases passage.mishap with
          | some mishap =>
              simp only [erase_set hPlace hNone]
              exact .failed mishap.2
          | none =>
              simp only [erase_set hPlace hNone]
              split
              · exact .failed _
              · rename_i after hRename
                rw [rename_set_file_iff hPlace hNone] at hRename
                exact
                  .written
                    (write_eq_ok_iff.mpr ⟨hPassing, hRename⟩)

/- Without a mishap, a write that can succeed does. -/
theorem writeThrough_of_write
    {passage : Passage}
    (hFresh : passage.IsFresh t p)
    (hMishap : passage.mishap = none)
    (hWrite : t.write p content = .ok t') :
    writeThrough passage t p content = (.ok (), t') := by
  rcases write_eq_ok_iff.mp hWrite with
    ⟨hPassing, hTarget⟩
  have hLocate :
      ∃ dir, t.locate (Path.directory p) = .ok dir := by
    unfold checkPassing at hPassing
    split at hPassing
    · cases hPassing
    · unfold checkDirectory at hPassing
      split at hPassing
      · cases hPassing
      · rename_i dir hDir
        exact ⟨dir, hDir⟩
  rcases hLocate with ⟨dir, hDir⟩
  have hRename :=
    (rename_set_file_iff (by simp) (hFresh dir hDir)
      content).mpr hTarget
  unfold writeThrough
  simp only [hPassing, hDir, hMishap, hRename]

/- A direct write. -/
def writeDirect
    (t : FileTree)
    (p : Path)
    (content : Octets) : Except FileFault Unit × FileTree :=
  match t.write p content with
  | .ok t' => (.ok (), t')
  | .error fault => (.error fault, t)

theorem settles_writeDirect
    (t : FileTree)
    (p : Path)
    (content : Octets) :
    t.Settles p content (t.writeDirect p content) := by
  unfold writeDirect
  cases hWrite : t.write p content with
  | ok t' => exact .written hWrite
  | error fault => exact .failed fault

end FileTree

------------------------------------------------------------
-- Running Jobs
------------------------------------------------------------

namespace FileJob

variable {α β : Type}

/- Carry out a job, with files written in a given way. -/
def runWith
    (put :
      FileTree → Path → Octets →
        Except FileFault Unit × FileTree) :
    FileJob α → FileTree → α × FileTree
  | .done result, t => (result, t)
  | .read path next, t =>
      (next (t.readText path)).runWith put t
  | .write path text next, t =>
      let wrote := put t path (Utf8.encode text)
      (next wrote.1).runWith put wrote.2

theorem run_eq_runWith
    (job : FileJob α)
    (t : FileTree) :
    job.run t = job.runWith FileTree.writeDirect t := by
  induction job generalizing t with
  | done result => rfl
  | read path next ih => exact ih _ t
  | write path text next ih =>
      unfold run runWith FileTree.writeDirect
      cases t.write path (Utf8.encode text) with
      | ok t' => exact ih _ t'
      | error fault => exact ih _ t

variable
  {put :
    FileTree → Path → Octets →
      Except FileFault Unit × FileTree}

theorem runWith_bind
    (job : FileJob α)
    (next : α → FileJob β)
    (t : FileTree) :
    (job >>= next).runWith put t =
      (next (job.runWith put t).1).runWith put
        (job.runWith put t).2 := by
  induction job generalizing t with
  | done result => rfl
  | read path rest ih => exact ih _ t
  | write path text rest ih => exact ih _ _

end FileJob

end Collate
