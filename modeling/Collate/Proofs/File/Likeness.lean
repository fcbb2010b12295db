import Collate.Proofs.File.Job

/-
  File trees that differ in the contents of their files only.
  Which places a path leads to does not depend on contents, so
  such trees are read and written alike.

  Key definitions include:
    * `Node.Alike`
    * `FileTree.Alike`

  Main declarations:
    * `FileTree.Alike.locate_eq`
    * `FileTree.Alike.read_cases`
    * `FileTree.Alike.writeDirect`
-/

------------------------------------------------------------
-- Alike Trees
------------------------------------------------------------

namespace Collate

/-
  What stands at a place in two trees: nothing, a directory,
  or files with related contents.
-/
inductive Node.Alike
    (R : Octets → Octets → Prop) :
    Option Node → Option Node → Prop where
  | nothing : Alike R none none
  | directory : Alike R (some .directory) (some .directory)
  | files
      {a b : Octets}
      (hContents : R a b) :
      Alike R (some (.file a)) (some (.file b))

namespace Node.Alike

variable {R : Octets → Octets → Prop}
variable {a b : Option Node}

theorem isNone_eq
    (hAlike : Node.Alike R a b) :
    b.isNone = a.isNone := by
  cases hAlike with
  | nothing | directory | files => rfl

theorem directory_iff
    (hAlike : Node.Alike R a b) :
    b = some .directory ↔ a = some .directory := by
  cases hAlike with
  | nothing | directory => rfl
  | files => simp

theorem refl
    (hRefl : ∀ content, R content content)
    (node : Option Node) :
    Node.Alike R node node := by
  cases node with
  | none => exact .nothing
  | some node =>
      cases node with
      | directory => exact .directory
      | file content => exact .files (hRefl content)

end Node.Alike

/- Trees that differ in related contents of files only. -/
structure FileTree.Alike
    (R : Octets → Octets → Prop)
    (t u : FileTree) : Prop where
  current : u.current = t.current
  nodes :
    ∀ place, Node.Alike R (t.node? place) (u.node? place)

namespace FileTree.Alike

variable {R : Octets → Octets → Prop}
variable {t u : FileTree}

theorem refl
    (hRefl : ∀ content, R content content)
    (t : FileTree) :
    t.Alike R t :=
  ⟨rfl, fun place => Node.Alike.refl hRefl (t.node? place)⟩

------------------------------------------------------------
-- Following Paths
------------------------------------------------------------

theorem step_eq
    (hAlike : t.Alike R u)
    (place : Location)
    (part : Text) :
    u.step place part = t.step place part := by
  have hNext := hAlike.nodes (place ++ [part])
  have hPlace := hAlike.nodes place
  unfold step
  generalize t.node? place = a at hPlace ⊢
  generalize u.node? place = b at hPlace ⊢
  cases hPlace with
  | nothing => rfl
  | files => rfl
  | directory => simp only [hNext.isNone_eq]

theorem walk_eq
    (hAlike : t.Alike R u)
    (start : Location)
    (parts : List Text) :
    u.walk start parts = t.walk start parts := by
  induction parts generalizing start with
  | nil => rfl
  | cons part rest ih =>
      unfold walk
      rw [hAlike.step_eq]
      cases t.step start part with
      | error fault => rfl
      | ok next => exact ih next

theorem origin_eq
    (hAlike : t.Alike R u)
    (p : Path) :
    u.origin p = t.origin p := by
  simp [origin, hAlike.current]

/- A path leads to the same place in both trees. -/
theorem locate_eq
    (hAlike : t.Alike R u)
    (p : Path) :
    u.locate p = t.locate p := by
  unfold locate
  rw [hAlike.origin_eq, hAlike.walk_eq]
  simp only [Ne, (hAlike.nodes _).directory_iff]

/- A file can be put under a path in both trees or in none. -/
theorem target_eq
    (hAlike : t.Alike R u)
    (p : Path) :
    u.target p = t.target p := by
  unfold target
  rw [hAlike.origin_eq, hAlike.walk_eq]
  cases targetFault? p with
  | some fault => rfl
  | none =>
      cases t.walk (t.origin p) (steps p).dropLast with
      | error fault => rfl
      | ok place =>
          have hPlace := hAlike.nodes place
          simp only [(hAlike.nodes _).directory_iff]
          generalize t.node? place = a at hPlace ⊢
          generalize u.node? place = b at hPlace ⊢
          cases hPlace with
          | nothing | directory | files => rfl

theorem checkPassing_eq
    (hAlike : t.Alike R u)
    (p : Path) :
    u.checkPassing p = t.checkPassing p := by
  unfold checkPassing passingPath currentPath checkDirectory
  rw [hAlike.current, hAlike.locate_eq]
  cases t.locate (Path.directory p) with
  | error fault => rfl
  | ok place =>
      have hPlace := hAlike.nodes place
      dsimp only
      generalize t.node? place = a at hPlace ⊢
      generalize u.node? place = b at hPlace ⊢
      cases hPlace with
      | nothing | directory | files => rfl

------------------------------------------------------------
-- Reading and Writing
------------------------------------------------------------

/- Reading fails alike, or finds related contents. -/
theorem read_cases
    (hAlike : t.Alike R u)
    (p : Path) :
    (∃ fault,
        t.read p = .error fault ∧ u.read p = .error fault) ∨
      ∃ a b, t.read p = .ok a ∧ u.read p = .ok b ∧ R a b := by
  unfold read
  rw [hAlike.locate_eq]
  cases t.locate p with
  | error fault => exact .inl ⟨fault, rfl, rfl⟩
  | ok place =>
      have hPlace := hAlike.nodes place
      dsimp only
      generalize t.node? place = a at hPlace ⊢
      generalize u.node? place = b at hPlace ⊢
      cases hPlace with
      | nothing => exact .inl ⟨_, rfl, rfl⟩
      | directory => exact .inl ⟨_, rfl, rfl⟩
      | files hContents =>
          exact .inr ⟨_, _, rfl, rfl, hContents⟩

/- Related files put at a place leave trees alike. -/
theorem set_file
    (hAlike : t.Alike R u)
    {place : Location}
    (hPlace : place ≠ [])
    {a b : Octets}
    (hContents : R a b) :
    (t.set place (.file a)).Alike R
      (u.set place (.file b)) := by
  refine ⟨hAlike.current, ?_⟩
  intro other
  rw [node?_set hPlace, node?_set hPlace]
  split
  · exact .files hContents
  · exact hAlike.nodes other

/- Writing ends alike, and leaves trees alike. -/
theorem writeDirect
    (hAlike : t.Alike R u)
    (hRefl : ∀ content, R content content)
    (p : Path)
    (content : Octets) :
    (u.writeDirect p content).1 = (t.writeDirect p content).1 ∧
      (t.writeDirect p content).2.Alike R
        (u.writeDirect p content).2 := by
  unfold FileTree.writeDirect write
  rw [hAlike.checkPassing_eq, hAlike.target_eq]
  cases t.checkPassing p with
  | error fault => exact ⟨rfl, hAlike⟩
  | ok _ =>
      cases hTarget : t.target p with
      | error fault => exact ⟨rfl, hAlike⟩
      | ok place =>
          have hPlace : place ≠ [] := by
            rcases names_of_target hTarget with
              ⟨dir, name, -, rfl⟩
            simp
          exact
            ⟨rfl, hAlike.set_file hPlace (hRefl content)⟩

end FileTree.Alike

end Collate
