import Collate.File.Tree

/-
  Jobs on files: descriptions of work that reads texts and
  writes texts, step by step.  A job says nothing about where
  the files are; it can be run on a file tree, or on the disk
  by whoever carries out its steps.

  Key definitions include:
    * `FileJob`
    * `FileJob.bind`
    * `FileJob.run`
-/

------------------------------------------------------------
-- Jobs
------------------------------------------------------------

namespace Collate

/-
  A job that ends in an `α`.  A step is the reading of one
  text or the writing of one text, and the rest of the job
  depends on how the step went.
-/
inductive FileJob (α : Type) where
  | done (result : α)
  | read
      (path : Path)
      (next : Except FileFault Text → FileJob α)
  | write
      (path : Path)
      (text : Text)
      (next : Except FileFault Unit → FileJob α)

namespace FileJob

variable {α β : Type}

/- Go on with a second job after a first one. -/
def bind
    (job : FileJob α)
    (next : α → FileJob β) : FileJob β :=
  match job with
  | .done result => next result
  | .read path rest => .read path fun got => (rest got).bind next
  | .write path text rest =>
      .write path text fun went => (rest went).bind next

instance : Monad FileJob where
  pure := .done
  bind := bind

------------------------------------------------------------
-- Running
------------------------------------------------------------

/-
  Carry out a job on a file tree.  A failed step leaves the
  tree as it was.
-/
def run : FileJob α → FileTree → α × FileTree
  | .done result, t => (result, t)
  | .read path next, t => (next (t.readText path)).run t
  | .write path text next, t =>
      match t.write path (Utf8.encode text) with
      | .ok t' => (next (.ok ())).run t'
      | .error fault => (next (.error fault)).run t

end FileJob

end Collate
