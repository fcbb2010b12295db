import Collate.Proofs.File.Frame

/-
  Jobs taken apart into single steps, and crews of jobs that
  take turns on one file tree.  Every order of turns is an
  interleaving of the jobs, and one of them is to carry out
  the jobs one after another.

  Key definitions include:
    * `Deed`
    * `FileJob.step?`
    * `FileJob.deeds`
    * `FileJob.Within`
    * `Crew`
    * `Crew.play`

  Main declarations:
    * `FileJob.Within.step?_eq`
    * `FileJob.Within.run_eq`
    * `Crew.turn_cases`
    * `Crew.exists_play_inTurn`
-/

------------------------------------------------------------
-- Steps of a Job
------------------------------------------------------------

namespace Collate

/- What one step of a job did, and how it went. -/
inductive Deed where
  | read (path : Path) (got : Except FileFault Text)
  | write
      (path : Path)
      (text : Text)
      (went : Except FileFault Unit)

/- What a deed puts into a tree. -/
def Deed.patch?
    (t : FileTree) : Deed → Option Patch
  | .read _ _ => none
  | .write path text _ => t.patch? path (Utf8.encode text)

namespace FileJob

variable {α β : Type}
variable {job : FileJob α}
variable {t u : FileTree}

/-
  The first step of a job on a tree, with what is left of the
  job and the tree after the step.
-/
def step? :
    FileJob α → FileTree →
      Option (Deed × FileJob α × FileTree)
  | .done _, _ => none
  | .read path next, t =>
      let got := t.readText path
      some (.read path got, next got, t)
  | .write path text next, t =>
      let wrote := t.writeDirect path (Utf8.encode text)
      some (.write path text wrote.1, next wrote.1, wrote.2)

/- The result of a job with no step left. -/
def result? : FileJob α → Option α
  | .done result => some result
  | .read _ _ => none
  | .write _ _ _ => none

theorem result?_eq_some_iff
    {result : α} :
    job.result? = some result ↔ job = .done result := by
  cases job with
  | done other => simp [result?]
  | read path next => simp [result?]
  | write path text next => simp [result?]

/- A job that takes a step was not done. -/
theorem result?_of_step?
    {taken : Deed × FileJob α × FileTree}
    (hStep : job.step? t = some taken) :
    job.result? = none := by
  cases job with
  | done result => cases hStep
  | read path next => rfl
  | write path text next => rfl

/- All that a job does on a tree, step by step. -/
def deeds : FileJob α → FileTree → List Deed
  | .done _, _ => []
  | .read path next, t =>
      let got := t.readText path
      .read path got :: (next got).deeds t
  | .write path text next, t =>
      let wrote := t.writeDirect path (Utf8.encode text)
      .write path text wrote.1 :: (next wrote.1).deeds wrote.2

theorem run_done
    (result : α)
    (t : FileTree) :
    (FileJob.done result).run t = (result, t) := rfl

theorem run_read
    (path : Path)
    (next : Except FileFault Text → FileJob α)
    (t : FileTree) :
    (FileJob.read path next).run t =
      (next (t.readText path)).run t := rfl

theorem run_write
    (path : Path)
    (text : Text)
    (next : Except FileFault Unit → FileJob α)
    (t : FileTree) :
    (FileJob.write path text next).run t =
      (next (t.writeDirect path (Utf8.encode text)).1).run
        (t.writeDirect path (Utf8.encode text)).2 := by
  simp only [run_eq_runWith, runWith]

theorem run_bind
    (job : FileJob α)
    (next : α → FileJob β)
    (t : FileTree) :
    (job >>= next).run t =
      (next (job.run t).1).run (job.run t).2 := by
  simp only [run_eq_runWith]
  exact runWith_bind job next t

theorem deeds_bind
    (job : FileJob α)
    (next : α → FileJob β)
    (t : FileTree) :
    (job >>= next).deeds t =
      job.deeds t ++
        (next (job.run t).1).deeds (job.run t).2 := by
  induction job generalizing t with
  | done result => rfl
  | read path rest ih =>
      exact congrArg (Deed.read path (t.readText path) :: ·)
        (ih (t.readText path) t)
  | write path text rest ih =>
      rw [run_write]
      exact congrArg (Deed.write path text _ :: ·) (ih _ _)

/- What is made of a result is no deed. -/
theorem deeds_map
    (job : FileJob α)
    (f : α → β)
    (t : FileTree) :
    (job >>= fun result => .done (f result)).deeds t =
      job.deeds t := by
  rw [deeds_bind]
  exact List.append_nil _

------------------------------------------------------------
-- Jobs That Keep to Their Files
------------------------------------------------------------

/-
  A job that reads some files, then writes to a path or not,
  and is done.
-/
inductive Within
    (inputs : List Path)
    (output : Option Path) : FileJob α → Prop where
  | done
      (result : α) :
      Within inputs output (.done result)
  | read
      {path : Path}
      {next : Except FileFault Text → FileJob α}
      (hPath : path ∈ inputs)
      (hNext : ∀ got, Within inputs output (next got)) :
      Within inputs output (.read path next)
  | write
      {path : Path}
      {text : Text}
      {next : Except FileFault Unit → FileJob α}
      (hPath : output = some path)
      (hNext : ∀ went, ∃ result, next went = .done result) :
      Within inputs output (.write path text next)

namespace Within

variable {inputs : List Path}
variable {output : Path}

theorem mono
    {few : List Path}
    {maybe : Option Path}
    (hInputs : few ⊆ inputs)
    (hWithin : job.Within few maybe) :
    job.Within inputs maybe := by
  induction hWithin with
  | done result => exact .done result
  | read hPath hNext ih => exact .read (hInputs hPath) ih
  | write hPath hNext => exact .write hPath hNext

/- A job can follow another that writes nothing. -/
theorem bind
    {maybe : Option Path}
    {next : α → FileJob β}
    (hJob : job.Within inputs none)
    (hNext : ∀ result, (next result).Within inputs maybe) :
    (job >>= next).Within inputs maybe := by
  induction hJob with
  | done result => exact hNext result
  | read hPath hRest ih => exact .read hPath ih
  | write hPath hRest => cases hPath

theorem map
    {maybe : Option Path}
    (hJob : job.Within inputs maybe)
    (f : α → β) :
    (job >>= fun result => .done (f result)).Within inputs
      maybe := by
  induction hJob with
  | done result => exact .done (f result)
  | read hPath hNext ih => exact .read hPath ih
  | write hPath hNext =>
      refine .write hPath ?_
      intro went
      rcases hNext went with ⟨result, hDone⟩
      exact ⟨f result, by rw [hDone]; rfl⟩

/- What a step leaves of a job, and what the job did on it. -/
theorem of_step?
    (hWithin : job.Within inputs (some output))
    {deed : Deed}
    {rest : FileJob α}
    {after : FileTree}
    (hStep : job.step? t = some (deed, rest, after)) :
    rest.Within inputs (some output) ∧
      job.deeds t = deed :: rest.deeds t ∧
      (job.run t).1 = (rest.run t).1 ∧
      ∀ w,
        deed.patch? t = some w →
          t.target output = .ok w.place ∧
            rest.result?.isSome := by
  cases hWithin with
  | done result => cases hStep
  | read hPath hNext =>
      cases hStep
      refine ⟨hNext _, rfl, rfl, ?_⟩
      intro w hPatch
      cases hPatch
  | write hPath hNext =>
      rename_i path text next
      cases hStep
      cases hPath
      rw [run_write, deeds]
      rcases hNext
          (t.writeDirect output (Utf8.encode text)).1 with
        ⟨result, hDone⟩
      rw [hDone]
      refine ⟨.done result, rfl, rfl, ?_⟩
      intro w hPatch
      exact ⟨FileTree.target_of_patch? hPatch, rfl⟩

/- A job puts at most one file into a tree, at its output. -/
theorem patches
    (hWithin : job.Within inputs (some output))
    (t : FileTree) :
    ∃ made : Option Patch,
      (job.deeds t).filterMap (Deed.patch? t) = made.toList ∧
        ∀ w, made = some w → t.target output = .ok w.place := by
  induction hWithin with
  | done result => exact ⟨none, rfl, by simp⟩
  | read hPath hNext ih => exact ih _
  | write hPath hNext =>
      rename_i path text next
      cases hPath
      rcases hNext
          (t.writeDirect output (Utf8.encode text)).1 with
        ⟨result, hDone⟩
      refine ⟨t.patch? output (Utf8.encode text), ?_, ?_⟩
      · simp only [deeds, hDone, List.filterMap_cons,
          Deed.patch?]
        cases t.patch? output (Utf8.encode text) with
        | none => rfl
        | some w => rfl
      · intro w hPatch
        exact FileTree.target_of_patch? hPatch

variable {off : Set Location}

/-
  On a tree that is alike where a job looks, the job takes the
  same step and puts the same file in place.
-/
theorem step?_eq
    (hWithin : job.Within inputs (some output))
    (hAlike : t.AlikeOff off u)
    (hInputs :
      ∀ p ∈ inputs, ∀ place ∈ t.route p, place ∉ off)
    (hOutput : ∀ place ∈ t.approach output, place ∉ off) :
    job.step? u =
      (job.step? t).map fun (deed, rest, _) =>
        (deed, rest, u.patchAll (deed.patch? t).toList) := by
  cases hWithin with
  | done result => rfl
  | read hPath hNext =>
      simp only [step?, hAlike.readText_eq (hInputs _ hPath)]
      rfl
  | write hPath hNext =>
      cases hPath
      simp only [step?, hAlike.writeDirect_eq hOutput]
      rfl

/- A whole run on such a tree. -/
theorem run_eq
    (hWithin : job.Within inputs (some output))
    (hAlike : t.AlikeOff off u)
    (hInputs :
      ∀ p ∈ inputs, ∀ place ∈ t.route p, place ∉ off)
    (hOutput : ∀ place ∈ t.approach output, place ∉ off) :
    job.run u =
      ((job.run t).1,
        u.patchAll
          ((job.deeds t).filterMap (Deed.patch? t))) := by
  induction hWithin with
  | done result => rfl
  | read hPath hNext ih =>
      rw [run_read, run_read,
        hAlike.readText_eq (hInputs _ hPath)]
      exact ih _
  | write hPath hNext =>
      rename_i path text next
      cases hPath
      rcases hNext
          (t.writeDirect output (Utf8.encode text)).1 with
        ⟨result, hDone⟩
      simp only [run_write, hAlike.writeDirect_eq hOutput,
        deeds, hDone, run_done, List.filterMap_cons,
        Deed.patch?]
      cases t.patch? output (Utf8.encode text) with
      | none => rfl
      | some w => rfl

end Within

end FileJob

------------------------------------------------------------
-- Crews
------------------------------------------------------------

/- Jobs under way on one tree, each with its owner. -/
structure Crew (κ α : Type) where
  jobs : List (κ × FileJob α)
  tree : FileTree

namespace Crew

variable {κ α : Type}

/-
  The turn of the job at an index: its next step, if it has
  one, and the crew after it.
-/
def turn
    (c : Crew κ α)
    (i : Nat) : Option (κ × Deed) × Crew κ α :=
  match c.jobs[i]? with
  | none => (none, c)
  | some (who, job) =>
      match job.step? c.tree with
      | none => (none, c)
      | some (deed, rest, after) =>
          (some (who, deed),
            ⟨c.jobs.set i (who, rest), after⟩)

/- Turns in a given order: what was done, and the crew then. -/
def play
    (c : Crew κ α) :
    List Nat → List (κ × Deed) × Crew κ α
  | [] => ([], c)
  | i :: order =>
      let first := c.turn i
      let others := first.2.play order
      (first.1.toList ++ others.1, others.2)

/- The results of a crew whose jobs are all done. -/
def results?
    (c : Crew κ α) : Option (List α) :=
  c.jobs.mapM fun entry => entry.2.result?

theorem results?_eq_some_iff
    {c : Crew κ α}
    {results : List α} :
    c.results? = some results ↔
      c.jobs.map (·.2) = results.map .done := by
  unfold results?
  induction c.jobs generalizing results with
  | nil => cases results <;> simp
  | cons entry jobs ih =>
      cases results with
      | nil => simp [Option.bind_eq_some_iff]
      | cons result results =>
          simp [Option.bind_eq_some_iff, ih,
            FileJob.result?_eq_some_iff]

/- All that a turn can do. -/
theorem turn_cases
    (c : Crew κ α)
    (i : Nat) :
    c.turn i = (none, c) ∨
      ∃ before who job after deed rest tree,
        c.jobs = before ++ (who, job) :: after ∧
          job.step? c.tree = some (deed, rest, tree) ∧
          c.turn i =
            (some (who, deed),
              ⟨before ++ (who, rest) :: after, tree⟩) := by
  unfold turn
  cases hEntry : c.jobs[i]? with
  | none => exact .inl rfl
  | some entry =>
      rcases entry with ⟨who, job⟩
      cases hStep : job.step? c.tree with
      | none => exact .inl (by simp [hStep])
      | some taken =>
          rcases taken with ⟨deed, rest, tree⟩
          rcases List.getElem?_eq_some_iff.mp hEntry with
            ⟨hBound, hGet⟩
          refine
            .inr
              ⟨c.jobs.take i, who, job, c.jobs.drop (i + 1),
                deed, rest, tree, ?_, hStep, ?_⟩
          · rw [← hGet, List.getElem_cons_drop,
              List.take_append_drop]
          · simp only [hStep]
            rw [List.set_eq_take_append_cons_drop,
              if_pos hBound]

theorem turn_middle
    {before after : List (κ × FileJob α)}
    {who : κ}
    {job rest : FileJob α}
    {deed : Deed}
    {t tree : FileTree}
    (hStep : job.step? t = some (deed, rest, tree)) :
    (Crew.mk (before ++ (who, job) :: after) t).turn
        before.length =
      (some (who, deed),
        ⟨before ++ (who, rest) :: after, tree⟩) := by
  simp [turn, hStep]

theorem play_append
    (c : Crew κ α)
    (order more : List Nat) :
    c.play (order ++ more) =
      ((c.play order).1 ++ ((c.play order).2.play more).1,
        ((c.play order).2.play more).2) := by
  induction order generalizing c with
  | nil => rfl
  | cons i order ih =>
      simp only [List.cons_append, play, ih,
        List.append_assoc]

------------------------------------------------------------
-- One Job After Another
------------------------------------------------------------

/- Jobs carried out one after another, each to its end. -/
def inTurn :
    List (κ × FileJob α) → FileTree → List (κ × α) × FileTree
  | [], t => ([], t)
  | (who, job) :: jobs, t =>
      let ended := job.run t
      let others := inTurn jobs ended.2
      ((who, ended.1) :: others.1, others.2)

/- An entry of a job that is done. -/
def finished
    (entry : κ × α) : κ × FileJob α :=
  (entry.1, .done entry.2)

theorem results?_finished
    (entries : List (κ × α))
    (t : FileTree) :
    (Crew.mk (entries.map finished) t).results? =
      some (entries.map (·.2)) := by
  rw [results?_eq_some_iff]
  simp [finished, Function.comp_def]

/- Turns of one job alone bring it to its end. -/
theorem exists_play_job
    (job : FileJob α)
    (before after : List (κ × FileJob α))
    (who : κ)
    (t : FileTree) :
    ∃ order,
      ((Crew.mk (before ++ (who, job) :: after) t).play
          order).2 =
        ⟨before ++ finished (who, (job.run t).1) :: after,
          (job.run t).2⟩ := by
  induction job generalizing t with
  | done result => exact ⟨[], rfl⟩
  | read path next ih =>
      rcases ih (t.readText path) t with ⟨order, hPlay⟩
      refine ⟨before.length :: order, ?_⟩
      rw [play, turn_middle rfl]
      exact hPlay
  | write path text next ih =>
      rcases ih (t.writeDirect path (Utf8.encode text)).1
          (t.writeDirect path (Utf8.encode text)).2 with
        ⟨order, hPlay⟩
      refine ⟨before.length :: order, ?_⟩
      rw [play, turn_middle rfl, FileJob.run_write]
      exact hPlay

/- One order of turns is one job after another. -/
theorem exists_play_inTurn
    (c : Crew κ α) :
    ∃ order,
      (c.play order).2 =
        ⟨(inTurn c.jobs c.tree).1.map finished,
          (inTurn c.jobs c.tree).2⟩ := by
  rcases c with ⟨jobs, t⟩
  -- The jobs before the next one are done already.
  suffices hDone :
      ∀ before : List (κ × α), ∃ order,
        ((Crew.mk (before.map finished ++ jobs) t).play
            order).2 =
          ⟨(before ++ (inTurn jobs t).1).map finished,
            (inTurn jobs t).2⟩ from
    hDone []
  intro before
  induction jobs generalizing before t with
  | nil => exact ⟨[], by simp [play, inTurn]⟩
  | cons entry jobs ih =>
      rcases entry with ⟨who, job⟩
      rcases exists_play_job job (before.map finished) jobs who
          t with
        ⟨first, hFirst⟩
      rcases ih (job.run t).2
          (before ++ [(who, (job.run t).1)]) with
        ⟨others, hOthers⟩
      refine ⟨first ++ others, ?_⟩
      rw [play_append]
      simp only [hFirst]
      simpa [inTurn] using hOthers

end Crew

end Collate
