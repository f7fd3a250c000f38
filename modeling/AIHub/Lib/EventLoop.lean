import Mathlib.Data.Finset.Insert

/-!
# Tasks of an event loop

A task runs until it ends, and stays what it is then. Cancelling a task that runs asks it to end;
whether it does, and how, is its own affair. Who gathers some tasks goes on when all of them have
ended, and cancelling the gathering cancels the tasks that still run.
-/

inductive TaskOutcome where
  | returned | raised | cancelled
  deriving DecidableEq, Repr

inductive AsyncTask where
  | absent
  /-- The task runs, and has been asked to end or not. -/
  | running (cancelling : Bool)
  | ended (outcome : TaskOutcome)
  deriving DecidableEq, Repr

namespace AsyncTask

def isDone : AsyncTask → Bool
  | ended _ => true
  | absent | running _ => false

def isRunning : AsyncTask → Bool
  | running _ => true
  | absent | ended _ => false

def cancel : AsyncTask → AsyncTask
  | running _ => running true
  | t => t

/-- `t'` is what has become of `t`. -/
structure Follows (t t' : AsyncTask) : Prop where
  started : t ≠ absent → t' ≠ absent
  done : t.isDone = true → t' = t

@[refl] theorem Follows.refl (t : AsyncTask) : t.Follows t := ⟨id, fun _ => rfl⟩

theorem follows_cancel (t : AsyncTask) : t.Follows t.cancel := by
  cases t with
  | running cancelling => exact ⟨fun _ => by simp [cancel], fun h => by cases h⟩
  | absent | ended outcome => exact .refl _

theorem Follows.of_running {cancelling : Bool} (t : AsyncTask) (h : t ≠ absent) :
    (running cancelling).Follows t := ⟨fun _ => h, fun h => by cases h⟩

theorem Follows.of_absent (t : AsyncTask) : absent.Follows t :=
  ⟨fun h => absurd rfl h, fun h => by cases h⟩

@[simp] theorem isDone_cancel (t : AsyncTask) : t.cancel.isDone = t.isDone := by cases t <;> rfl

@[simp] theorem isRunning_cancel (t : AsyncTask) : t.cancel.isRunning = t.isRunning := by
  cases t <;> rfl

@[simp] theorem cancel_eq_absent {t : AsyncTask} : t.cancel = absent ↔ t = absent := by
  cases t <;> simp [cancel]

@[simp] theorem cancel_eq_ended {t : AsyncTask} {outcome : TaskOutcome} :
    t.cancel = ended outcome ↔ t = ended outcome := by
  cases t <;> simp [cancel]

theorem isDone_iff {t : AsyncTask} : t.isDone = true ↔ ∃ outcome, t = ended outcome := by
  cases t <;> simp [isDone]

/-- Once a task has ended it stays so. -/
theorem Follows.isDone {t t' : AsyncTask} (h : t.Follows t') (ht : t.isDone = true) :
    t'.isDone = true := h.done ht ▸ ht

variable {ι : Type} [DecidableEq ι]

/-- Cancel the tasks of a set. -/
def cancelAll (s : Finset ι) (tasks : ι → AsyncTask) (i : ι) : AsyncTask :=
  if i ∈ s then (tasks i).cancel else tasks i

@[simp] theorem cancelAll_empty {tasks : ι → AsyncTask} : cancelAll ∅ tasks = tasks := rfl

theorem follows_cancelAll (s : Finset ι) (tasks : ι → AsyncTask) (i : ι) :
    (tasks i).Follows (cancelAll s tasks i) := by
  unfold cancelAll
  split_ifs
  · exact follows_cancel _
  · exact .refl _

@[simp] theorem isDone_cancelAll (s : Finset ι) (tasks : ι → AsyncTask) (i : ι) :
    (cancelAll s tasks i).isDone = (tasks i).isDone := by
  unfold cancelAll
  split_ifs <;> simp

@[simp] theorem isRunning_cancelAll (s : Finset ι) (tasks : ι → AsyncTask) (i : ι) :
    (cancelAll s tasks i).isRunning = (tasks i).isRunning := by
  unfold cancelAll
  split_ifs <;> simp

@[simp] theorem cancelAll_eq_absent {s : Finset ι} {tasks : ι → AsyncTask} {i : ι} :
    cancelAll s tasks i = absent ↔ tasks i = absent := by
  unfold cancelAll
  split_ifs <;> simp

@[simp] theorem cancelAll_eq_ended {s : Finset ι} {tasks : ι → AsyncTask} {i : ι}
    {outcome : TaskOutcome} : cancelAll s tasks i = ended outcome ↔ tasks i = ended outcome := by
  unfold cancelAll
  split_ifs <;> simp

end AsyncTask
