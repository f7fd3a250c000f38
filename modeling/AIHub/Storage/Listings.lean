import AIHub.Domain.Isoformat
import AIHub.Storage.Polling
import Mathlib.Data.String.Basic

/-!
# Listings

What the store lists in an order, up to a limit.
-/

namespace AIHub.Store

/-- `SELECT … FROM task_routes ORDER BY task_id LIMIT ?`. -/
def listTaskRoutes (limit : Int) (s : Store) : Except HubError (List TaskRoute) := do
  raiseIf (¬ (1 ≤ limit ∧ limit ≤ 1000)) (.value "limit must be an integer between 1 and 1000")
  return s.taskRoutes.ordered.take limit.toNat

/-- The order of tasks: by the text of their creation time, and then by their id. -/
def TaskRow.before (a b : TaskRow) : Prop :=
  a.createdAt.isoformat < b.createdAt.isoformat ∨
    (a.createdAt.isoformat = b.createdAt.isoformat ∧ a.key ≤ b.key)

instance : DecidableRel TaskRow.before := fun _ _ => inferInstanceAs (Decidable (_ ∨ _))

def queuedRows (s : Store) : List TaskRow := s.tasks.rows.filter fun r => r.status = .queued

/-- `SELECT task_json FROM tasks WHERE status = ? ORDER BY created_at, task_id LIMIT ?`. -/
def listQueuedTasks (limit : Int) (s : Store) : Except HubError (List Task) := do
  raiseIf (¬ (1 ≤ limit ∧ limit ≤ 1000)) (.value "limit must be an integer between 1 and 1000")
  return ((s.queuedRows.insertionSort TaskRow.before).take limit.toNat).map TaskRow.taskJson

/-- The order of runs: by the text of their creation time, and then by their id. -/
def RunRow.before (a b : RunRow) : Prop :=
  a.createdAt.isoformat < b.createdAt.isoformat ∨
    (a.createdAt.isoformat = b.createdAt.isoformat ∧ a.key ≤ b.key)

instance : DecidableRel RunRow.before := fun _ _ => inferInstanceAs (Decidable (_ ∨ _))

/-- `SELECT run_json FROM runs WHERE task_id = ? ORDER BY created_at, run_id`. -/
def listRuns (s : Store) (taskId : String) : List RunRecord :=
  ((s.runs.rows.filter fun r => r.taskId.val = taskId).insertionSort RunRow.before).map
    RunRow.runJson

end AIHub.Store
