import AIHub.Domain.Tasks

/-!
# Times of a lifecycle

A pending task is moved by a sequence of calls of `transitionTask`. A call that fails leaves the
snapshot as it is, and the next call starts from there.

The graph of the transitions has cycles, through blocked and back to queued, so a task may be
planned and run many times. Its times are read off the accepted calls:

* `startedAt_afterCalls`: the start is the time of the first one into an active status;
* `completedAt_afterCalls`: the completion, in a terminal status, is the time of the last one;
* `fails_iff`: only the transition table and the two comparisons of times refuse a call.

Main result: `lifecycle_times`.
-/

namespace AIHub

structure TransitionCall where
  target : TaskStatus
  time : Timestamp
  deriving DecidableEq

namespace Task

/-- The snapshot after one call. -/
def afterCall (task : Task) (call : TransitionCall) : Task :=
  match transitionTask task call.target call.time with
  | .ok updated => updated
  | .error _ => task

def afterCalls (task : Task) (calls : List TransitionCall) : Task := calls.foldl afterCall task

/-- The calls that move the task, in order. -/
def acceptedCalls : Task → List TransitionCall → List TransitionCall
  | _, [] => []
  | task, call :: calls =>
    match transitionTask task call.target call.time with
    | .ok updated => call :: updated.acceptedCalls calls
    | .error _ => task.acceptedCalls calls

/-- The table and the order of times refuse the call. -/
def Refuses (task : Task) (call : TransitionCall) : Prop :=
  ¬ canTransition task.status call.target ∨ call.time < task.createdAt ∨
    ∃ started ∈ task.startedAt, call.time < started

variable {task : Task} {call : TransitionCall} {calls more : List TransitionCall}

/-- A call fails only for one of these reasons: the final validation refuses nothing. -/
theorem fails_iff :
    (∃ e, transitionTask task call.target call.time = .error e) ↔ task.Refuses call := by
  constructor
  · intro h
    obtain ⟨e, he⟩ := h
    by_contra hnot
    simp only [Refuses, not_or, not_not, not_exists, not_and, Timestamp.not_lt] at hnot
    obtain ⟨hlegal, hcreated, hstarted⟩ := hnot
    obtain ⟨updated, hok, _⟩ := transitionTask_eq_ok hlegal hcreated hstarted
    rw [hok] at he
    cases he
  · intro h
    cases hresult : transitionTask task call.target call.time with
    | error e => exact ⟨e, rfl⟩
    | ok updated =>
      obtain ⟨hlegal, hcreated, hstarted, _⟩ := transitionTask_ok hresult
      rcases h with hillegal | hearly | ⟨started, hmem, hearly⟩
      · exact absurd hlegal hillegal
      · exact absurd hearly (Timestamp.not_lt.2 hcreated)
      · exact absurd hearly (Timestamp.not_lt.2 (hstarted started hmem))

/-! ## One call -/

/-- An accepted call goes on from what it returns. -/
theorem calls_of_ok (calls : List TransitionCall) {updated : Task}
    (h : transitionTask task call.target call.time = .ok updated) :
    task.afterCalls (call :: calls) = updated.afterCalls calls ∧
      task.acceptedCalls (call :: calls) = call :: updated.acceptedCalls calls := by
  have hafter : task.afterCall call = updated := by rw [afterCall, h]
  constructor
  · rw [← hafter]
    rfl
  · rw [acceptedCalls, h]

/-- A call that fails is as if it had not been made. -/
theorem calls_of_error (calls : List TransitionCall) {e : HubError}
    (h : transitionTask task call.target call.time = .error e) :
    task.afterCalls (call :: calls) = task.afterCalls calls ∧
      task.acceptedCalls (call :: calls) = task.acceptedCalls calls := by
  have hafter : task.afterCall call = task := by rw [afterCall, h]
  constructor
  · show (task.afterCall call).afterCalls calls = _
    rw [hafter]
  · rw [acceptedCalls, h]

theorem afterCalls_append :
    task.afterCalls (calls ++ more) = (task.afterCalls calls).afterCalls more :=
  List.foldl_append

/-- What the calls leave alone. -/
structure SameBut (task updated : Task) : Prop where
  taskId : updated.taskId = task.taskId
  source : updated.source = task.source
  project : updated.project = task.project
  team : updated.team = task.team
  request : updated.request = task.request
  assignedAgents : updated.assignedAgents = task.assignedAgents
  createdAt : updated.createdAt = task.createdAt

theorem SameBut.trans {a b c : Task} (h : SameBut a b) (h' : SameBut b c) : SameBut a c where
  taskId := h'.taskId.trans h.taskId
  source := h'.source.trans h.source
  project := h'.project.trans h.project
  team := h'.team.trans h.team
  request := h'.request.trans h.request
  assignedAgents := h'.assignedAgents.trans h.assignedAgents
  createdAt := h'.createdAt.trans h.createdAt

theorem sameBut_afterCall : SameBut task (task.afterCall call) := by
  unfold afterCall
  split
  · rename_i updated h
    obtain ⟨_, _, _, hmoved⟩ := transitionTask_ok h
    constructor <;> rw [hmoved] <;> rfl
  · exact ⟨rfl, rfl, rfl, rfl, rfl, rfl, rfl⟩

theorem sameBut_afterCalls : SameBut task (task.afterCalls calls) := by
  induction calls generalizing task with
  | nil => exact ⟨rfl, rfl, rfl, rfl, rfl, rfl, rfl⟩
  | cons call calls ih => exact sameBut_afterCall.trans ih

/-! ## Times -/

/-- A task keeps its start. One without a start gets the time of the first call that is accepted
and goes into an active status. -/
theorem startedAt_afterCalls :
    (task.afterCalls calls).startedAt = task.startedAt.or
      (((task.acceptedCalls calls).find? (·.target.isActive)).map (·.time)) := by
  induction calls generalizing task with
  | nil => exact (Option.or_none).symm
  | cons call calls ih =>
    cases hresult : transitionTask task call.target call.time with
    | error e =>
      obtain ⟨hafter, haccepted⟩ := calls_of_error calls hresult
      rw [hafter, haccepted, ih]
    | ok updated =>
      obtain ⟨hafter, haccepted⟩ := calls_of_ok calls hresult
      obtain ⟨_, _, _, hmoved⟩ := transitionTask_ok hresult
      have hstarted : updated.startedAt =
          task.startedAt.or (if call.target.isActive then some call.time else none) := by
        rw [hmoved]
        cases hactive : call.target.isActive <;> cases hstart : task.startedAt <;>
          simp [TaskFields.moved, hactive, hstart]
      rw [hafter, haccepted, ih, hstarted, Option.or_assoc, List.find?_cons]
      cases call.target.isActive <;> simp

theorem status_of_accepted {updated : Task}
    (h : transitionTask task call.target call.time = .ok updated) :
    updated.status = call.target := by
  obtain ⟨_, _, _, hmoved⟩ := transitionTask_ok h
  rw [hmoved]
  rfl

/-- Nothing moves a task out of a terminal status. -/
theorem calls_of_terminal (calls : List TransitionCall) (h : task.status.isTerminal = true) :
    task.afterCalls calls = task ∧ task.acceptedCalls calls = [] := by
  induction calls with
  | nil => exact ⟨rfl, rfl⟩
  | cons call calls ih =>
    have hrefuses : task.Refuses call := .inl (not_canTransition_of_terminal h)
    obtain ⟨e, he⟩ := fails_iff.2 hrefuses
    obtain ⟨hafter, haccepted⟩ := calls_of_error calls he
    rw [hafter, haccepted]
    exact ih

/-- A terminal status is reached by the last call that is accepted, if the task did not begin in
one. -/
theorem terminal_afterCalls (h : task.status.isTerminal = false)
    (hafter : (task.afterCalls calls).status.isTerminal = true) :
    ∃ last, (task.acceptedCalls calls).getLast? = some last ∧
      (task.afterCalls calls).completedAt = some last.time := by
  induction calls generalizing task with
  | nil =>
    have hsame : task.status.isTerminal = true := hafter
    rw [h] at hsame
    cases hsame
  | cons call calls ih =>
    cases hresult : transitionTask task call.target call.time with
    | error e =>
      obtain ⟨hcalls, haccepted⟩ := calls_of_error calls hresult
      rw [hcalls] at hafter ⊢
      rw [haccepted]
      exact ih h hafter
    | ok updated =>
      obtain ⟨hcalls, haccepted⟩ := calls_of_ok calls hresult
      rw [hcalls] at hafter ⊢
      rw [haccepted]
      cases hterminal : updated.status.isTerminal with
      | false =>
        obtain ⟨last, hlast, hcompleted⟩ := ih hterminal hafter
        exact ⟨last, by rw [List.getLast?_cons, hlast]; rfl, hcompleted⟩
      | true =>
        obtain ⟨hsame, hnil⟩ := calls_of_terminal calls hterminal
        obtain ⟨_, _, _, hmoved⟩ := transitionTask_ok hresult
        rw [status_of_accepted hresult] at hterminal
        refine ⟨call, by rw [hnil]; rfl, ?_⟩
        rw [hsame, hmoved]
        simp [TaskFields.moved, hterminal]

/-- In a terminal status, a task that began in another one has the time of the last call that was
accepted. -/
theorem completedAt_afterCalls (h : task.status.isTerminal = false) :
    (task.afterCalls calls).completedAt =
      if (task.afterCalls calls).status.isTerminal then
        (task.acceptedCalls calls).getLast?.map (·.time)
      else none := by
  cases hafter : (task.afterCalls calls).status.isTerminal with
  | false =>
    have hnone := (task.afterCalls calls).validity.terminal
    rw [hafter] at hnone
    simpa using hnone
  | true =>
    obtain ⟨last, hlast, hcompleted⟩ := terminal_afterCalls h hafter
    rw [hcompleted, hlast]
    rfl

end Task

open AIHub.Task

/-- Whatever calls a pending task without a start has seen:

* the next call fails only because the transition is illegal or its time is too early;
* the task has a start exactly if an accepted call went into an active status, the start is the
  time of the first one, and no further calls change it;
* it has a completion time exactly in the terminal statuses, and it is that of the last accepted
  call;
* all other fields are as they were, but the status. -/
theorem lifecycle_times (task : Task) (hpending : task.status = .pending)
    (hstart : task.startedAt = none) (calls : List TransitionCall) :
    (∀ call : TransitionCall,
      (∃ e, transitionTask (task.afterCalls calls) call.target call.time = .error e) ↔
        (task.afterCalls calls).Refuses call) ∧
    (task.afterCalls calls).startedAt =
      ((task.acceptedCalls calls).find? (·.target.isActive)).map (·.time) ∧
    (∀ started more, (task.afterCalls calls).startedAt = some started →
      (task.afterCalls (calls ++ more)).startedAt = some started) ∧
    (task.afterCalls calls).completedAt.isSome = (task.afterCalls calls).status.isTerminal ∧
    (task.afterCalls calls).completedAt =
      (if (task.afterCalls calls).status.isTerminal then
        (task.acceptedCalls calls).getLast?.map (·.time)
      else none) ∧
    SameBut task (task.afterCalls calls) := by
  refine ⟨fun call => fails_iff, ?_, ?_, (task.afterCalls calls).validity.terminal, ?_,
    sameBut_afterCalls⟩
  · rw [startedAt_afterCalls, hstart, Option.none_or]
  · intro started more h
    rw [afterCalls_append, startedAt_afterCalls, h, Option.some_or]
  · apply completedAt_afterCalls
    rw [hpending]
    rfl

namespace Sample

def mapsTask : Task :=
  ⟨{ taskId := ⟨"TASK-31", by decide⟩, source := ⟨"terminal", by decide⟩
     project := ⟨"atlas", by decide⟩, team := ⟨"maps", by decide⟩
     request := ⟨"Draw the map.", by decide⟩, createdAt := ⟨0, 0⟩ }, by decide⟩

/-- The task is blocked and queued again before it is run. The fourth call is illegal, and the
sixth one too early. -/
def blockedAndBack : List TransitionCall :=
  [⟨.queued, ⟨1, 0⟩⟩, ⟨.planning, ⟨2, 0⟩⟩, ⟨.blocked, ⟨3, 0⟩⟩, ⟨.completed, ⟨4, 0⟩⟩,
    ⟨.queued, ⟨5, 0⟩⟩, ⟨.running, ⟨1, 0⟩⟩, ⟨.running, ⟨6, 0⟩⟩, ⟨.completed, ⟨7, 0⟩⟩]

end Sample

open Sample in
theorem lifecycle_times_sample :
    (mapsTask.afterCalls blockedAndBack).startedAt = some ⟨2, 0⟩ ∧
      (mapsTask.afterCalls blockedAndBack).completedAt = some ⟨7, 0⟩ := by
  obtain ⟨_, hstarted, _, _, hcompleted, _⟩ := lifecycle_times mapsTask rfl rfl blockedAndBack
  rw [hstarted, hcompleted]
  decide +kernel

end AIHub
