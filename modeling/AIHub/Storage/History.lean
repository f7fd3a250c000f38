import AIHub.Storage.System
import Mathlib.Data.List.Chain

/-!
# A task row and its events tell the same story

In every store that write operations can reach, the row of a task agrees with its JSON snapshot
and with its events: the version counts the atomic events, the statuses of the lifecycle events
are a legal path from pending to the stored status, and the assignment events list the agents.

`History.Consistent` states this for one history and `History.consistent_step` shows that every
step keeps it; `row_consistent` carries it to the store.
-/

namespace AIHub

open Transition

namespace History

/-- The events that only an atomic task operation stores. -/
def atomicEvents (h : History) : List EventEnvelope :=
  h.events.filter fun e => e.eventType ∈ atomicTaskEventTypes

def assignmentEvents (h : History) : List EventEnvelope :=
  h.events.filter fun e => e.eventType = .agentAssigned

/-- The atomic events that are not assignments. -/
def lifecycleEvents (h : History) : List EventEnvelope :=
  h.events.filter fun e => e.eventType ∈ atomicTaskEventTypes ∧ e.eventType ≠ .agentAssigned

/-- A legal way from pending to `status`. -/
structure LegalPath (path : List TaskStatus) (status : TaskStatus) : Prop where
  start : path.head? = some .pending
  legal : path.IsChain canTransition
  finish : path.getLast? = some status

structure Consistent (h : History) (row : TaskRow) : Prop where
  status : row.status = row.taskJson.status
  project : row.project = row.taskJson.project
  team : row.team = row.taskJson.team
  version : row.version = h.atomicEvents.length
  path : ∃ path, LegalPath path row.status ∧
    h.lifecycleEvents.map (·.payloadStatus) = path.map fun t => some (.string t.value)
  agents : h.assignmentEvents.map (·.agent) = row.taskJson.assignedAgents.map some

variable {row : TaskRow} {events : List EventEnvelope} {event : EventEnvelope}

/-! ## The three kinds of events -/

theorem atomicEvents_append (row' : Option TaskRow) :
    (History.mk row' (events ++ [event])).atomicEvents = (History.mk row' events).atomicEvents ++
      if event.eventType ∈ atomicTaskEventTypes then [event] else [] := by
  simp [atomicEvents, List.filter_cons]

theorem assignmentEvents_append (row' : Option TaskRow) :
    (History.mk row' (events ++ [event])).assignmentEvents =
      (History.mk row' events).assignmentEvents ++
        if event.eventType = .agentAssigned then [event] else [] := by
  simp [assignmentEvents, List.filter_cons]

theorem lifecycleEvents_append (row' : Option TaskRow) :
    (History.mk row' (events ++ [event])).lifecycleEvents =
      (History.mk row' events).lifecycleEvents ++
        if event.eventType ∈ atomicTaskEventTypes ∧ event.eventType ≠ .agentAssigned then [event]
        else [] := by
  simp [lifecycleEvents, List.filter_cons]

theorem agentAssigned_mem : EventType.agentAssigned ∈ atomicTaskEventTypes := by decide

theorem LegalPath.snoc {path : List TaskStatus} {status target : TaskStatus}
    (h : LegalPath path status) (ht : canTransition status target) :
    LegalPath (path ++ [target]) target where
  start := by
    rw [List.head?_append, h.start]
    rfl
  legal := h.legal.append (List.isChain_singleton _) (by
    rw [h.finish]
    simpa using ht)
  finish := List.getLast?_concat

/-! ## Every step keeps a history consistent -/

theorem consistent_append (h : Consistent ⟨some row, events⟩ row)
    (htype : event.eventType ∉ atomicTaskEventTypes) :
    Consistent ⟨some row, events ++ [event]⟩ row := by
  have hassigned : event.eventType ≠ .agentAssigned := fun heq => htype (heq ▸ agentAssigned_mem)
  refine ⟨h.status, h.project, h.team, ?_, ?_, ?_⟩
  · rw [atomicEvents_append, if_neg htype, List.append_nil]
    exact h.version
  · rw [lifecycleEvents_append, if_neg fun hn => htype hn.1, List.append_nil]
    exact h.path
  · rw [assignmentEvents_append, if_neg hassigned, List.append_nil]
    exact h.agents

theorem consistent_create {task : Task} (hpending : task.status = .pending)
    (hagents : task.assignedAgents = []) (hlife : LifecycleEvent task .pending event) :
    Consistent ⟨some (.created task event.timestamp), [event]⟩
      (.created task event.timestamp) := by
  have hatomic : event.eventType ∈ atomicTaskEventTypes := hlife.type ▸ eventForStatus_mem .pending
  have hassigned : event.eventType ≠ .agentAssigned :=
    hlife.type ▸ eventForStatus_ne_assigned .pending
  refine ⟨rfl, rfl, rfl, ?_, ⟨[.pending], ⟨rfl, List.isChain_singleton _, ?_⟩, ?_⟩, ?_⟩
  · simp [atomicEvents, hatomic, TaskRow.created]
  · exact congrArg some hpending.symm
  · simp [lifecycleEvents, hatomic, hassigned, hlife.status]
  · simp [assignmentEvents, hassigned, TaskRow.created, hagents]

theorem consistent_move {target : TaskStatus} {updated : Task}
    (h : Consistent ⟨some row, events⟩ row) (hlife : LifecycleEvent row.taskJson target event)
    (hmoved : AIHub.transitionTask row.taskJson target event.timestamp = .ok updated) :
    Consistent ⟨some (row.moved updated event.timestamp), events ++ [event]⟩
      (row.moved updated event.timestamp) := by
  obtain ⟨hlegal, _, _, hfields⟩ := transitionTask_ok hmoved
  have hatomic : event.eventType ∈ atomicTaskEventTypes := hlife.type ▸ eventForStatus_mem target
  have hassigned : event.eventType ≠ .agentAssigned :=
    hlife.type ▸ eventForStatus_ne_assigned target
  have hstatus : updated.status = target := congrArg TaskFields.status hfields
  obtain ⟨path, hpath, hevents⟩ := h.path
  refine ⟨rfl, ?_, ?_, ?_, ⟨path ++ [target], ?_, ?_⟩, ?_⟩
  · exact h.project.trans (congrArg TaskFields.project hfields).symm
  · exact h.team.trans (congrArg TaskFields.team hfields).symm
  · rw [atomicEvents_append, if_pos hatomic, List.length_append]
    exact congrArg (· + 1) h.version
  · rw [TaskRow.moved, hstatus]
    exact hpath.snoc (h.status ▸ hlegal)
  · rw [lifecycleEvents_append, if_pos ⟨hatomic, hassigned⟩, List.map_append, List.map_append]
    exact congrArg₂ _ hevents (congrArg (fun s => [s]) hlife.status)
  · rw [assignmentEvents_append, if_neg hassigned, List.append_nil]
    exact h.agents.trans (congrArg (List.map some ·.assignedAgents) hfields.symm)

theorem consistent_assign {agent : Identifier} {updated : Task}
    (h : Consistent ⟨some row, events⟩ row) (htype : event.eventType = .agentAssigned)
    (hagent : event.agent = some agent)
    (hassigned : updated.toTaskFields = { row.taskJson.toTaskFields with
      assignedAgents := row.taskJson.assignedAgents ++ [agent] }) :
    Consistent ⟨some (row.assigned updated event.timestamp), events ++ [event]⟩
      (row.assigned updated event.timestamp) := by
  have hatomic : event.eventType ∈ atomicTaskEventTypes := htype ▸ agentAssigned_mem
  refine ⟨?_, ?_, ?_, ?_, ?_, ?_⟩
  · exact h.status.trans (congrArg TaskFields.status hassigned).symm
  · exact h.project.trans (congrArg TaskFields.project hassigned).symm
  · exact h.team.trans (congrArg TaskFields.team hassigned).symm
  · rw [atomicEvents_append, if_pos hatomic, List.length_append]
    exact congrArg (· + 1) h.version
  · rw [lifecycleEvents_append, if_neg fun hn => hn.2 htype, List.append_nil]
    exact h.path
  · have hagents := congrArg TaskFields.assignedAgents hassigned
    rw [assignmentEvents_append, if_pos htype, List.map_append, TaskRow.assigned, hagents,
      List.map_append]
    exact congrArg₂ _ h.agents (congrArg (fun a => [a]) hagent)

/-- A step creates the task, if it does, without agents. -/
def CreatesUnassigned (_ : History) (a : TaskWrite × EventEnvelope) : Prop :=
  ∀ task, a.1 = .create task → task.assignedAgents = []

theorem consistent_step {id : TaskId} {h h' : History} {a : TaskWrite × EventEnvelope}
    (hh : ∀ row, h.row = some row → h.Consistent row) (ha : CreatesUnassigned h a)
    (hs : (historySystem id).step h a h') : ∀ row, h'.row = some row → h'.Consistent row := by
  obtain ⟨write, event⟩ := a
  cases hs with
  | append row events _ htype =>
    rintro _ ⟨⟩
    exact consistent_append (hh row rfl) htype
  | create task _ hpending hlife =>
    rintro _ ⟨⟩
    exact consistent_create hpending (ha task rfl) hlife
  | move row events target updated _ hlife hmoved =>
    rintro _ ⟨⟩
    exact consistent_move (hh row rfl) hlife hmoved
  | assign row events agent updated _ htype _ hagent _ _ _ _ hassigned =>
    rintro _ ⟨⟩
    exact consistent_assign (hh row rfl) htype hagent hassigned

/-- Every history whose task is created without agents is consistent. -/
theorem consistent_reachable {id : TaskId} {h : History}
    (hr : ((historySystem id).guard CreatesUnassigned).Reachable h) :
    ∀ row, h.row = some row → h.Consistent row := by
  have hI : ((historySystem id).guard CreatesUnassigned).Invariant
      fun h => ∀ row, h.row = some row → h.Consistent row := {
    init := by
      rintro _ rfl row ⟨⟩
    step := fun h a h' hh hs => consistent_step hh hs.1 hs.2 }
  exact hI.reachable hr

end History

/-! ## The rows of a reachable store -/

/-- If the call commits, a task that it creates has no agents yet. -/
def WriteOp.CreatesUnassigned (s : Store) (op : WriteOp) : Prop :=
  op.Commits s → ∀ task event, (.create task, event) ∈ op.writes s → task.assignedAgents = []

/-- In every run whose calls create tasks without agents, the row of every task agrees with its
snapshot and its events in every state. -/
theorem row_consistent {s : Store} (h : (storeSystem.guard WriteOp.CreatesUnassigned).Reachable s)
    {row : TaskRow} (hrow : row ∈ s.tasks) : (s.history row.taskId).Consistent row := by
  have hreach : ((historySystem row.taskId).guard History.CreatesUnassigned).Reachable
      (s.history row.taskId) := by
    refine history_reachable_guard ?_ ?_ h
    · intro s op write event _ hG hcommits hmem _ _ task hwrite
      cases hwrite
      exact hG hcommits task _ hmem
    · intro task createdEvent queuedEvent _ _ _ task' hwrite
      cases hwrite
  exact History.consistent_reachable hreach row (Table.get?_of_mem hrow)

theorem row_consistent_sample :
    (((WriteOp.createTask Sample.task Sample.created).after .empty).history
      Sample.taskId).Consistent (.created Sample.task ⟨10, 0⟩) := by
  have hreach : (storeSystem.guard WriteOp.CreatesUnassigned).Reachable
      ((WriteOp.createTask Sample.task Sample.created).after .empty) := by
    refine storeSystem_guard_after (.of_init rfl) ?_ trivial
    intro _ task event hmem
    simp only [WriteOp.writes, List.mem_singleton, Prod.mk.injEq, TaskWrite.create.injEq] at hmem
    rw [hmem.1]
    rfl
  have hmem : TaskRow.created Sample.task ⟨10, 0⟩ ∈
      ((WriteOp.createTask Sample.task Sample.created).after .empty).tasks := by decide
  exact row_consistent hreach hmem

/-- A new task that already names an agent. -/
def Sample.assignedTask : Task :=
  ⟨{ taskFields with assignedAgents := [developer] }, by decide⟩

/-- `create_task` takes a task with agents, for whose assignment no event is stored. -/
theorem row_inconsistent : ¬ ∀ s, storeSystem.Reachable s → ∀ row ∈ s.tasks,
    (s.history row.taskId).Consistent row := by
  intro h
  have hreach : storeSystem.Reachable
      ((WriteOp.createTask Sample.assignedTask Sample.created).after .empty) :=
    storeSystem_after (.of_init rfl) trivial
  have hagents := (h _ hreach (.created Sample.assignedTask ⟨10, 0⟩) (by decide)).agents
  revert hagents
  decide

end AIHub
