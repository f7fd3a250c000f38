import AIHub.Lib.Table
import AIHub.Storage.Models
import Mathlib.Data.List.Sort

/-!
# The durable store

`SQLiteStore`: the tables, and every write operation as a function from the store before its
transaction to its result and the store after the commit. An operation that raises is rolled
back, so it returns only the exception.

A JSON column holds the value its canonical text denotes. Primary and unique keys are kept by
`Table`; the foreign key of an event is checked where the event is inserted.
-/

namespace AIHub

/-! ## Tables -/

structure TaskRow where
  taskId : TaskId
  status : TaskStatus
  project : Identifier
  team : Identifier
  createdAt : Timestamp
  updatedAt : Timestamp
  version : Nat
  taskJson : Task
  deriving DecidableEq

structure StoredEvent where
  sequence : Nat
  envelope : EventEnvelope
  deriving DecidableEq

structure RunRow where
  runId : RunId
  taskId : TaskId
  status : RunStatus
  createdAt : Timestamp
  startedAt : Option Timestamp
  completedAt : Option Timestamp
  runJson : RunRecord
  deriving DecidableEq

structure GatewayRow where
  idempotencyKey : String
  responseJson : Option JsonObject
  createdAt : Timestamp
  deriving DecidableEq

structure ReceiptRow where
  deliveryId : String
  state : DeliveryState
  createdAt : Timestamp
  deliveredAt : Option Timestamp
  deriving DecidableEq

def TaskRow.key (r : TaskRow) : String := r.taskId.val
def StoredEvent.key (r : StoredEvent) : Uuid := r.envelope.eventId
def RunRow.key (r : RunRow) : String := r.runId.val
def ArtifactMetadata.key (r : ArtifactMetadata) : String := r.artifactId.val
def TaskRoute.key (r : TaskRoute) : String := r.taskId.val

structure Store where
  tasks : Table TaskRow.key
  /-- In the order of their sequence numbers. -/
  events : Table StoredEvent.key
  /-- The `AUTOINCREMENT` counter of the events table. -/
  lastSequence : Nat
  runs : Table RunRow.key
  artifacts : Table ArtifactMetadata.key
  gatewayRequests : Table GatewayRow.idempotencyKey
  taskRoutes : Table TaskRoute.key
  deliveryReceipts : Table ReceiptRow.deliveryId
  deriving DecidableEq

/-- `if c: raise e`. -/
def raiseIf (c : Prop) [Decidable c] (e : HubError) : Except HubError Unit :=
  if c then .error e else .ok ()

/-- `INSERT INTO`, whose key must be free. -/
def insertRow {ρ κ : Type} [DecidableEq κ] {key : ρ → κ} (operation : String) (T : Table key)
    (r : ρ) : Except HubError (Table key) :=
  match h : T.get? (key r) with
  | none => .ok (T.insert r h)
  | some _ => .error (.dataIntegrity s!"database integrity violation during {operation}")

/-- Run the body of a `for` loop over the rows, collecting what it produces. -/
def forEach {α β : Type} (body : α → Store → Except HubError (β × Store)) :
    List α → Store → Except HubError (List β × Store)
  | [], s => .ok ([], s)
  | a :: as, s => do
    let (b, s) ← body a s
    let (bs, s) ← forEach body as s
    return (b :: bs, s)

/-- The lower-case hexadecimal digits of a UUID. -/
def Uuid.hex (id : Uuid) : List Char :=
  (List.range 32).map fun i => Nat.digitChar ((id.toNat >>> (4 * (31 - i))) % 16)

/-- `str(id)`. -/
def Uuid.text (id : Uuid) : String :=
  let h := Uuid.hex id
  "-".intercalate ([h.take 8, (h.drop 8).take 4, (h.drop 12).take 4, (h.drop 16).take 4,
    h.drop 20].map String.ofList)

/-! ## Lifecycle events -/

def eventForStatus : TaskStatus → EventType
  | .pending => .taskCreated
  | .queued => .taskQueued
  | .planning => .taskStarted
  | .running => .taskStarted
  | .review => .reviewStarted
  | .qa => .qaStarted
  | .blocked => .taskBlocked
  | .completed => .taskCompleted
  | .failed => .taskFailed
  | .cancelled => .taskCancelled

/-- The types that only an atomic task operation may store. -/
def atomicTaskEventTypes : List EventType :=
  [.taskCreated, .taskQueued, .taskStarted, .reviewStarted, .qaStarted, .taskBlocked,
    .taskCompleted, .taskFailed, .taskCancelled, .agentAssigned]

def validateLifecycleEvent (task : Task) (target : TaskStatus) (event : EventEnvelope) :
    Except HubError Unit := do
  let expected := eventForStatus target
  raiseIf (event.eventType ≠ expected) (.dataIntegrity
    s!"{target.value} requires event type {expected.value}, not {event.eventType.value}")
  raiseIf (event.taskId ≠ some task.taskId)
    (.dataIntegrity "lifecycle event task_id does not match task")
  raiseIf (event.project ≠ some task.project ∨ event.team ≠ some task.team)
    (.dataIntegrity "lifecycle event project/team does not match task")
  raiseIf (event.payloadStatus ≠ some (.string target.value))
    (.dataIntegrity s!"lifecycle event payload.status must be '{target.value}'")

namespace Store

def empty : Store where
  tasks := .empty _
  events := .empty _
  lastSequence := 0
  runs := .empty _
  artifacts := .empty _
  gatewayRequests := .empty _
  taskRoutes := .empty _
  deliveryReceipts := .empty _

/-! ## Reads -/

def taskRow (s : Store) (taskId : String) : Except HubError TaskRow :=
  match s.tasks.get? taskId with
  | some row => .ok row
  | none => .error (.recordNotFound s!"task not found: {taskId}")

def getTask (s : Store) (taskId : String) : Except HubError Task :=
  (s.taskRow taskId).map TaskRow.taskJson

def eventJsonLocked (s : Store) (eventId : Uuid) : Option EventEnvelope :=
  (s.events.get? eventId).map StoredEvent.envelope

/-- The envelopes of all events that carry a task id, in sequence order. -/
def taskEvents (s : Store) (taskId : TaskId) : List EventEnvelope :=
  (s.events.rows.map StoredEvent.envelope).filter fun e => e.taskId = some taskId

def getRunLocked (s : Store) (runId : String) : Except HubError RunRecord :=
  match s.runs.get? runId with
  | some row => .ok row.runJson
  | none => .error (.recordNotFound s!"run not found: {runId}")

def getTaskRoute (s : Store) (taskId : String) : Option TaskRoute := s.taskRoutes.get? taskId

/-! ## Tasks and events -/

def appendEventLocked (operation : String) (event : EventEnvelope) (s : Store) :
    Except HubError (Bool × Store) :=
  match h : s.events.get? event.eventId with
  | some existing =>
    if existing.envelope = event then .ok (false, s)
    else .error (.idempotencyConflict
      s!"event_id was reused with different content: {Uuid.text event.eventId}")
  | none =>
    if event.taskId.any fun id => (s.tasks.get? id.val).isNone then
      .error (.dataIntegrity s!"database integrity violation during {operation}")
    else
      .ok (true, { s with
        events := s.events.insert ⟨s.lastSequence + 1, event⟩ h
        lastSequence := s.lastSequence + 1 })

/-- `UPDATE tasks SET … WHERE task_id = ? AND version = ?`. -/
def updateTask (s : Store) (taskId : String) (version : Nat) (f : TaskRow → TaskRow)
    (hf : ∀ r, (f r).key = r.key) : Store :=
  { s with tasks := s.tasks.update (fun r => r.key = taskId && r.version = version) f hf }

def createTask (task : Task) (event : EventEnvelope) (s : Store) :
    Except HubError (Task × Store) := do
  raiseIf (task.status ≠ .pending) (.dataIntegrity "new tasks must have pending status")
  validateLifecycleEvent task .pending event
  raiseIf (s.tasks.get? task.taskId.val).isSome
    (.duplicateTask s!"task already exists: {task.taskId.val}")
  let tasks ← insertRow "create task" s.tasks {
    taskId := task.taskId
    status := task.status
    project := task.project
    team := task.team
    createdAt := task.createdAt
    updatedAt := event.timestamp
    version := 1
    taskJson := task }
  let (_, s) ← appendEventLocked "create task" event { s with tasks }
  return (task, s)

/-- Atomically create, optionally route, and queue one gateway task. -/
def createQueuedTask (task : Task) (createdEvent queuedEvent : EventEnvelope)
    (route : Option TaskRoute) (s : Store) : Except HubError (Task × Store) := do
  raiseIf (task.status ≠ .pending) (.dataIntegrity "new tasks must have pending status")
  validateLifecycleEvent task .pending createdEvent
  validateLifecycleEvent task .queued queuedEvent
  raiseIf (queuedEvent.timestamp < createdEvent.timestamp)
    (.dataIntegrity "queued event must not precede created event")
  raiseIf (route.any fun r => r.taskId ≠ task.taskId)
    (.dataIntegrity "task route does not match created task")
  let queued ← AIHub.transitionTask task .queued queuedEvent.timestamp
  raiseIf (s.tasks.get? task.taskId.val).isSome
    (.duplicateTask s!"task already exists: {task.taskId.val}")
  let tasks ← insertRow "create queued task" s.tasks {
    taskId := task.taskId
    status := task.status
    project := task.project
    team := task.team
    createdAt := task.createdAt
    updatedAt := createdEvent.timestamp
    version := 1
    taskJson := task }
  let (_, s) ← appendEventLocked "create queued task" createdEvent { s with tasks }
  let taskRoutes ← match route with
    | some r => insertRow "create queued task" s.taskRoutes r
    | none => pure s.taskRoutes
  let s := { s with taskRoutes }.updateTask queued.taskId.val 1
    (fun r => { r with
      status := queued.status
      updatedAt := queuedEvent.timestamp
      version := 2
      taskJson := queued })
    fun _ => rfl
  let (_, s) ← appendEventLocked "create queued task" queuedEvent s
  return (queued, s)

def transitionTask (taskId : String) (target : TaskStatus) (event : EventEnvelope) (s : Store) :
    Except HubError (Task × Store) := do
  let row ← s.taskRow taskId
  let current := row.taskJson
  validateLifecycleEvent current target event
  match s.eventJsonLocked event.eventId with
  | some existing =>
    raiseIf (existing ≠ event) (.idempotencyConflict
      s!"event_id was reused with different content: {Uuid.text event.eventId}")
    return (current, s)
  | none =>
    let updated ← AIHub.transitionTask current target event.timestamp
    let s := s.updateTask taskId row.version
      (fun r => { r with
        status := updated.status
        updatedAt := event.timestamp
        version := row.version + 1
        taskJson := updated })
      fun _ => rfl
    let (_, s) ← appendEventLocked "transition task" event s
    return (updated, s)

/-- Assign one agent and append `agent.assigned` in the same transaction. -/
def assignTask (taskId : String) (agent : Identifier) (event : EventEnvelope) (s : Store) :
    Except HubError (Task × Store) := do
  let row ← s.taskRow taskId
  let current := row.taskJson
  raiseIf (event.eventType ≠ .agentAssigned)
    (.dataIntegrity "task assignment requires event type agent.assigned")
  raiseIf (event.taskId ≠ some current.taskId ∨ event.agent ≠ some agent)
    (.dataIntegrity "assignment event task_id/agent does not match assignment")
  raiseIf (event.project ≠ some current.project ∨ event.team ≠ some current.team)
    (.dataIntegrity "assignment event project/team does not match task")
  match s.eventJsonLocked event.eventId with
  | some existing =>
    raiseIf (existing ≠ event) (.idempotencyConflict
      s!"event_id was reused with different content: {Uuid.text event.eventId}")
    return (current, s)
  | none =>
    raiseIf (event.payloadStatus ≠ some (.string current.status.value))
      (.dataIntegrity s!"assignment event payload.status must be '{current.status.value}'")
    raiseIf (agent ∈ current.assignedAgents)
      (.dataIntegrity s!"agent is already assigned to task: {agent.val}")
    let updated ← Task.modelValidate
      { current.toTaskFields with assignedAgents := current.assignedAgents ++ [agent] }
    let s := s.updateTask taskId row.version
      (fun r => { r with
        updatedAt := event.timestamp
        version := row.version + 1
        taskJson := updated })
      fun _ => rfl
    let (_, s) ← appendEventLocked "assign task" event s
    return (updated, s)

def cancelTask (taskId : String) (event : EventEnvelope) (s : Store) :
    Except HubError (Task × Store) :=
  transitionTask taskId .cancelled event s

def appendEvent (event : EventEnvelope) (s : Store) : Except HubError (Bool × Store) := do
  raiseIf (event.eventType ∈ atomicTaskEventTypes) (.dataIntegrity
    s!"{event.eventType.value} must be appended through an atomic task operation")
  appendEventLocked "append event" event s

/-! ## Runs and artifacts -/

def RunRow.ofRecord (run : RunRecord) : RunRow where
  runId := run.runId
  taskId := run.taskId
  status := run.status
  createdAt := run.createdAt
  startedAt := run.startedAt
  completedAt := run.completedAt
  runJson := run

/-- `UPDATE runs SET … WHERE run_id = ?`. -/
def writeRunLocked (s : Store) (run : RunRecord) : Store :=
  { s with
    runs := s.runs.update (fun r => r.key = run.runId.val)
      (fun r => { r with
        status := run.status
        startedAt := run.startedAt
        completedAt := run.completedAt
        runJson := run })
      fun _ => rfl }

def createRun (run : RunRecord) (s : Store) : Except HubError (RunRecord × Store) := do
  raiseIf (s.runs.get? run.runId.val).isSome
    (.duplicateRun s!"run already exists: {run.runId.val}")
  raiseIf (s.tasks.get? run.taskId.val).isNone
    (.recordNotFound s!"task not found: {run.taskId.val}")
  let runs ← insertRow "create run" s.runs (RunRow.ofRecord run)
  return (run, { s with runs })

def startRun (runId : String) (time : Timestamp) (s : Store) :
    Except HubError (RunRecord × Store) := do
  let current ← s.getRunLocked runId
  raiseIf (current.status ≠ .queued) (.dataIntegrity s!"run is not queued: {runId}")
  let updated ← RunRecord.modelValidate
    { current.toRunFields with status := .running, startedAt := some time }
  return (updated, s.writeRunLocked updated)

def finishRun (runId : String) (status : RunStatus) (time : Timestamp) (exitCode : Option Int)
    (errorCode : Option Identifier) (s : Store) : Except HubError (RunRecord × Store) := do
  raiseIf (¬ status.isTerminal) (.value "finish status must be terminal")
  let current ← s.getRunLocked runId
  raiseIf (current.status ≠ .queued ∧ current.status ≠ .running)
    (.dataIntegrity s!"run is not active: {runId}")
  let updated ← RunRecord.modelValidate
    { current.toRunFields with
      status := status
      startedAt := some (current.startedAt.getD current.createdAt)
      completedAt := some time
      exitCode := exitCode
      errorCode := errorCode }
  return (updated, s.writeRunLocked updated)

def createArtifact (artifact : ArtifactMetadata) (s : Store) :
    Except HubError (ArtifactMetadata × Store) := do
  raiseIf (s.artifacts.get? artifact.artifactId.val).isSome
    (.duplicateArtifact s!"artifact already exists: {artifact.artifactId.val}")
  raiseIf (s.tasks.get? artifact.taskId.val).isNone
    (.recordNotFound s!"task not found: {artifact.taskId.val}")
  raiseIf (artifact.runId.any fun id =>
      !((s.runs.get? id.val).any fun row => row.taskId = artifact.taskId))
    (.dataIntegrity "artifact run must exist and belong to the same task")
  let artifacts ← insertRow "create artifact" s.artifacts artifact
  return (artifact, { s with artifacts })

/-! ## Gateway requests -/

def reserveGatewayRequest (idempotencyKey : String) (time : Timestamp) (s : Store) :
    Except HubError (Bool × Store) := do
  let record ← GatewayRequestRecord.validate idempotencyKey none time
  match h : s.gatewayRequests.get? record.idempotencyKey.val with
  | some _ => return (false, s)
  | none => return (true, { s with
      gatewayRequests :=
        s.gatewayRequests.insert ⟨record.idempotencyKey.val, none, record.createdAt⟩ h })

def getGatewayRequest (s : Store) (idempotencyKey : String) (time : Timestamp) :
    Except HubError (Option GatewayRequestRecord) := do
  let key ← GatewayRequestRecord.validate idempotencyKey none time
  match s.gatewayRequests.get? key.idempotencyKey.val with
  | none => return none
  | some row =>
    match GatewayRequestRecord.validate row.idempotencyKey row.responseJson row.createdAt with
    | .ok record => return some record
    | .error _ => throw (.dataIntegrity "persisted gateway request is invalid")

/-- The lookup is by the key as it is given, the other operations normalise it first. -/
def rememberGatewayResponse (idempotencyKey : String) (response : JsonObject) (time : Timestamp)
    (s : Store) : Except HubError (GatewayRequestRecord × Store) := do
  let _ ← GatewayRequestRecord.validate idempotencyKey (some response) time
  match s.gatewayRequests.get? idempotencyKey with
  | none => throw (.recordNotFound s!"gateway request reservation not found: {idempotencyKey}")
  | some row =>
    raiseIf (row.responseJson.any (· ≠ response)) (.idempotencyConflict
      s!"gateway request response already differs: {idempotencyKey}")
    let record ← GatewayRequestRecord.validate idempotencyKey (some response) row.createdAt
    return (record, { s with
      gatewayRequests := s.gatewayRequests.update
        (fun r => r.idempotencyKey = idempotencyKey && r.responseJson.isNone)
        (fun r => { r with responseJson := some response }) fun _ => rfl })

def releaseGatewayRequest (idempotencyKey : String) (time : Timestamp) (s : Store) :
    Except HubError (Bool × Store) := do
  let key ← GatewayRequestRecord.validate idempotencyKey none time
  match s.gatewayRequests.get? key.idempotencyKey.val with
  | none => return (false, s)
  | some row =>
    raiseIf row.responseJson.isSome
      (.dataIntegrity "cannot release a gateway request with a durable response")
    return (true, { s with
      gatewayRequests :=
        s.gatewayRequests.delete fun r => r.idempotencyKey = key.idempotencyKey.val })

/-- Release only reservations that never stored a replayable response. -/
def reconcileIncompleteGatewayRequests (s : Store) : Except HubError (List String × Store) :=
  let keys := ((s.gatewayRequests.rows.filter fun r => r.responseJson.isNone).map
    GatewayRow.idempotencyKey).insertionSort (· ≤ ·)
  .ok (keys, { s with gatewayRequests := s.gatewayRequests.delete fun r => r.responseJson.isNone })

/-! ## Routes and delivery receipts -/

/-- The arguments are the route they validate to. -/
def saveTaskRoute (route : TaskRoute) (s : Store) : Except HubError (TaskRoute × Store) := do
  raiseIf (s.tasks.get? route.taskId.val).isNone
    (.recordNotFound s!"task not found: {route.taskId.val}")
  match h : s.taskRoutes.get? route.key with
  | some row =>
    raiseIf (row.source ≠ route.source ∨ row.target ≠ route.target) (.idempotencyConflict
      s!"task route already differs for task: {route.taskId.val}")
    return (route, s)
  | none => return (route, { s with taskRoutes := s.taskRoutes.insert route h })

def reserveDelivery (deliveryId : String) (time : Timestamp) (s : Store) :
    Except HubError (Bool × Store) := do
  let key ← RouteValue.validate "delivery_id" deliveryId
  match h : s.deliveryReceipts.get? key.val with
  | some _ => return (false, s)
  | none => return (true, { s with
      deliveryReceipts := s.deliveryReceipts.insert ⟨key.val, .reserved, time, none⟩ h })

def getDeliveryReceipt (s : Store) (deliveryId : String) :
    Except HubError (Option ReceiptRow) := do
  let key ← RouteValue.validate "delivery_id" deliveryId
  return s.deliveryReceipts.get? key.val

def isDeliveryDelivered (s : Store) (deliveryId : String) : Except HubError Bool := do
  let receipt ← s.getDeliveryReceipt deliveryId
  return receipt.any fun r => r.state = .delivered

def markDeliveryDelivered (deliveryId : String) (time : Timestamp) (s : Store) :
    Except HubError (DeliveryReceipt × Store) := do
  let key ← RouteValue.validate "delivery_id" deliveryId
  match s.deliveryReceipts.get? key.val with
  | none => throw (.recordNotFound s!"delivery reservation not found: {key.val}")
  | some row =>
    if row.state = .delivered then
      let receipt ← DeliveryReceipt.validateState ⟨key, row.state, row.createdAt, row.deliveredAt⟩
      return (receipt, s)
    else
      let receipt ← DeliveryReceipt.validateState ⟨key, .delivered, row.createdAt, some time⟩
      return (receipt, { s with
        deliveryReceipts := s.deliveryReceipts.update (fun r => r.deliveryId = key.val)
          (fun r => { r with state := .delivered, deliveredAt := some time }) fun _ => rfl })

def releaseDelivery (deliveryId : String) (s : Store) : Except HubError (Bool × Store) := do
  let key ← RouteValue.validate "delivery_id" deliveryId
  match s.deliveryReceipts.get? key.val with
  | none => return (false, s)
  | some row =>
    raiseIf (row.state = .delivered) (.dataIntegrity "cannot release a delivered receipt")
    return (true, { s with
      deliveryReceipts := s.deliveryReceipts.delete fun r => r.deliveryId = key.val })

/-- Release only incomplete delivery reservations after a process restart. -/
def reconcileReservedDeliveries (s : Store) : Except HubError (List String × Store) :=
  let ids := ((s.deliveryReceipts.rows.filter fun r => r.state = .reserved).map
    ReceiptRow.deliveryId).insertionSort (· ≤ ·)
  .ok (ids, { s with
    deliveryReceipts := s.deliveryReceipts.delete fun r => r.state = .reserved })

/-! ## Restart reconciliation -/

def processRestart : Identifier := ⟨"process-restart", by decide⟩

def interruptedMessage : EventMessage :=
  ⟨"Task execution was interrupted by a process restart.", by decide⟩

/-- The loop body over the active runs. -/
def interruptRun (time : Timestamp) (row : RunRow) (s : Store) :
    Except HubError (RunRecord × Store) := do
  let current := row.runJson
  let interrupted ← RunRecord.modelValidate
    { current.toRunFields with
      status := .interrupted
      startedAt := some (current.startedAt.getD current.createdAt)
      completedAt := some time
      errorCode := some processRestart }
  return (interrupted, s.writeRunLocked interrupted)

/-- The event that records the interruption of a task; `eventId` is a fresh `uuid4`. -/
def interruptionEvent (time : Timestamp) (eventId : Uuid) (task : Task) : EventFields where
  eventId := eventId
  eventType := .taskBlocked
  timestamp := time
  taskId := some task.taskId
  project := some task.project
  team := some task.team
  level := .warning
  message := some interruptedMessage
  payload := [("reason", .string "process-restart"), ("status", .string "blocked")]

/-- The loop body over the planning and running tasks. -/
def blockInterruptedTask (time : Timestamp) (uuid4 : TaskId → Uuid) (row : TaskRow) (s : Store) :
    Except HubError ((Task × StoredEvent) × Store) := do
  let current := row.taskJson
  let event ← EventEnvelope.modelValidate
    (interruptionEvent time (uuid4 current.taskId) current)
  let blocked ← AIHub.transitionTask current .blocked time
  let s := s.updateTask blocked.taskId.val row.version
    (fun r => { r with
      status := blocked.status
      updatedAt := time
      version := row.version + 1
      taskJson := blocked })
    fun _ => rfl
  let (_, s) ← appendEventLocked "reconcile interrupted work" event s
  match s.events.get? event.eventId with
  | some stored => return ((blocked, ⟨stored.sequence, event⟩), s)
  | none => throw (.unavailable "database unavailable during reconcile interrupted work")

structure ReconciliationResult where
  interruptedRuns : List RunRecord := []
  blockedTasks : List Task := []
  emittedEvents : List StoredEvent := []
  deriving DecidableEq

/-- `SELECT … FROM runs WHERE status IN ('queued', 'running') ORDER BY run_id`. -/
def activeRuns (s : Store) : List RunRow :=
  (s.runs.rows.filter fun r => r.status = .queued ∨ r.status = .running).insertionSort
    (·.key ≤ ·.key)

/-- `SELECT … FROM tasks WHERE status IN ('planning', 'running') ORDER BY task_id`. -/
def interruptedTasks (s : Store) : List TaskRow :=
  (s.tasks.rows.filter fun r => r.status = .planning ∨ r.status = .running).insertionSort
    (·.key ≤ ·.key)

def reconcileInterruptedRunning (time : Timestamp) (uuid4 : TaskId → Uuid) (s : Store) :
    Except HubError (ReconciliationResult × Store) := do
  let (runs, s) ← forEach (interruptRun time) s.activeRuns s
  let (blocked, s) ← forEach (blockInterruptedTask time uuid4) s.interruptedTasks s
  return (⟨runs, blocked.map Prod.fst, blocked.map Prod.snd⟩, s)

end Store

/-! ## Write operations -/

/-- A call of one of the store's write operations. -/
inductive WriteOp where
  | createTask (task : Task) (event : EventEnvelope)
  | createQueuedTask (task : Task) (createdEvent queuedEvent : EventEnvelope)
      (route : Option TaskRoute)
  | transitionTask (taskId : String) (target : TaskStatus) (event : EventEnvelope)
  | assignTask (taskId : String) (agent : Identifier) (event : EventEnvelope)
  | cancelTask (taskId : String) (event : EventEnvelope)
  | appendEvent (event : EventEnvelope)
  | createRun (run : RunRecord)
  | startRun (runId : String) (time : Timestamp)
  | finishRun (runId : String) (status : RunStatus) (time : Timestamp) (exitCode : Option Int)
      (errorCode : Option Identifier)
  | createArtifact (artifact : ArtifactMetadata)
  | reserveGatewayRequest (idempotencyKey : String) (time : Timestamp)
  | rememberGatewayResponse (idempotencyKey : String) (response : JsonObject) (time : Timestamp)
  | releaseGatewayRequest (idempotencyKey : String) (time : Timestamp)
  | reconcileIncompleteGatewayRequests
  | saveTaskRoute (route : TaskRoute)
  | reserveDelivery (deliveryId : String) (time : Timestamp)
  | markDeliveryDelivered (deliveryId : String) (time : Timestamp)
  | releaseDelivery (deliveryId : String)
  | reconcileReservedDeliveries
  | reconcileInterruptedRunning (time : Timestamp) (uuid4 : TaskId → Uuid)

/-- The store after a call that commits; a call that raises leaves no store. -/
def WriteOp.exec : WriteOp → Store → Except HubError Store
  | createTask task event, s => (Store.createTask task event s).map Prod.snd
  | createQueuedTask task created queued route, s =>
    (Store.createQueuedTask task created queued route s).map Prod.snd
  | transitionTask taskId target event, s =>
    (Store.transitionTask taskId target event s).map Prod.snd
  | assignTask taskId agent event, s => (Store.assignTask taskId agent event s).map Prod.snd
  | cancelTask taskId event, s => (Store.cancelTask taskId event s).map Prod.snd
  | appendEvent event, s => (Store.appendEvent event s).map Prod.snd
  | createRun run, s => (Store.createRun run s).map Prod.snd
  | startRun runId time, s => (Store.startRun runId time s).map Prod.snd
  | finishRun runId status time exitCode errorCode, s =>
    (Store.finishRun runId status time exitCode errorCode s).map Prod.snd
  | createArtifact artifact, s => (Store.createArtifact artifact s).map Prod.snd
  | reserveGatewayRequest key time, s => (Store.reserveGatewayRequest key time s).map Prod.snd
  | rememberGatewayResponse key response time, s =>
    (Store.rememberGatewayResponse key response time s).map Prod.snd
  | releaseGatewayRequest key time, s => (Store.releaseGatewayRequest key time s).map Prod.snd
  | reconcileIncompleteGatewayRequests, s => s.reconcileIncompleteGatewayRequests.map Prod.snd
  | saveTaskRoute route, s => (Store.saveTaskRoute route s).map Prod.snd
  | reserveDelivery id time, s => (Store.reserveDelivery id time s).map Prod.snd
  | markDeliveryDelivered id time, s => (Store.markDeliveryDelivered id time s).map Prod.snd
  | releaseDelivery id, s => (Store.releaseDelivery id s).map Prod.snd
  | reconcileReservedDeliveries, s => s.reconcileReservedDeliveries.map Prod.snd
  | reconcileInterruptedRunning time uuid4, s =>
    (Store.reconcileInterruptedRunning time uuid4 s).map Prod.snd

end AIHub
