import AIHub.Lib.Transaction
import AIHub.Storage.Retry

/-!
# The statements of the write operations

`Store` says what a write operation does as a whole. Here each one is what the code runs: what it
validates before it begins a transaction, and the block of statements inside, in their order, with
the checks between them.

* `WriteOp.transaction`: the operation as its block of statements.
* `transaction_result`: when nothing interrupts it, the block does what `WriteOp.call` says.
-/

namespace AIHub

open Transaction Transaction.Block

/-! ## Exceptions -/

/-- What `sqlite_errorcode` tells `_database_error`. -/
inductive SqliteCode where
  | corrupt | busy | other
  deriving DecidableEq

/-- What can be raised between `BEGIN` and `COMMIT`. -/
inductive DbException where
  /-- A `StorageError`, or another `Exception`. -/
  | hub (e : HubError)
  | integrityError
  | sqliteError (code : SqliteCode)
  /-- A `BaseException` that is no `Exception`, such as a `KeyboardInterrupt`. -/
  | interrupt
  deriving DecidableEq

def databaseError (code : SqliteCode) (operation : String) : HubError :=
  match code with
  | .corrupt => .unavailable s!"database is corrupt during {operation}"
  | .busy => .unavailable s!"database remained busy during {operation}"
  | .other => .unavailable s!"database unavailable during {operation}"

/-- The `except` clauses of `_transaction`. -/
def transactionHandlers (operation : String) : Handlers DbException where
  handle
    | .hub e => some (.hub e)
    | .integrityError => some (.hub (.dataIntegrity
      s!"database integrity violation during {operation}"))
    | .sqliteError code => some (.hub (databaseError code operation))
    | .interrupt => none
  nested := .sqliteError .other

/-! ## Statements -/

abbrev Statements := Block Store DbException

/-- `with self._transaction(operation)` around a block. -/
structure WriteTransaction (α : Type) where
  operation : String
  block : Statements α

namespace Statements

/-- A validation that raises if it fails. -/
def validated {α : Type} (x : Except HubError α) : Statements α :=
  ofExcept (x.mapError DbException.hub)

/-- `if c: raise e`. -/
def check (c : Prop) [Decidable c] (e : HubError) : Statements Unit := validated (raiseIf c e)

/-- `INSERT INTO`, whose key must be free. -/
def tryInsert {ρ κ : Type} [DecidableEq κ] {key : ρ → κ} (T : Table key) (r : ρ) :
    Except DbException (Table key) :=
  match h : T.get? (key r) with
  | none => .ok (T.insert r h)
  | some _ => .error .integrityError

def insertTask (row : TaskRow) : Statements Unit :=
  execute fun s => (tryInsert s.tasks row).map fun tasks => { s with tasks }

def insertRoute (route : TaskRoute) : Statements Unit :=
  execute fun s => (tryInsert s.taskRoutes route).map fun taskRoutes => { s with taskRoutes }

/-- `INSERT INTO events`, whose foreign key must be known. -/
def insertEvent (event : EventEnvelope) : Statements Unit :=
  execute fun s =>
    if event.taskId.any fun id => (s.tasks.get? id.val).isNone then .error .integrityError
    else (tryInsert s.events ⟨s.lastSequence + 1, event⟩).map fun events =>
      { s with events, lastSequence := s.lastSequence + 1 }

def insertRun (run : RunRecord) : Statements Unit :=
  execute fun s => (tryInsert s.runs (Store.RunRow.ofRecord run)).map fun runs => { s with runs }

def insertArtifact (artifact : ArtifactMetadata) : Statements Unit :=
  execute fun s => (tryInsert s.artifacts artifact).map fun artifacts => { s with artifacts }

def insertGatewayRequest (row : GatewayRow) : Statements Unit :=
  execute fun s => (tryInsert s.gatewayRequests row).map fun gatewayRequests =>
    { s with gatewayRequests }

def insertDeliveryReceipt (row : ReceiptRow) : Statements Unit :=
  execute fun s => (tryInsert s.deliveryReceipts row).map fun deliveryReceipts =>
    { s with deliveryReceipts }

/-- An `UPDATE` or a `DELETE`. -/
def write (f : Store → Store) : Statements Unit := execute fun s => .ok (f s)

/-- `SET status = ?, updated_at = ?, version = ?, task_json = ?`. -/
def moveRow (status : TaskStatus) (updatedAt : Timestamp) (version : Nat) (taskJson : Task) :
    TaskRow → TaskRow := fun r =>
  { r with status, updatedAt, version, taskJson }

/-- `SET updated_at = ?, version = ?, task_json = ?`. -/
def assignRow (updatedAt : Timestamp) (version : Nat) (taskJson : Task) : TaskRow → TaskRow :=
  fun r => { r with updatedAt, version, taskJson }

/-- `SET response_json = ?`. -/
def answerRow (response : JsonObject) : GatewayRow → GatewayRow := fun r =>
  { r with responseJson := some response }

/-- `SET state = 'delivered', delivered_at = ?`. -/
def deliverRow (time : Timestamp) : ReceiptRow → ReceiptRow := fun r =>
  { r with state := .delivered, deliveredAt := some time }

def taskRow (taskId : String) : Statements TaskRow := do
  let row ← select fun s => s.tasks.get? taskId
  match row with
  | some row => return row
  | none => validated (.error (.recordNotFound s!"task not found: {taskId}"))

def getRunLocked (runId : String) : Statements RunRecord := do
  let row ← select fun s => s.runs.get? runId
  match row with
  | some row => return row.runJson
  | none => validated (.error (.recordNotFound s!"run not found: {runId}"))

def eventJsonLocked (eventId : Uuid) : Statements (Option EventEnvelope) :=
  select fun s => s.eventJsonLocked eventId

def appendEventLocked (event : EventEnvelope) : Statements Bool := do
  let existing ← eventJsonLocked event.eventId
  match existing with
  | some existing =>
    check (existing ≠ event) (.idempotencyConflict
      s!"event_id was reused with different content: {Uuid.text event.eventId}")
    return false
  | none =>
    insertEvent event
    return true

end Statements

open Statements

/-! ## Transactions -/

namespace WriteTransaction

def map {α β : Type} (f : α → β) (t : WriteTransaction α) : WriteTransaction β where
  operation := t.operation
  block := do
    let a ← t.block
    return f a

def createTask (task : Task) (event : EventEnvelope) :
    Except HubError (WriteTransaction Task) := do
  raiseIf (task.status ≠ .pending) (.dataIntegrity "new tasks must have pending status")
  validateLifecycleEvent task .pending event
  return ⟨"create task", do
    let existing ← select fun s => s.tasks.get? task.taskId.val
    check existing.isSome (.duplicateTask s!"task already exists: {task.taskId.val}")
    insertTask {
      taskId := task.taskId
      status := task.status
      project := task.project
      team := task.team
      createdAt := task.createdAt
      updatedAt := event.timestamp
      version := 1
      taskJson := task }
    let _ ← appendEventLocked event
    return task⟩

def createQueuedTask (task : Task) (createdEvent queuedEvent : EventEnvelope)
    (route : Option TaskRoute) : Except HubError (WriteTransaction Task) := do
  raiseIf (task.status ≠ .pending) (.dataIntegrity "new tasks must have pending status")
  validateLifecycleEvent task .pending createdEvent
  validateLifecycleEvent task .queued queuedEvent
  raiseIf (queuedEvent.timestamp < createdEvent.timestamp)
    (.dataIntegrity "queued event must not precede created event")
  raiseIf (route.any fun r => r.taskId ≠ task.taskId)
    (.dataIntegrity "task route does not match created task")
  let queued ← AIHub.transitionTask task .queued queuedEvent.timestamp
  return ⟨"create queued task", do
    let existing ← select fun s => s.tasks.get? task.taskId.val
    check existing.isSome (.duplicateTask s!"task already exists: {task.taskId.val}")
    insertTask {
      taskId := task.taskId
      status := task.status
      project := task.project
      team := task.team
      createdAt := task.createdAt
      updatedAt := createdEvent.timestamp
      version := 1
      taskJson := task }
    let _ ← appendEventLocked createdEvent
    match route with
    | some r => insertRoute r
    | none => pure ()
    write fun s => s.updateTask queued.taskId.val 1
      (moveRow queued.status queuedEvent.timestamp 2 queued) fun _ => rfl
    let _ ← appendEventLocked queuedEvent
    return queued⟩

def transitionTask (taskId : String) (target : TaskStatus) (event : EventEnvelope) :
    WriteTransaction Task := ⟨"transition task", do
  let row ← taskRow taskId
  let current := row.taskJson
  validated (validateLifecycleEvent current target event)
  let existing ← eventJsonLocked event.eventId
  match existing with
  | some existing =>
    check (existing ≠ event) (.idempotencyConflict
      s!"event_id was reused with different content: {Uuid.text event.eventId}")
    return current
  | none =>
    let updated ← validated (AIHub.transitionTask current target event.timestamp)
    write fun s => s.updateTask taskId row.version
      (moveRow updated.status event.timestamp (row.version + 1) updated) fun _ => rfl
    let _ ← appendEventLocked event
    return updated⟩

def assignTask (taskId : String) (agent : Identifier) (event : EventEnvelope) :
    WriteTransaction Task := ⟨"assign task", do
  let row ← taskRow taskId
  let current := row.taskJson
  check (event.eventType ≠ .agentAssigned)
    (.dataIntegrity "task assignment requires event type agent.assigned")
  check (event.taskId ≠ some current.taskId ∨ event.agent ≠ some agent)
    (.dataIntegrity "assignment event task_id/agent does not match assignment")
  check (event.project ≠ some current.project ∨ event.team ≠ some current.team)
    (.dataIntegrity "assignment event project/team does not match task")
  let existing ← eventJsonLocked event.eventId
  match existing with
  | some existing =>
    check (existing ≠ event) (.idempotencyConflict
      s!"event_id was reused with different content: {Uuid.text event.eventId}")
    return current
  | none =>
    check (event.payloadStatus ≠ some (.string current.status.value))
      (.dataIntegrity s!"assignment event payload.status must be '{current.status.value}'")
    check (current.assignedAgents.contains agent)
      (.dataIntegrity s!"agent is already assigned to task: {agent.val}")
    let updated ← validated (Task.modelValidate
      { current.toTaskFields with assignedAgents := current.assignedAgents ++ [agent] })
    write fun s => s.updateTask taskId row.version
      (assignRow event.timestamp (row.version + 1) updated) fun _ => rfl
    let _ ← appendEventLocked event
    return updated⟩

def cancelTask (taskId : String) (event : EventEnvelope) : WriteTransaction Task :=
  transitionTask taskId .cancelled event

def appendEvent (event : EventEnvelope) : Except HubError (WriteTransaction Bool) := do
  raiseIf (event.eventType ∈ atomicTaskEventTypes) (.dataIntegrity
    s!"{event.eventType.value} must be appended through an atomic task operation")
  return ⟨"append event", appendEventLocked event⟩

def createRun (run : RunRecord) : WriteTransaction RunRecord := ⟨"create run", do
  let existing ← select fun s => s.runs.get? run.runId.val
  check existing.isSome (.duplicateRun s!"run already exists: {run.runId.val}")
  let task ← select fun s => s.tasks.get? run.taskId.val
  check task.isNone (.recordNotFound s!"task not found: {run.taskId.val}")
  insertRun run
  return run⟩

def startRun (runId : String) (time : Timestamp) : WriteTransaction RunRecord := ⟨"start run", do
  let current ← getRunLocked runId
  check (current.status ≠ .queued) (.dataIntegrity s!"run is not queued: {runId}")
  let updated ← validated (RunRecord.modelValidate
    { current.toRunFields with status := .running, startedAt := some time })
  write fun s => s.writeRunLocked updated
  return updated⟩

def finishRun (runId : String) (status : RunStatus) (time : Timestamp) (exitCode : Option Int)
    (errorCode : Option Identifier) : Except HubError (WriteTransaction RunRecord) := do
  raiseIf (¬ status.isTerminal) (.value "finish status must be terminal")
  return ⟨"finish run", do
    let current ← getRunLocked runId
    check (current.status ≠ .queued ∧ current.status ≠ .running)
      (.dataIntegrity s!"run is not active: {runId}")
    let updated ← validated (RunRecord.modelValidate
      { current.toRunFields with
        status := status
        startedAt := some (current.startedAt.getD current.createdAt)
        completedAt := some time
        exitCode := exitCode
        errorCode := errorCode })
    write fun s => s.writeRunLocked updated
    return updated⟩

def createArtifact (artifact : ArtifactMetadata) : WriteTransaction ArtifactMetadata :=
  ⟨"create artifact", do
    let existing ← select fun s => s.artifacts.get? artifact.artifactId.val
    check existing.isSome
      (.duplicateArtifact s!"artifact already exists: {artifact.artifactId.val}")
    let task ← select fun s => s.tasks.get? artifact.taskId.val
    check task.isNone (.recordNotFound s!"task not found: {artifact.taskId.val}")
    match artifact.runId with
    | some runId =>
      let run ← select fun s => s.runs.get? runId.val
      check (!run.any fun row => row.taskId = artifact.taskId)
        (.dataIntegrity "artifact run must exist and belong to the same task")
    | none => pure ()
    insertArtifact artifact
    return artifact⟩

def reserveGatewayRequest (idempotencyKey : String) (time : Timestamp) :
    Except HubError (WriteTransaction Bool) := do
  let record ← GatewayRequestRecord.validate idempotencyKey none time
  return ⟨"reserve gateway request", do
    let existing ← select fun s => s.gatewayRequests.get? record.idempotencyKey.val
    match existing with
    | some _ => return false
    | none =>
      insertGatewayRequest ⟨record.idempotencyKey.val, none, record.createdAt⟩
      return true⟩

def rememberGatewayResponse (idempotencyKey : String) (response : JsonObject)
    (time : Timestamp) : Except HubError (WriteTransaction GatewayRequestRecord) := do
  let _ ← GatewayRequestRecord.validate idempotencyKey (some response) time
  return ⟨"remember gateway response", do
    let row ← select fun s => s.gatewayRequests.get? idempotencyKey
    match row with
    | none => validated (.error (.recordNotFound
        s!"gateway request reservation not found: {idempotencyKey}"))
    | some row =>
      check (row.responseJson.any (· ≠ response)) (.idempotencyConflict
        s!"gateway request response already differs: {idempotencyKey}")
      if row.responseJson.isNone then
        write fun s => { s with
          gatewayRequests := s.gatewayRequests.update (fun r => r.idempotencyKey = idempotencyKey)
            (answerRow response) fun _ => rfl }
      validated (GatewayRequestRecord.validate idempotencyKey (some response) row.createdAt)⟩

def releaseGatewayRequest (idempotencyKey : String) (time : Timestamp) :
    Except HubError (WriteTransaction Bool) := do
  let key ← GatewayRequestRecord.validate idempotencyKey none time
  return ⟨"release gateway request", do
    let row ← select fun s => s.gatewayRequests.get? key.idempotencyKey.val
    match row with
    | none => return false
    | some row =>
      check row.responseJson.isSome
        (.dataIntegrity "cannot release a gateway request with a durable response")
      write fun s => { s with
        gatewayRequests :=
          s.gatewayRequests.delete fun r => r.idempotencyKey = key.idempotencyKey.val }
      return true⟩

def reconcileIncompleteGatewayRequests : WriteTransaction (List String) :=
  ⟨"reconcile incomplete gateway requests", do
    let keys ← select fun s => ((s.gatewayRequests.rows.filter fun r => r.responseJson.isNone).map
      GatewayRow.idempotencyKey).insertionSort (· ≤ ·)
    write fun s =>
      { s with gatewayRequests := s.gatewayRequests.delete fun r => r.responseJson.isNone }
    return keys⟩

def saveTaskRoute (route : TaskRoute) : WriteTransaction TaskRoute := ⟨"save task route", do
  let task ← select fun s => s.tasks.get? route.taskId.val
  check task.isNone (.recordNotFound s!"task not found: {route.taskId.val}")
  let row ← select fun s => s.taskRoutes.get? route.key
  match row with
  | some row =>
    check (row.source ≠ route.source ∨ row.target ≠ route.target) (.idempotencyConflict
      s!"task route already differs for task: {route.taskId.val}")
    return route
  | none =>
    insertRoute route
    return route⟩

def reserveDelivery (deliveryId : String) (time : Timestamp) :
    Except HubError (WriteTransaction Bool) := do
  let key ← RouteValue.validate "delivery_id" deliveryId
  return ⟨"reserve delivery", do
    let existing ← select fun s => s.deliveryReceipts.get? key.val
    match existing with
    | some _ => return false
    | none =>
      insertDeliveryReceipt ⟨key.val, .reserved, time, none⟩
      return true⟩

def markDeliveryDelivered (deliveryId : String) (time : Timestamp) :
    Except HubError (WriteTransaction DeliveryReceipt) := do
  let key ← RouteValue.validate "delivery_id" deliveryId
  return ⟨"mark delivery delivered", do
    let row ← select fun s => s.deliveryReceipts.get? key.val
    match row with
    | none => validated (.error (.recordNotFound s!"delivery reservation not found: {key.val}"))
    | some row =>
      if row.state = .delivered then
        validated (DeliveryReceipt.validateState
          ⟨key, row.state, row.createdAt, row.deliveredAt⟩)
      else do
        let receipt ← validated (DeliveryReceipt.validateState
          ⟨key, .delivered, row.createdAt, some time⟩)
        write fun s => { s with
          deliveryReceipts := s.deliveryReceipts.update (fun r => r.deliveryId = key.val)
            (deliverRow time) fun _ => rfl }
        return receipt⟩

def releaseDelivery (deliveryId : String) : Except HubError (WriteTransaction Bool) := do
  let key ← RouteValue.validate "delivery_id" deliveryId
  return ⟨"release delivery", do
    let row ← select fun s => s.deliveryReceipts.get? key.val
    match row with
    | none => return false
    | some row =>
      check (row.state = .delivered) (.dataIntegrity "cannot release a delivered receipt")
      write fun s => { s with
        deliveryReceipts := s.deliveryReceipts.delete fun r => r.deliveryId = key.val }
      return true⟩

def reconcileReservedDeliveries : WriteTransaction (List String) :=
  ⟨"reconcile reserved deliveries", do
    let ids ← select fun s => ((s.deliveryReceipts.rows.filter fun r => r.state = .reserved).map
      ReceiptRow.deliveryId).insertionSort (· ≤ ·)
    write fun s =>
      { s with deliveryReceipts := s.deliveryReceipts.delete fun r => r.state = .reserved }
    return ids⟩

/-- The loop body over the active runs. -/
def interruptRun (time : Timestamp) (row : RunRow) : Statements RunRecord := do
  let current := row.runJson
  let interrupted ← validated (RunRecord.modelValidate
    { current.toRunFields with
      status := .interrupted
      startedAt := some (current.startedAt.getD current.createdAt)
      completedAt := some time
      errorCode := some Store.processRestart })
  write fun s => s.writeRunLocked interrupted
  return interrupted

/-- The loop body over the planning and running tasks. -/
def blockInterruptedTask (time : Timestamp) (uuid4 : TaskId → Uuid) (row : TaskRow) :
    Statements (Task × StoredEvent) := do
  let current := row.taskJson
  let event ← validated (EventEnvelope.modelValidate
    (Store.interruptionEvent time (uuid4 current.taskId) current))
  let blocked ← validated (AIHub.transitionTask current .blocked time)
  write fun s => s.updateTask blocked.taskId.val row.version
    (moveRow blocked.status time (row.version + 1) blocked) fun _ => rfl
  let _ ← appendEventLocked event
  let stored ← select fun s => s.events.get? event.eventId
  match stored with
  | some stored => return (blocked, ⟨stored.sequence, event⟩)
  | none => validated (.error
      (.unavailable "database unavailable during reconcile interrupted work"))

def reconcileInterruptedRunning (time : Timestamp) (uuid4 : TaskId → Uuid) :
    WriteTransaction Store.ReconciliationResult := ⟨"reconcile interrupted work", do
  let active ← select Store.activeRuns
  let runs ← Block.forEach (interruptRun time) active
  let tasks ← select Store.interruptedTasks
  let blocked ← Block.forEach (blockInterruptedTask time uuid4) tasks
  return ⟨runs, blocked.map Prod.fst, blocked.map Prod.snd⟩⟩

end WriteTransaction

/-- What the operation runs: the exception that it raises before it begins a transaction, or the
transaction. -/
def WriteOp.transaction : WriteOp → Except HubError (WriteTransaction WriteResult)
  | createTask task event => (WriteTransaction.createTask task event).map (.map .task)
  | createQueuedTask task created queued route =>
    (WriteTransaction.createQueuedTask task created queued route).map (.map .task)
  | transitionTask taskId target event =>
    .ok ((WriteTransaction.transitionTask taskId target event).map .task)
  | assignTask taskId agent event =>
    .ok ((WriteTransaction.assignTask taskId agent event).map .task)
  | cancelTask taskId event => .ok ((WriteTransaction.cancelTask taskId event).map .task)
  | appendEvent event => (WriteTransaction.appendEvent event).map (.map .flag)
  | createRun run => .ok ((WriteTransaction.createRun run).map .run)
  | startRun runId time => .ok ((WriteTransaction.startRun runId time).map .run)
  | finishRun runId status time exitCode errorCode =>
    (WriteTransaction.finishRun runId status time exitCode errorCode).map (.map .run)
  | createArtifact artifact => .ok ((WriteTransaction.createArtifact artifact).map .artifact)
  | reserveGatewayRequest key time =>
    (WriteTransaction.reserveGatewayRequest key time).map (.map .flag)
  | rememberGatewayResponse key response time =>
    (WriteTransaction.rememberGatewayResponse key response time).map (.map .request)
  | releaseGatewayRequest key time =>
    (WriteTransaction.releaseGatewayRequest key time).map (.map .flag)
  | reconcileIncompleteGatewayRequests =>
    .ok (WriteTransaction.reconcileIncompleteGatewayRequests.map .keys)
  | saveTaskRoute route => .ok ((WriteTransaction.saveTaskRoute route).map .route)
  | reserveDelivery deliveryId time =>
    (WriteTransaction.reserveDelivery deliveryId time).map (.map .flag)
  | markDeliveryDelivered deliveryId time =>
    (WriteTransaction.markDeliveryDelivered deliveryId time).map (.map .receipt)
  | releaseDelivery deliveryId => (WriteTransaction.releaseDelivery deliveryId).map (.map .flag)
  | reconcileReservedDeliveries =>
    .ok (WriteTransaction.reconcileReservedDeliveries.map .keys)
  | reconcileInterruptedRunning time uuid4 =>
    .ok ((WriteTransaction.reconcileInterruptedRunning time uuid4).map .reconciled)

/-! ## Blocks that run alone -/

/-- What a block does under the handlers of its operation, when nothing interrupts it. -/
def Statements.result {α : Type} (operation : String) (block : Statements α) (s : Store) :
    Except DbException (α × Store) :=
  (block.run s).mapError fun e => ((transactionHandlers operation).handle e).getD e

@[simp] theorem mapError_bind {ε δ α β : Type} (f : ε → δ) (x : Except ε α) (k : α → Except ε β) :
    (x >>= k).mapError f = x.mapError f >>= fun a => (k a).mapError f := by
  cases x <;> rfl

section

variable {ε δ α β : Type}

@[simp] theorem ok_bind (a : α) (f : α → Except ε β) : (.ok a >>= f) = f a := rfl

@[simp] theorem error_bind (e : ε) (f : α → Except ε β) : (.error e >>= f) = .error e := rfl

@[simp] theorem mapError_ok (a : α) (g : ε → δ) : (.ok a : Except ε α).mapError g = .ok a := rfl

@[simp] theorem mapError_pure (a : α) (g : ε → δ) : (pure a : Except ε α).mapError g = pure a := rfl

end

namespace Statements

variable {α β : Type} {operation : String} {s : Store}

@[simp] theorem result_pure (a : α) : result operation (pure a) s = pure (a, s) := rfl

@[simp] theorem result_bind (b : Statements α) (k : α → Statements β) :
    result operation (b >>= k) s =
      result operation b s >>= fun r => result operation (k r.1) r.2 := by
  rw [result, run_bind, result]
  cases b.run s <;> rfl

@[simp] theorem result_select (f : Store → β) :
    result operation (select f) s = .ok (f s, s) := rfl

@[simp] theorem result_validated (x : Except HubError α) :
    result operation (validated x) s = x.mapError .hub >>= fun a => pure (a, s) := by
  cases x <;> rfl

@[simp] theorem result_check (c : Prop) [Decidable c] (e : HubError) :
    result operation (check c e) s = (raiseIf c e).mapError .hub >>= fun u => pure (u, s) :=
  result_validated _

@[simp] theorem result_write (f : Store → Store) :
    result operation (write f) s = .ok ((), f s) := rfl

@[simp] theorem result_taskRow (taskId : String) :
    result operation (taskRow taskId) s =
      (s.taskRow taskId).mapError .hub >>= fun row => pure (row, s) := by
  simp only [taskRow, result_bind, result_select, ok_bind, Store.taskRow]
  cases s.tasks.get? taskId <;> rfl

@[simp] theorem result_getRunLocked (runId : String) :
    result operation (getRunLocked runId) s =
      (s.getRunLocked runId).mapError .hub >>= fun run => pure (run, s) := by
  simp only [getRunLocked, result_bind, result_select, ok_bind, Store.getRunLocked]
  cases s.runs.get? runId <;> rfl

@[simp] theorem result_eventJsonLocked (eventId : Uuid) :
    result operation (eventJsonLocked eventId) s = .ok (s.eventJsonLocked eventId, s) := rfl

@[simp] theorem raiseIf_false [Decidable False] (e : HubError) :
    raiseIf False e = .ok () := if_neg id

theorem tryInsert_cases {ρ κ : Type} [DecidableEq κ] {key : ρ → κ} (operation : String)
    (T : Table key) (row : ρ) :
    (∃ h, tryInsert T row = .ok (T.insert row h) ∧
      insertRow operation T row = .ok (T.insert row h)) ∨
    (tryInsert T row = .error .integrityError ∧ insertRow operation T row =
      .error (.dataIntegrity s!"database integrity violation during {operation}")) := by
  by_cases h : T.get? (key row) = none
  · have htry : tryInsert T row = .ok (T.insert row h) := by
      unfold tryInsert
      split
      · rfl
      · rename_i htaken
        cases h.symm.trans htaken
    exact .inl ⟨h, htry, insertRow_of_free h⟩
  · have htry : tryInsert T row = .error .integrityError := by
      unfold tryInsert
      split
      · rename_i hfree
        exact absurd hfree h
      · rfl
    have hrow : insertRow operation T row =
        .error (.dataIntegrity s!"database integrity violation during {operation}") := by
      unfold insertRow
      split
      · rename_i hfree
        exact absurd hfree h
      · rfl
    exact .inr ⟨htry, hrow⟩

/-- An insertion raises what it raises in the operation as a whole. -/
theorem result_insert {ρ κ : Type} [DecidableEq κ] {key : ρ → κ} (T : Store → Table key)
    (row : ρ) (f : Store → Table key → Store) :
    result operation (execute fun s => (tryInsert (T s) row).map (f s)) s =
      (insertRow operation (T s) row).mapError .hub >>= fun U => pure ((), f s U) := by
  simp only [result, run_execute]
  rcases tryInsert_cases operation (T s) row with ⟨h, htry, hrow⟩ | ⟨htry, hrow⟩ <;>
    rw [htry, hrow] <;> rfl

@[simp] theorem result_insertTask (row : TaskRow) :
    result operation (insertTask row) s =
      (insertRow operation s.tasks row).mapError .hub >>= fun tasks =>
        pure ((), { s with tasks }) :=
  result_insert Store.tasks row fun s tasks => { s with tasks }

@[simp] theorem result_insertRoute (route : TaskRoute) :
    result operation (insertRoute route) s =
      (insertRow operation s.taskRoutes route).mapError .hub >>= fun taskRoutes =>
        pure ((), { s with taskRoutes }) :=
  result_insert Store.taskRoutes route fun s taskRoutes => { s with taskRoutes }

@[simp] theorem result_insertRun (run : RunRecord) :
    result operation (insertRun run) s =
      (insertRow operation s.runs (Store.RunRow.ofRecord run)).mapError .hub >>= fun runs =>
        pure ((), { s with runs }) :=
  result_insert Store.runs (Store.RunRow.ofRecord run) fun s runs => { s with runs }

@[simp] theorem result_insertArtifact (artifact : ArtifactMetadata) :
    result operation (insertArtifact artifact) s =
      (insertRow operation s.artifacts artifact).mapError .hub >>= fun artifacts =>
        pure ((), { s with artifacts }) :=
  result_insert Store.artifacts artifact fun s artifacts => { s with artifacts }

theorem result_insertGatewayRequest (row : GatewayRow)
    (hfree : s.gatewayRequests.get? row.idempotencyKey = none) :
    result operation (insertGatewayRequest row) s =
      .ok ((), { s with gatewayRequests := s.gatewayRequests.insert row hfree }) := by
  rw [insertGatewayRequest, result_insert Store.gatewayRequests row fun s gatewayRequests =>
    { s with gatewayRequests }, insertRow_of_free hfree]
  rfl

theorem result_insertDeliveryReceipt (row : ReceiptRow)
    (hfree : s.deliveryReceipts.get? row.deliveryId = none) :
    result operation (insertDeliveryReceipt row) s =
      .ok ((), { s with deliveryReceipts := s.deliveryReceipts.insert row hfree }) := by
  rw [insertDeliveryReceipt, result_insert Store.deliveryReceipts row fun s deliveryReceipts =>
    { s with deliveryReceipts }, insertRow_of_free hfree]
  rfl

theorem result_insertEvent (event : EventEnvelope)
    (hfresh : s.events.get? event.eventId = none) :
    result operation (insertEvent event) s =
      if event.taskId.any fun id => (s.tasks.get? id.val).isNone then
        .error (.hub (.dataIntegrity s!"database integrity violation during {operation}"))
      else .ok ((), { s with
        events := s.events.insert ⟨s.lastSequence + 1, event⟩ hfresh
        lastSequence := s.lastSequence + 1 }) := by
  have htry : tryInsert s.events ⟨s.lastSequence + 1, event⟩ =
      .ok (s.events.insert ⟨s.lastSequence + 1, event⟩ hfresh) := by
    unfold tryInsert
    split
    · rfl
    · rename_i htaken
      cases hfresh.symm.trans htaken
  simp only [result, insertEvent, run_execute, htry]
  split_ifs <;> rfl

/-- Appending an event does what it does in the operation as a whole. -/
@[simp] theorem result_appendEventLocked (event : EventEnvelope) :
    result operation (appendEventLocked event) s =
      (Store.appendEventLocked operation event s).mapError .hub := by
  rw [appendEventLocked, result_bind, result_eventJsonLocked, ok_bind, Store.eventJsonLocked]
  cases hexisting : s.events.get? event.eventId with
  | some existing =>
    have hstored : Store.appendEventLocked operation event s =
        if existing.envelope = event then .ok (false, s)
        else .error (.idempotencyConflict
          s!"event_id was reused with different content: {Uuid.text event.eventId}") := by
      rw [Store.appendEventLocked]
      split <;> rename_i h <;> cases hexisting.symm.trans h
      rfl
    simp only [hstored, Option.map_some, result_bind, result_check, raiseIf, ne_eq, ite_not]
    split_ifs <;> rfl
  | none =>
    have hfresh : Store.appendEventLocked operation event s =
        if event.taskId.any fun id => (s.tasks.get? id.val).isNone then
          .error (.dataIntegrity s!"database integrity violation during {operation}")
        else .ok (true, { s with
          events := s.events.insert ⟨s.lastSequence + 1, event⟩ hexisting
          lastSequence := s.lastSequence + 1 }) := by
      rw [Store.appendEventLocked]
      split <;> rename_i h <;> cases hexisting.symm.trans h
      rfl
    simp only [hfresh, Option.map_none, result_bind, result_insertEvent event hexisting]
    split_ifs <;> rfl

end Statements

namespace WriteTransaction

variable {α β : Type}

/-- What the transaction does, when nothing interrupts it. -/
def result (t : WriteTransaction α) (s : Store) : Except DbException (α × Store) :=
  t.block.result t.operation s

theorem createTask_result (task : Task) (event : EventEnvelope) (s : Store) :
    ((createTask task event).mapError DbException.hub >>= fun t => t.result s) =
      (Store.createTask task event s).mapError .hub := by
  simp [createTask, Store.createTask, result, -bind_pure_comp]

theorem createQueuedTask_result (task : Task) (createdEvent queuedEvent : EventEnvelope)
    (route : Option TaskRoute) (s : Store) :
    ((createQueuedTask task createdEvent queuedEvent route).mapError DbException.hub >>=
      fun t => t.result s) =
      (Store.createQueuedTask task createdEvent queuedEvent route s).mapError .hub := by
  cases route <;>
    simp [createQueuedTask, Store.createQueuedTask, result, -bind_pure_comp] <;> rfl

theorem transitionTask_result (taskId : String) (target : TaskStatus) (event : EventEnvelope)
    (s : Store) : (transitionTask taskId target event).result s =
      (Store.transitionTask taskId target event s).mapError .hub := by
  cases h : s.eventJsonLocked event.eventId <;>
    simp [transitionTask, Store.transitionTask, result, h, -bind_pure_comp]
  rfl

theorem assignTask_result (taskId : String) (agent : Identifier) (event : EventEnvelope)
    (s : Store) : (assignTask taskId agent event).result s =
      (Store.assignTask taskId agent event s).mapError .hub := by
  cases h : s.eventJsonLocked event.eventId <;>
    simp [assignTask, Store.assignTask, result, h, -bind_pure_comp]
  rfl

theorem appendEvent_result (event : EventEnvelope) (s : Store) :
    ((appendEvent event).mapError DbException.hub >>= fun t => t.result s) =
      (Store.appendEvent event s).mapError .hub := by
  simp [appendEvent, Store.appendEvent, result, -bind_pure_comp]

theorem createRun_result (run : RunRecord) (s : Store) :
    (createRun run).result s = (Store.createRun run s).mapError .hub := by
  simp [createRun, Store.createRun, result, -bind_pure_comp]

theorem startRun_result (runId : String) (time : Timestamp) (s : Store) :
    (startRun runId time).result s = (Store.startRun runId time s).mapError .hub := by
  simp [startRun, Store.startRun, result, -bind_pure_comp]

theorem finishRun_result (runId : String) (status : RunStatus) (time : Timestamp)
    (exitCode : Option Int) (errorCode : Option Identifier) (s : Store) :
    ((finishRun runId status time exitCode errorCode).mapError DbException.hub >>=
      fun t => t.result s) =
      (Store.finishRun runId status time exitCode errorCode s).mapError .hub := by
  simp [finishRun, Store.finishRun, result, -bind_pure_comp]

theorem createArtifact_result (artifact : ArtifactMetadata) (s : Store) :
    (createArtifact artifact).result s = (Store.createArtifact artifact s).mapError .hub := by
  cases h : artifact.runId <;>
    simp [createArtifact, Store.createArtifact, result, h, -bind_pure_comp]

theorem saveTaskRoute_result (route : TaskRoute) (s : Store) :
    (saveTaskRoute route).result s = (Store.saveTaskRoute route s).mapError .hub := by
  simp only [saveTaskRoute, Store.saveTaskRoute, result, result_bind, result_select, result_check,
    ok_bind, mapError_bind, bind_assoc, pure_bind]
  refine bind_congr fun _ => ?_
  split <;> rename_i h <;> split <;> rename_i h' <;> cases h.symm.trans h'
  · simp [-bind_pure_comp]
  · simp [insertRow_of_free h, -bind_pure_comp]

theorem reserveGatewayRequest_result (idempotencyKey : String) (time : Timestamp) (s : Store) :
    ((reserveGatewayRequest idempotencyKey time).mapError DbException.hub >>=
      fun t => t.result s) =
      (Store.reserveGatewayRequest idempotencyKey time s).mapError .hub := by
  simp only [reserveGatewayRequest, Store.reserveGatewayRequest, result, result_bind,
    result_select, ok_bind, mapError_bind, bind_assoc, mapError_pure, pure_bind]
  refine bind_congr fun record => ?_
  split <;> rename_i h <;> split <;> rename_i h' <;> cases h.symm.trans h'
  · rfl
  · rw [result_bind,
      result_insertGatewayRequest ⟨record.idempotencyKey.val, none, record.createdAt⟩ h]
    rfl

theorem reserveDelivery_result (deliveryId : String) (time : Timestamp) (s : Store) :
    ((reserveDelivery deliveryId time).mapError DbException.hub >>= fun t => t.result s) =
      (Store.reserveDelivery deliveryId time s).mapError .hub := by
  simp only [reserveDelivery, Store.reserveDelivery, result, result_bind,
    result_select, ok_bind, mapError_bind, bind_assoc, mapError_pure, pure_bind]
  refine bind_congr fun key => ?_
  split <;> rename_i h <;> split <;> rename_i h' <;> cases h.symm.trans h'
  · rfl
  · rw [result_bind, result_insertDeliveryReceipt ⟨key.val, .reserved, time, none⟩ h]
    rfl

theorem rememberGatewayResponse_result (idempotencyKey : String) (response : JsonObject)
    (time : Timestamp) (s : Store) :
    ((rememberGatewayResponse idempotencyKey response time).mapError DbException.hub >>=
      fun t => t.result s) =
      (Store.rememberGatewayResponse idempotencyKey response time s).mapError .hub := by
  simp only [rememberGatewayResponse, Store.rememberGatewayResponse, result, result_bind,
    result_select, ok_bind, mapError_bind, bind_assoc, mapError_pure, pure_bind]
  refine bind_congr fun _ => ?_
  cases h : s.gatewayRequests.get? idempotencyKey with
  | none => rfl
  | some row =>
    have hrow : ∀ r ∈ s.gatewayRequests, r.idempotencyKey = idempotencyKey → r = row := by
      intro r hr hkey
      rw [← hkey, Table.get?_of_mem hr] at h
      exact Option.some.inj h
    cases hresponse : row.responseJson with
    | none =>
      have hupdate := Table.update_congr (T := s.gatewayRequests)
        (p := fun r => r.idempotencyKey = idempotencyKey)
        (q := fun r => r.idempotencyKey = idempotencyKey && r.responseJson.isNone)
        (f := answerRow response) (g := fun _ => rfl)
        fun r hr => by
          by_cases hkey : r.idempotencyKey = idempotencyKey
          · simp [hrow r hr hkey, hresponse]
          · simp [hkey]
      simp [hresponse, hupdate, -bind_pure_comp]
      rfl
    | some existing =>
      have hupdate := Table.update_eq_self (T := s.gatewayRequests)
        (p := fun r => r.idempotencyKey = idempotencyKey && r.responseJson.isNone)
        (f := fun r => { r with responseJson := some response }) (g := fun _ => rfl)
        fun r hr => by
          by_cases hkey : r.idempotencyKey = idempotencyKey
          · simp [hrow r hr hkey, hresponse]
          · simp [hkey]
      simp [hresponse, hupdate, -bind_pure_comp]

theorem releaseGatewayRequest_result (idempotencyKey : String) (time : Timestamp) (s : Store) :
    ((releaseGatewayRequest idempotencyKey time).mapError DbException.hub >>=
      fun t => t.result s) =
      (Store.releaseGatewayRequest idempotencyKey time s).mapError .hub := by
  simp only [releaseGatewayRequest, Store.releaseGatewayRequest, result, result_bind,
    result_select, ok_bind, mapError_bind, bind_assoc, mapError_pure, pure_bind]
  refine bind_congr fun key => ?_
  cases s.gatewayRequests.get? key.idempotencyKey.val <;> simp [-bind_pure_comp]

theorem markDeliveryDelivered_result (deliveryId : String) (time : Timestamp) (s : Store) :
    ((markDeliveryDelivered deliveryId time).mapError DbException.hub >>= fun t => t.result s) =
      (Store.markDeliveryDelivered deliveryId time s).mapError .hub := by
  simp only [markDeliveryDelivered, Store.markDeliveryDelivered, result, result_bind,
    result_select, ok_bind, mapError_bind, bind_assoc, mapError_pure, pure_bind]
  refine bind_congr fun key => ?_
  cases s.deliveryReceipts.get? key.val with
  | none => rfl
  | some row =>
    by_cases h : row.state = .delivered
    · simp [h, -bind_pure_comp]
    · simp [h, -bind_pure_comp]
      rfl

theorem releaseDelivery_result (deliveryId : String) (s : Store) :
    ((releaseDelivery deliveryId).mapError DbException.hub >>= fun t => t.result s) =
      (Store.releaseDelivery deliveryId s).mapError .hub := by
  simp only [releaseDelivery, Store.releaseDelivery, result, result_bind,
    result_select, ok_bind, mapError_bind, bind_assoc, mapError_pure, pure_bind]
  refine bind_congr fun key => ?_
  cases s.deliveryReceipts.get? key.val <;> simp [-bind_pure_comp]

/-- A loop does what it does in the operation as a whole, if its body does. -/
theorem result_forEach {operation : String} {body : α → Statements β}
    {body' : α → Store → Except HubError (β × Store)}
    (h : ∀ a s, (body a).result operation s = (body' a s).mapError .hub) (as : List α)
    (s : Store) : Statements.result operation (Block.forEach body as) s =
      (AIHub.forEach body' as s).mapError .hub := by
  induction as generalizing s with
  | nil => rfl
  | cons a as ih =>
    simp only [Block.forEach, AIHub.forEach, result_bind, h, ih, mapError_bind, result_pure,
      mapError_pure]

theorem interruptRun_result {operation : String} (time : Timestamp) (row : RunRow) (s : Store) :
    (interruptRun time row).result operation s =
      (Store.interruptRun time row s).mapError .hub := by
  simp [interruptRun, Store.interruptRun, -bind_pure_comp]

theorem blockInterruptedTask_result (time : Timestamp) (uuid4 : TaskId → Uuid) (row : TaskRow)
    (s : Store) :
    (blockInterruptedTask time uuid4 row).result "reconcile interrupted work" s =
      (Store.blockInterruptedTask time uuid4 row s).mapError .hub := by
  simp only [blockInterruptedTask, Store.blockInterruptedTask, result_bind, result_validated,
    result_write, result_appendEventLocked, result_select, bind_assoc, pure_bind, mapError_bind,
    ok_bind]
  refine bind_congr fun event => bind_congr fun blocked => bind_congr fun r => ?_
  cases r.2.events.get? event.eventId <;> rfl

theorem reconcileInterruptedRunning_result (time : Timestamp) (uuid4 : TaskId → Uuid)
    (s : Store) : (reconcileInterruptedRunning time uuid4).result s =
      (Store.reconcileInterruptedRunning time uuid4 s).mapError .hub := by
  simp only [reconcileInterruptedRunning, Store.reconcileInterruptedRunning, result, result_bind,
    result_select, ok_bind, mapError_bind, result_forEach (interruptRun_result time),
    result_forEach (blockInterruptedTask_result time uuid4), result_pure, mapError_pure]

theorem reconcileIncompleteGatewayRequests_result (s : Store) :
    reconcileIncompleteGatewayRequests.result s =
      s.reconcileIncompleteGatewayRequests.mapError .hub := rfl

theorem reconcileReservedDeliveries_result (s : Store) :
    reconcileReservedDeliveries.result s = s.reconcileReservedDeliveries.mapError .hub := rfl

/-- Naming the result of a transaction changes nothing else. -/
theorem map_result {x : Except HubError (WriteTransaction α)} {y : Except HubError (α × Store)}
    {s : Store} (f : α → WriteResult)
    (h : (x.mapError DbException.hub >>= fun t => t.result s) = y.mapError .hub) :
    ((x.map (map f)).mapError DbException.hub >>= fun t => t.result s) =
      (y.map (Prod.map f id)).mapError .hub := by
  cases x with
  | error e =>
    cases y <;> cases h
    rfl
  | ok t =>
    change t.result s = _ at h
    show (t.map f).result s = _
    rw [result, map, result_bind]
    change (t.result s >>= fun r => pure (f r.1, r.2)) = _
    rw [h]
    cases y <;> rfl

end WriteTransaction

/-- When nothing interrupts it, an operation does statement by statement what it does as a
whole. -/
theorem WriteOp.transaction_result (op : WriteOp) (s : Store) :
    (op.transaction.mapError DbException.hub >>= fun t => t.result s) =
      (op.call s).mapError .hub := by
  open WriteTransaction in
  cases op
  all_goals rw [transaction, call]
  case createTask task event => exact map_result .task (createTask_result task event s)
  case createQueuedTask task created queued route =>
    exact map_result .task (createQueuedTask_result task created queued route s)
  case transitionTask taskId target event =>
    exact map_result (x := .ok _) .task (transitionTask_result taskId target event s)
  case assignTask taskId agent event =>
    exact map_result (x := .ok _) .task (assignTask_result taskId agent event s)
  case cancelTask taskId event =>
    exact map_result (x := .ok _) .task (transitionTask_result taskId .cancelled event s)
  case appendEvent event => exact map_result .flag (appendEvent_result event s)
  case createRun run => exact map_result (x := .ok _) .run (createRun_result run s)
  case startRun runId time => exact map_result (x := .ok _) .run (startRun_result runId time s)
  case finishRun runId status time exitCode errorCode =>
    exact map_result .run (finishRun_result runId status time exitCode errorCode s)
  case createArtifact artifact =>
    exact map_result (x := .ok _) .artifact (createArtifact_result artifact s)
  case reserveGatewayRequest key time =>
    exact map_result .flag (reserveGatewayRequest_result key time s)
  case rememberGatewayResponse key response time =>
    exact map_result .request (rememberGatewayResponse_result key response time s)
  case releaseGatewayRequest key time =>
    exact map_result .flag (releaseGatewayRequest_result key time s)
  case reconcileIncompleteGatewayRequests =>
    exact map_result (x := .ok _) .keys (reconcileIncompleteGatewayRequests_result s)
  case saveTaskRoute route => exact map_result (x := .ok _) .route (saveTaskRoute_result route s)
  case reserveDelivery deliveryId time =>
    exact map_result .flag (reserveDelivery_result deliveryId time s)
  case markDeliveryDelivered deliveryId time =>
    exact map_result .receipt (markDeliveryDelivered_result deliveryId time s)
  case releaseDelivery deliveryId => exact map_result .flag (releaseDelivery_result deliveryId s)
  case reconcileReservedDeliveries =>
    exact map_result (x := .ok _) .keys (reconcileReservedDeliveries_result s)
  case reconcileInterruptedRunning time uuid4 =>
    exact map_result (x := .ok _) .reconciled (reconcileInterruptedRunning_result time uuid4 s)

end AIHub
