import AIHub.Storage.System
import Mathlib.Logic.Function.Basic

/-!
# The single-developer orchestrator

`process_task` and `cancel_task` as programs that stop at their awaits. A call is its position
(`ProcessPc`, `CancelPc`): where it waits, with the local variables the rest of the call reads.
`processNext` and `cancelNext` take a call past one await. An await of a store call runs the call
in a worker thread and resumes later; where the code that follows reads the clock, the resumption
is a step of its own. What the notifier, the runtime and the workspace context do, the time and
the ids that are drawn, and whether the store fails, come from a `Choice`.

`OrchestratorState` is the store with any number of calls for one task, and `system` interleaves
their steps.
-/

namespace AIHub

open Transition

/-! ## Ports -/

/-- The exceptions that the handlers of `process_task` tell apart. -/
inductive Raised where
  | preparationBlocked | preparationError | other
  deriving DecidableEq, Repr

inductive RuntimeStatus where
  | succeeded | failed | timedOut | cancelled
  deriving DecidableEq, Repr

namespace RuntimeStatus

def value : RuntimeStatus → String
  | succeeded => "succeeded"
  | failed => "failed"
  | timedOut => "timed-out"
  | cancelled => "cancelled"

/-- `RunStatus(RunOutcome(status.value).value)`. -/
def runStatus : RuntimeStatus → RunStatus
  | succeeded => .succeeded
  | failed => .failed
  | timedOut => .timedOut
  | cancelled => .cancelled

/-- The error code of a finished run. -/
def errorCode : RuntimeStatus → Option Identifier
  | succeeded => none
  | failed => some ⟨"runtime-failed", by decide⟩
  | timedOut => some ⟨"runtime-timed-out", by decide⟩
  | cancelled => some ⟨"runtime-cancelled", by decide⟩

end RuntimeStatus

structure RuntimeResult where
  status : RuntimeStatus
  exitCode : Option Int := none
  changedFiles : List String := []
  deriving DecidableEq

structure PreparedWorkspace where
  path : String
  branch : String
  deriving DecidableEq

/-- `RuntimeRequest` takes absolute paths only; the other fields are valid already. -/
def PreparedWorkspace.isAbsolute (w : PreparedWorkspace) : Bool := w.path.toList.head? = some '/'

structure DeveloperSelection where
  agentId : Identifier
  runtime : String
  deriving DecidableEq

/-- What `select_developer` does. -/
inductive Selection where
  | developer (selection : DeveloperSelection)
  | selectionError
  | raises
  deriving DecidableEq

structure TaskProcessResult where
  taskId : TaskId
  status : TaskStatus
  errorCode : Option String := none
  deriving DecidableEq

/-- What the workspace context does when it is left. -/
inductive ExitOutcome where
  | leaves
  /-- It swallows the exception that left the body. -/
  | suppresses
  | raises (e : Raised)
  deriving DecidableEq

/-- What the environment does at one step. -/
structure Choice where
  time : Timestamp
  uuid : Uuid
  runId : RunId
  /-- The store call raises and does nothing. -/
  fault : Bool := false
  entered : Except Raised PreparedWorkspace
  executed : Except Raised RuntimeResult
  exited : ExitOutcome := .leaves
  /-- `runtime.cancel` raises something other than a `LookupError`. -/
  cancelRaises : Bool := false

/-- The collaborators of the orchestrator. -/
structure Orchestrator where
  selectDeveloper : Task → Selection
  runtimeName : Identifier
  correlationId : TaskId → Uuid
  maxConcurrentTasks : Nat

/-! ## Events -/

namespace Orchestrator

variable (o : Orchestrator)

/-- `_event`. -/
def event (c : Choice) (task : Task) (eventType : EventType) (agent : Option Identifier)
    (level : EventLevel) (payload : JsonObject) : Except HubError EventEnvelope :=
  EventEnvelope.modelValidate {
    eventId := c.uuid
    eventType := eventType
    timestamp := c.time
    taskId := some task.taskId
    project := some task.project
    team := some task.team
    agent := agent
    correlationId := some (o.correlationId task.taskId)
    level := level
    payload := payload }

/-- The event of `_transition`; the event types of its table are those of the store. -/
def transitionEvent (c : Choice) (task : Task) (target : TaskStatus) (agent : Option Identifier)
    (level : EventLevel) (payload : JsonObject) : Except HubError EventEnvelope :=
  o.event c task (eventForStatus target) agent level
    (payload.set "status" (.string target.value))

def assignmentEvent (c : Choice) (task : Task) (developer : DeveloperSelection) :
    Except HubError EventEnvelope :=
  o.event c task .agentAssigned (some developer.agentId) .info
    [("role", .string "developer"), ("runtime", .string developer.runtime),
      ("status", .string task.status.value)]

def runningEvent (c : Choice) (task : Task) (developer : DeveloperSelection)
    (workspace : PreparedWorkspace) : Except HubError EventEnvelope :=
  o.transitionEvent c task .running (some developer.agentId) .info
    [("branch", .string workspace.branch)]

/-- The status `_finish_task` moves the task to. -/
def finishTarget : RuntimeStatus → TaskStatus
  | .succeeded => .completed
  | .cancelled => .cancelled
  | .failed | .timedOut => .failed

def finishLevel : RuntimeStatus → EventLevel
  | .succeeded => .info
  | .cancelled => .warning
  | .failed | .timedOut => .error

def finishPayload (result : RuntimeResult) (branch : String) : JsonObject :=
  let payload : JsonObject :=
    [("branch", .string branch), ("changed_files", .array (result.changedFiles.map .string))]
  if finishTarget result.status = .failed then
    payload.set "reason" (.string s!"runtime-{result.status.value}")
  else payload

/-- The event of `_finish_task`. -/
def finishEvent (c : Choice) (task : Task) (result : RuntimeResult) (branch : String) :
    Except HubError EventEnvelope :=
  o.transitionEvent c task (finishTarget result.status) none (finishLevel result.status)
    (finishPayload result branch)

def cancelEvent (c : Choice) (task : Task) : Except HubError EventEnvelope :=
  o.event c task .taskCancelled none .warning
    [("reason", .string "user-request"), ("status", .string TaskStatus.cancelled.value)]

end Orchestrator

/-- `_block` and `_fail`. -/
inductive Settlement where
  | block (errorCode : String)
  | fail (errorCode : String)
  deriving DecidableEq

namespace Settlement

def target : Settlement → TaskStatus
  | block _ => .blocked
  | fail _ => .failed

def errorCode : Settlement → String
  | block code => code
  | fail code => code

def level : Settlement → EventLevel
  | block _ => .warning
  | fail _ => .error

def event (o : Orchestrator) (c : Choice) (current : Task) (settlement : Settlement) :
    Except HubError EventEnvelope :=
  o.transitionEvent c current settlement.target none settlement.level
    [("reason", .string settlement.errorCode)]

end Settlement

/-! ## Positions -/

/-- How the body of the `async with` block ended. -/
inductive Body where
  | completed (final : Task)
  | returned (result : TaskProcessResult)
  | raised (e : Raised)
  deriving DecidableEq

inductive Outcome where
  | returned (result : TaskProcessResult)
  | raised
  deriving DecidableEq

/-- Where a `process_task` call stands. A name in `-ing` is an await that has not returned. -/
inductive ProcessPc where
  | waiting
  | gettingTask
  | gotTask (task : Task)
  | planning (task : Task) (event : EventEnvelope)
  | planned (task : Task)
  | assigning (task : Task) (developer : DeveloperSelection) (event : EventEnvelope)
  | entering (task : Task) (developer : DeveloperSelection)
  | settingRunning (task : Task) (developer : DeveloperSelection) (workspace : PreparedWorkspace)
      (event : EventEnvelope)
  | notifyingRunning (task : Task) (developer : DeveloperSelection)
      (workspace : PreparedWorkspace)
  | creatingRun (task : Task) (workspace : PreparedWorkspace) (run : RunRecord)
  | startingRun (task : Task) (workspace : PreparedWorkspace) (runId : RunId)
  | runStarted (task : Task) (workspace : PreparedWorkspace) (runId : RunId)
  | executing (task : Task) (workspace : PreparedWorkspace) (runId : RunId)
  | finishingRun (task : Task) (workspace : PreparedWorkspace) (runId : RunId)
      (result : RuntimeResult)
  | gettingCurrent (task : Task) (workspace : PreparedWorkspace) (result : RuntimeResult)
  | gotCurrent (task current : Task) (workspace : PreparedWorkspace) (result : RuntimeResult)
  | finishingTask (task current : Task) (result : RuntimeResult) (event : EventEnvelope)
  | notifyingCancelled (task current : Task)
  /-- `openRun` is the run that was created and not finished, if there is one. -/
  | exiting (task : Task) (body : Body) (openRun : Option RunId)
  | closingRun (task : Task) (runId : RunId)
  | gettingFailed (task : Task)
  | gettingSettled (task : Task) (settlement : Settlement)
  | gotSettled (current : Task) (settlement : Settlement)
  | settling (current : Task) (settlement : Settlement) (event : EventEnvelope)
  | notifying (result : TaskProcessResult)
  | done (outcome : Outcome)

/-- The snapshots of the task that a call holds. -/
def ProcessPc.tasks : ProcessPc → List Task
  | waiting | gettingTask | notifying _ | done _ => []
  | gotTask task | planning task _ | planned task | assigning task _ _ | entering task _
  | settingRunning task _ _ _ | notifyingRunning task _ _ | creatingRun task _ _
  | startingRun task _ _ | runStarted task _ _ | executing task _ _ | finishingRun task _ _ _
  | gettingCurrent task _ _ | exiting task _ _ | closingRun task _ | gettingFailed task
  | gettingSettled task _ | gotSettled task _ | settling task _ _ => [task]
  | gotCurrent task current _ _ | finishingTask task current _ _
  | notifyingCancelled task current => [task, current]

/-- Where a `cancel_task` call stands. -/
inductive CancelPc where
  | gettingTask
  | cancellingRuntime (task : Task)
  | gotTask (task : Task)
  | cancelling (task : Task) (event : EventEnvelope)
  | notifying (cancelled : Task)
  | done (result : Option Task)

/-! ## One await -/

/-- A store call: its result and the store after it, or nothing if it raises. -/
def call {α : Type} (c : Choice) (op : Store → Except HubError (α × Store)) (s : Store) :
    Option (α × Store) :=
  if c.fault then none else (op s).toOption

/-- A store call that stores `event`, whose `uuid4` id is new. -/
def commit {α : Type} (c : Choice) (event : EventEnvelope)
    (op : EventEnvelope → Store → Except HubError (α × Store)) (s : Store) :
    Option (Option (α × Store)) :=
  if (s.events.get? event.eventId).isSome then none else some (call c (op event) s)

/-- `get_task`. -/
def readTask (c : Choice) (taskId : TaskId) (s : Store) : Option Task :=
  if c.fault then none else (s.getTask taskId.val).toOption

namespace ProcessPc

def result (task : Task) (errorCode : Option String) : TaskProcessResult :=
  ⟨task.taskId, task.status, errorCode⟩

/-- The `except` clauses of `process_task`. -/
def handle (task : Task) (openRun : Option RunId) : Raised → ProcessPc
  | .preparationBlocked => .gettingSettled task (.block "project-preparation")
  | .preparationError => .gettingSettled task (.fail "project-preparation")
  | .other =>
    match openRun with
    | some runId => .closingRun task runId
    | none => .gettingFailed task

/-- The end of the `async with` block. -/
def leave (task : Task) (openRun : Option RunId) : Body → ExitOutcome → ProcessPc
  | _, .raises e => handle task openRun e
  | .raised e, .leaves => handle task openRun e
  -- The code after the block reads `final`, which is unbound.
  | .raised _, .suppresses => .done .raised
  | .completed final, _ => .notifying (result final none)
  | .returned result, _ => .done (.returned result)

end ProcessPc

def runtimeException : Identifier := ⟨"runtime-exception", by decide⟩

/-- The store call of `_finish_task`. -/
def finishTask (current : Task) (result : RuntimeResult) (event : EventEnvelope) :
    Store → Except HubError (Task × Store) :=
  match Orchestrator.finishTarget result.status with
  | .cancelled => Store.cancelTask current.taskId.val event
  | target => Store.transitionTask current.taskId.val target event

open ProcessPc in
/-- Take a `process_task` call for `taskId` past one await inside `async with self._semaphore`. -/
def processNext (o : Orchestrator) (taskId : TaskId) (c : Choice) :
    ProcessPc → Store → Option (ProcessPc × Store)
  | .waiting, _ => none
  | .gettingTask, s =>
    match readTask c taskId s with
    | some task => some (.gotTask task, s)
    | none => some (.done .raised, s)
  | .gotTask task, s =>
    if task.status ≠ .queued then some (.done (.returned (result task none)), s)
    else match o.transitionEvent c task .planning none .info [] with
      | .ok event => some (.planning task event, s)
      | .error _ => some (.done .raised, s)
  | .planning task event, s =>
    (commit c event (Store.transitionTask task.taskId.val .planning) s).map fun
      | some (task, s) => (.planned task, s)
      | none => (.done .raised, s)
  | .planned task, s =>
    match o.selectDeveloper task with
    | .selectionError => some (.gettingSettled task (.fail "developer-selection"), s)
    | .raises => some (.done .raised, s)
    | .developer developer =>
      match o.assignmentEvent c task developer with
      | .ok event => some (.assigning task developer event, s)
      | .error _ => some (.done .raised, s)
  | .assigning task developer event, s =>
    (commit c event (Store.assignTask task.taskId.val developer.agentId) s).map fun
      | some (task, s) => (.entering task developer, s)
      | none => (.done .raised, s)
  | .entering task developer, s =>
    match c.entered with
    | .error e => some (handle task none e, s)
    | .ok workspace =>
      match o.runningEvent c task developer workspace with
      | .ok event => some (.settingRunning task developer workspace event, s)
      | .error _ => some (.exiting task (.raised .other) none, s)
  | .settingRunning task developer workspace event, s =>
    (commit c event (Store.transitionTask task.taskId.val .running) s).map fun
      | some (task, s) => (.notifyingRunning task developer workspace, s)
      | none => (.exiting task (.raised .other) none, s)
  | .notifyingRunning task developer workspace, s =>
    match RunRecord.modelValidate {
      runId := c.runId
      taskId := task.taskId
      agent := developer.agentId
      runtime := o.runtimeName
      createdAt := c.time } with
    | .ok run => some (.creatingRun task workspace run, s)
    | .error _ => some (.exiting task (.raised .other) none, s)
  | .creatingRun task workspace run, s =>
    match call c (Store.createRun run) s with
    | some (run, s) => some (.startingRun task workspace run.runId, s)
    | none => some (.exiting task (.raised .other) none, s)
  | .startingRun task workspace runId, s =>
    match call c (Store.startRun runId.val c.time) s with
    | some (_, s) => some (.runStarted task workspace runId, s)
    | none => some (.exiting task (.raised .other) (some runId), s)
  | .runStarted task workspace runId, s =>
    if workspace.isAbsolute then some (.executing task workspace runId, s)
    else some (.exiting task (.raised .other) (some runId), s)
  | .executing task workspace runId, s =>
    match c.executed with
    | .ok result => some (.finishingRun task workspace runId result, s)
    | .error e => some (.exiting task (.raised e) (some runId), s)
  | .finishingRun task workspace runId result, s =>
    match call c (Store.finishRun runId.val result.status.runStatus c.time result.exitCode
      result.status.errorCode) s with
    | some (_, s) => some (.gettingCurrent task workspace result, s)
    | none => some (.exiting task (.raised .other) (some runId), s)
  | .gettingCurrent task workspace result, s =>
    match readTask c task.taskId s with
    | none => some (.exiting task (.raised .other) none, s)
    | some current =>
      if current.status = .cancelled then some (.notifyingCancelled task current, s)
      else some (.gotCurrent task current workspace result, s)
  | .gotCurrent task current workspace result, s =>
    match o.finishEvent c current result workspace.branch with
    | .ok event => some (.finishingTask task current result event, s)
    | .error _ => some (.exiting task (.raised .other) none, s)
  | .finishingTask task current result event, s =>
    (commit c event (finishTask current result) s).map fun
      | some (final, s) => (.exiting task (.completed final) none, s)
      | none => (.exiting task (.raised .other) none, s)
  | .notifyingCancelled task current, s =>
    some (.exiting task (.returned (result current none)) none, s)
  | .exiting task body openRun, s => some (leave task openRun body c.exited, s)
  | .closingRun task runId, s =>
    match call c (Store.finishRun runId.val .failed c.time none (some runtimeException)) s with
    | some (_, s) => some (.gettingFailed task, s)
    | none => some (.gettingFailed task, s)
  | .gettingFailed task, s =>
    match readTask c task.taskId s with
    | none => some (.done .raised, s)
    | some current =>
      if current.status.isTerminal then some (.done (.returned (result current none)), s)
      else some (.gettingSettled current (.fail "runtime-exception"), s)
  | .gettingSettled task settlement, s =>
    match readTask c task.taskId s with
    | none => some (.done .raised, s)
    | some current => some (.gotSettled current settlement, s)
  | .gotSettled current settlement, s =>
    match settlement.event o c current with
    | .ok event => some (.settling current settlement event, s)
    | .error _ => some (.done .raised, s)
  | .settling current settlement event, s =>
    (commit c event (Store.transitionTask current.taskId.val settlement.target) s).map fun
      | some (task, s) => (.notifying (result task (some settlement.errorCode)), s)
      | none => (.done .raised, s)
  | .notifying result, s => some (.done (.returned result), s)
  | .done _, _ => none

/-- Take a `cancel_task` call for `taskId` past one await. -/
def cancelNext (o : Orchestrator) (taskId : TaskId) (c : Choice) :
    CancelPc → Store → Option (CancelPc × Store)
  | .gettingTask, s =>
    match readTask c taskId s with
    | none => some (.done none, s)
    | some task =>
      if task.status.isTerminal then some (.done (some task), s)
      else if task.status = .running then some (.cancellingRuntime task, s)
      else some (.gotTask task, s)
  | .cancellingRuntime task, s =>
    -- A `LookupError`, from a runtime that does not know the task yet, is suppressed.
    if c.cancelRaises then some (.done none, s) else some (.gotTask task, s)
  | .gotTask task, s =>
    match o.cancelEvent c task with
    | .ok event => some (.cancelling task event, s)
    | .error _ => some (.done none, s)
  | .cancelling _ event, s =>
    (commit c event (Store.cancelTask taskId.val) s).map fun
      | some (cancelled, s) => (.notifying cancelled, s)
      | none => (.done none, s)
  | .notifying cancelled, s => some (.done (some cancelled), s)
  | .done _, _ => none

/-! ## Interleavings -/

/-- The store, the clock, the free places of the semaphore, and the calls for one task. -/
structure OrchestratorState (ι κ : Type) where
  store : Store
  clock : Timestamp
  permits : Nat
  processes : ι → ProcessPc
  cancels : κ → CancelPc

/-- Who takes a step: a call, or another writer of the store. -/
inductive OrchestratorLabel (ι κ : Type) where
  | process (i : ι) (c : Choice)
  | cancel (j : κ) (c : Choice)
  | other (op : WriteOp)

def OrchestratorLabel.isCall {ι κ : Type} : OrchestratorLabel ι κ → Bool
  | process .. | cancel .. => true
  | other _ => false

def ProcessPc.isDone : ProcessPc → Bool
  | .done _ => true
  | _ => false

namespace Orchestrator

variable {ι κ : Type} [DecidableEq ι] [DecidableEq κ]

def next (o : Orchestrator) (taskId : TaskId) (s : OrchestratorState ι κ) :
    OrchestratorLabel ι κ → Option (OrchestratorState ι κ)
  | .process i c =>
    match s.processes i with
    | .waiting =>
      if s.permits = 0 then none
      else some { s with
        clock := c.time
        permits := s.permits - 1
        processes := Function.update s.processes i .gettingTask }
    | pc => (processNext o taskId c pc s.store).map fun r => { s with
        store := r.2
        clock := c.time
        permits := if r.1.isDone then s.permits + 1 else s.permits
        processes := Function.update s.processes i r.1 }
  | .cancel j c => (cancelNext o taskId c (s.cancels j) s.store).map fun r => { s with
      store := r.2
      clock := c.time
      cancels := Function.update s.cancels j r.1 }
  | .other op =>
    if op.FreshUuids s.store then some { s with store := op.after s.store } else none

/-- No call has begun. -/
def Idle (o : Orchestrator) (s : OrchestratorState ι κ) : Prop :=
  s.store.Coherent ∧ s.permits = o.maxConcurrentTasks ∧
    (∀ i, s.processes i = .waiting) ∧ ∀ j, s.cancels j = .gettingTask

/-- Any number of `process_task` and `cancel_task` calls for `taskId` on a store in which other
writers may write too. -/
def system (o : Orchestrator) (taskId : TaskId) :
    System (OrchestratorState ι κ) (OrchestratorLabel ι κ) :=
  .ofNext o.Idle (o.next taskId)

/-- The runs in which only the calls for `taskId` write to the store. -/
def calls (o : Orchestrator) (taskId : TaskId) :
    System (OrchestratorState ι κ) (OrchestratorLabel ι κ) :=
  (o.system taskId).guard fun _ a => a.isCall = true

end Orchestrator

end AIHub
