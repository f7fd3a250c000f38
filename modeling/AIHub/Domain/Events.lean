import AIHub.Domain.Json
import AIHub.Domain.Tasks

/-!
# Event envelopes

The observable events of the hub. An `EventEnvelope` carries the proof that `validate_context`
accepts it: the references its type requires are there, it does not cause itself, and no key of
its payload names a secret.
-/

namespace AIHub

abbrev EventMessage := Constrained ⟨1, 2000, fun _ => true⟩

abbrev Uuid := BitVec 128

inductive EventType where
  | taskCreated | taskQueued | taskStarted | taskBlocked | taskCompleted | taskFailed
  | taskCancelled | teamActivated | teamIdle | agentAssigned | agentStarted | agentStatusChanged
  | agentCompleted | agentFailed | reviewRequested | reviewStarted | reviewCompleted | qaRequested
  | qaStarted | qaCompleted | artifactCreated | artifactTransferred | projectTaskRouted
  deriving DecidableEq, Repr

namespace EventType

def value : EventType → String
  | taskCreated => "task.created"
  | taskQueued => "task.queued"
  | taskStarted => "task.started"
  | taskBlocked => "task.blocked"
  | taskCompleted => "task.completed"
  | taskFailed => "task.failed"
  | taskCancelled => "task.cancelled"
  | teamActivated => "team.activated"
  | teamIdle => "team.idle"
  | agentAssigned => "agent.assigned"
  | agentStarted => "agent.started"
  | agentStatusChanged => "agent.status_changed"
  | agentCompleted => "agent.completed"
  | agentFailed => "agent.failed"
  | reviewRequested => "review.requested"
  | reviewStarted => "review.started"
  | reviewCompleted => "review.completed"
  | qaRequested => "qa.requested"
  | qaStarted => "qa.started"
  | qaCompleted => "qa.completed"
  | artifactCreated => "artifact.created"
  | artifactTransferred => "artifact.transferred"
  | projectTaskRouted => "project.task.routed"

/-- `value.split(".", maxsplit=1)[0]`. -/
def category (t : EventType) : String := String.ofList (t.value.toList.takeWhile (· ≠ '.'))

/-- The categories whose events are about a task. -/
def needsTask (t : EventType) : Bool := t.category ∈ ["task", "review", "qa", "artifact"]

end EventType

inductive EventLevel where
  | debug | info | warning | error
  deriving DecidableEq, Repr

def forbiddenPayloadKeys : List String :=
  ["access_token", "api_key", "apikey", "authorization", "authorization_header", "client_secret",
    "cookie", "credentials", "github_token", "openai_api_key", "password", "private_key",
    "refresh_token", "secret", "signing_secret", "slack_app_token", "slack_bot_token", "token"]

def findForbiddenPayloadKey (payload : JsonObject) : Option String :=
  findForbidden (· ∈ forbiddenPayloadKeys) (.object payload) "payload"

structure EventFields where
  eventId : Uuid
  eventType : EventType
  timestamp : Timestamp
  taskId : Option TaskId := none
  project : Option Identifier := none
  team : Option Identifier := none
  agent : Option Identifier := none
  correlationId : Option Uuid := none
  causationId : Option Uuid := none
  level : EventLevel := .info
  message : Option EventMessage := none
  payload : JsonObject := []
  deriving DecidableEq

namespace EventFields

/-- `payload.get("status")`. -/
def payloadStatus (e : EventFields) : Option JsonValue := e.payload.get? "status"

/-- The references a routed task must name, with the ones that are missing. -/
def missingForRouting (e : EventFields) : List String :=
  (if e.taskId.isNone then ["task_id"] else []) ++ (if e.project.isNone then ["project"] else []) ++
    (if e.team.isNone then ["team"] else [])

/-- The message about the references that are missing. -/
def routingMessage (e : EventFields) : String :=
  let missing := ", ".intercalate e.missingForRouting
  s!"{e.eventType.value} requires {missing}"

def validateContext (e : EventFields) : Except HubError Unit :=
  if e.eventType.needsTask && e.taskId.isNone then
    .error (.validation s!"{e.eventType.value} requires task_id")
  else if e.eventType.category = "team" && e.team.isNone then
    .error (.validation s!"{e.eventType.value} requires team")
  else if e.eventType.category = "agent" && e.agent.isNone then
    .error (.validation s!"{e.eventType.value} requires agent")
  else if e.eventType = .projectTaskRouted && e.missingForRouting ≠ [] then
    .error (.validation e.routingMessage)
  else if e.causationId = some e.eventId then
    .error (.validation "an event must not cause itself")
  else match findForbiddenPayloadKey e.payload with
    | some key => .error (.validation s!"event payload must not contain secret field '{key}'")
    | none => .ok ()

/-- An event about a task and an agent whose payload is free of secret keys is well formed. -/
theorem validateContext_ok {e : EventFields} (htask : e.taskId.isSome)
    (hagent : e.eventType.category = "agent" → e.agent.isSome)
    (htype : e.eventType.category ≠ "team" ∧ e.eventType ≠ .projectTaskRouted)
    (hcause : e.causationId ≠ some e.eventId)
    (hpayload : findForbiddenPayloadKey e.payload = none) : e.validateContext = .ok () := by
  have ht : e.taskId.isNone = false := by simpa using htask
  have ha : (e.eventType.category = "agent" && e.agent.isNone) = false := by
    by_cases h : e.eventType.category = "agent"
    · simp [h, Option.isNone_eq_false_iff.2 (hagent h)]
    · simp [h]
  simp [validateContext, ht, ha, htype.1, htype.2, hcause, hpayload]

end EventFields

/-- An event its validator accepts. -/
structure EventEnvelope extends EventFields where
  context : toEventFields.validateContext = .ok ()
  deriving DecidableEq

namespace EventEnvelope

@[ext] theorem ext {a b : EventEnvelope} (h : a.toEventFields = b.toEventFields) : a = b := by
  cases a; cases b; cases h; rfl

/-- `EventEnvelope.model_validate`. -/
def modelValidate (f : EventFields) : Except HubError EventEnvelope :=
  match h : f.validateContext with
  | .ok () => .ok ⟨f, h⟩
  | .error e => .error e

theorem modelValidate_eq_ok {f : EventFields} {e : EventEnvelope} :
    modelValidate f = .ok e ↔ e.toEventFields = f := by
  unfold modelValidate
  split
  · rename_i h
    exact Iff.intro (fun he => by cases he; rfl) (fun he => by subst he; rfl)
  · rename_i err h
    constructor
    · intro he
      cases he
    · intro he
      rw [← he, e.context] at h
      cases h

theorem modelValidate_of_context {f : EventFields} (h : f.validateContext = .ok ()) :
    ∃ e : EventEnvelope, modelValidate f = .ok e ∧ e.toEventFields = f :=
  ⟨⟨f, h⟩, modelValidate_eq_ok.2 rfl, rfl⟩

end EventEnvelope

end AIHub
