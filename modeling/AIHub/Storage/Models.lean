import AIHub.Domain.Events

/-!
# Storage records

The records the store keeps beside tasks and events: runs, artifacts, gateway requests, routes
and delivery receipts, each with the checks its model makes.
-/

namespace AIHub

abbrev RunId := Constrained ⟨5, 68, upperIdPattern "RUN-"⟩
abbrev ArtifactId := Constrained ⟨5, 68, upperIdPattern "ART-"⟩

/-- `[A-Za-z0-9][A-Za-z0-9._:-]*`. -/
def opaquePattern : List Char → Bool :=
  Text.headThen Text.isAlnum fun c =>
    Text.isAlnum c || c == '.' || c == '_' || c == ':' || c == '-'

abbrev IdempotencyKey := Constrained ⟨1, 200, opaquePattern⟩

/-! ## Secrets -/

def forbiddenResponseKeys : List String :=
  ["access_token", "api_key", "apikey", "authorization", "client_secret", "cookie", "credentials",
    "password", "private_key", "refresh_token", "secret", "token"]

def forbiddenResponseSuffixes : List String :=
  ["_password", "_secret", "_token", "_api_key", "_private_key"]

def forbiddenResponseKey (key : String) : Bool :=
  key ∈ forbiddenResponseKeys ||
    forbiddenResponseSuffixes.any fun suffix => suffix.toList.isSuffixOf key.toList

def findForbiddenKey (response : JsonObject) : Option String :=
  findForbidden forbiddenResponseKey (.object response) "response"

/-- The texts `_reject_secret_shaped_value` refuses. -/
def secretShaped (cs : List Char) : Bool :=
  let lowered := cs.flatMap Text.lowerChar
  (["sk-", "xapp-", "xoxa-", "xoxb-", "xoxp-", "xoxr-", "xoxs-"].any fun p =>
      p.toList.isPrefixOf lowered) ||
    ["api_key", "apikey", "password", "private_key", "secret=", "token="].any fun m =>
      Text.contains m.toList lowered

/-- An `OpaqueRouteValue` that is not secret-shaped. -/
abbrev RouteValue := Constrained ⟨1, 200, fun cs => opaquePattern cs && !secretShaped cs⟩

def RouteValue.validate (field s : String) : Except HubError RouteValue :=
  match StringConstraints.parse ⟨1, 200, fun cs => opaquePattern cs && !secretShaped cs⟩ s with
  | some v => .ok v
  | none =>
    if secretShaped s.toList then
      .error (.validation s!"{field} must not contain a secret-shaped value")
    else .error (.validation s!"{field} is not a valid string")

/-- The value of a stored key is validated to itself. -/
theorem RouteValue.validate_val (field : String) (v : RouteValue) :
    RouteValue.validate field v.val = .ok v := by
  rw [RouteValue.validate, Constrained.parse_val]

/-! ## Runs -/

inductive RunStatus where
  | queued | running | succeeded | failed | timedOut | cancelled | interrupted
  deriving DecidableEq, Repr

namespace RunStatus

def value : RunStatus → String
  | queued => "queued"
  | running => "running"
  | succeeded => "succeeded"
  | failed => "failed"
  | timedOut => "timed-out"
  | cancelled => "cancelled"
  | interrupted => "interrupted"

def isTerminal : RunStatus → Bool
  | queued | running => false
  | _ => true

end RunStatus

structure RunFields where
  runId : RunId
  taskId : TaskId
  agent : Identifier
  runtime : Identifier
  status : RunStatus := .queued
  createdAt : Timestamp
  startedAt : Option Timestamp := none
  completedAt : Option Timestamp := none
  exitCode : Option Int := none
  errorCode : Option Identifier := none
  deriving DecidableEq

namespace RunFields

/-- The timestamps the status asks for. -/
def validateStatusTimes (r : RunFields) : Except HubError Unit :=
  match r.status with
  | .queued =>
    if r.startedAt.isSome || r.completedAt.isSome then
      .error (.validation "queued runs must not have execution timestamps")
    else .ok ()
  | .running =>
    if r.startedAt.isNone || r.completedAt.isSome then
      .error (.validation "running runs require started_at and no completed_at")
    else .ok ()
  | _ =>
    if r.startedAt.isNone || r.completedAt.isNone then
      .error (.validation "terminal runs require started_at and completed_at")
    else .ok ()

def validateLifecycle (r : RunFields) : Except HubError Unit :=
  if r.startedAt.any (· < r.createdAt) then
    .error (.validation "started_at must not precede created_at")
  else r.validateStatusTimes.bind fun _ =>
    if r.completedAt.any fun done => r.startedAt.any (done < ·) then
      .error (.validation "completed_at must not precede started_at")
    else if r.status = .succeeded ∧ r.errorCode.isSome then
      .error (.validation "successful runs must not have an error_code")
    else .ok ()

end RunFields

/-- A run its validator accepts. -/
structure RunRecord extends RunFields where
  lifecycle : toRunFields.validateLifecycle = .ok ()
  deriving DecidableEq

namespace RunRecord

@[ext] theorem ext {a b : RunRecord} (h : a.toRunFields = b.toRunFields) : a = b := by
  cases a; cases b; cases h; rfl

/-- `RunRecord.model_validate`. -/
def modelValidate (f : RunFields) : Except HubError RunRecord :=
  match h : f.validateLifecycle with
  | .ok () => .ok ⟨f, h⟩
  | .error e => .error e

theorem modelValidate_eq_ok {f : RunFields} {r : RunRecord} :
    modelValidate f = .ok r ↔ r.toRunFields = f := by
  unfold modelValidate
  split
  · rename_i h
    exact Iff.intro (fun hr => by cases hr; rfl) (fun hr => by subst hr; rfl)
  · rename_i e h
    constructor
    · intro hr
      cases hr
    · intro hr
      rw [← hr, r.lifecycle] at h
      cases h

theorem modelValidate_of_lifecycle {f : RunFields} (h : f.validateLifecycle = .ok ()) :
    ∃ r : RunRecord, modelValidate f = .ok r ∧ r.toRunFields = f :=
  ⟨⟨f, h⟩, modelValidate_eq_ok.2 rfl, rfl⟩

/-- A run does not start before it is created. -/
theorem created_le_started (r : RunRecord) : ∀ t ∈ r.startedAt, r.createdAt ≤ t := by
  refine Timestamp.any_lt_eq_false.1 (Bool.eq_false_iff.2 fun hstarted => ?_)
  have h := r.lifecycle
  rw [RunFields.validateLifecycle, if_pos hstarted] at h
  cases h

/-- The start that a run gets when it ends lies between its creation and its end. -/
theorem started_between (r : RunRecord) {time : Timestamp} (hcreated : r.createdAt ≤ time)
    (hstarted : ∀ t ∈ r.startedAt, t ≤ time) :
    r.createdAt ≤ r.startedAt.getD r.createdAt ∧ r.startedAt.getD r.createdAt ≤ time := by
  cases hst : r.startedAt with
  | none => exact ⟨le_rfl, hcreated⟩
  | some t => exact ⟨r.created_le_started t hst, hstarted t hst⟩

end RunRecord

/-! ## Artifacts, gateway requests, routes and receipts -/

structure ArtifactMetadata where
  artifactId : ArtifactId
  taskId : TaskId
  runId : Option RunId := none
  kind : Identifier
  path : String
  contentType : String
  sizeBytes : Nat
  sha256 : String
  createdAt : Timestamp
  deriving DecidableEq

structure GatewayRequestRecord where
  idempotencyKey : IdempotencyKey
  response : Option JsonObject := none
  createdAt : Timestamp
  deriving DecidableEq

/-- `GatewayRequestRecord(idempotency_key=…, response=…)`: the normalised key, unless key or
response is refused. -/
def GatewayRequestRecord.validate (key : String) (response : Option JsonObject)
    (createdAt : Timestamp) : Except HubError GatewayRequestRecord :=
  match StringConstraints.parse ⟨1, 200, opaquePattern⟩ key with
  | none => .error (.validation "idempotency_key is not a valid string")
  | some k =>
    match response.bind findForbiddenKey with
    | some path =>
      .error (.validation s!"gateway response must not contain secret field '{path}'")
    | none => .ok ⟨k, response, createdAt⟩

structure TaskRoute where
  taskId : TaskId
  source : RouteValue
  target : RouteValue
  deriving DecidableEq

inductive DeliveryState where
  | reserved | delivered
  deriving DecidableEq, Repr

def DeliveryState.value : DeliveryState → String
  | reserved => "reserved"
  | delivered => "delivered"

structure DeliveryReceipt where
  deliveryId : RouteValue
  state : DeliveryState := .reserved
  createdAt : Timestamp
  deliveredAt : Option Timestamp := none
  deriving DecidableEq

/-- `validate_delivery_state`. -/
def DeliveryReceipt.validateState (r : DeliveryReceipt) : Except HubError DeliveryReceipt :=
  if r.state = .reserved ∧ r.deliveredAt.isSome then
    .error (.validation "reserved delivery must not have delivered_at")
  else if r.state = .delivered ∧ r.deliveredAt.isNone then
    .error (.validation "delivered receipt requires delivered_at")
  else if r.deliveredAt.any (· < r.createdAt) then
    .error (.validation "delivered_at must not precede created_at")
  else .ok r

end AIHub
