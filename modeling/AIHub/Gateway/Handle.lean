import AIHub.Gateway.Responses

/-!
# Handling a request

`AgentGateway.handle` as a program that stops at its awaits. It authorizes the actor, looks the
request up by its idempotency key, reserves the key, dispatches the command, and then remembers the
response or releases the key.

**Stages.** A stage says which await comes next. In the stages after a successful reservation the
handler *holds* the key (`HandleStage.holds`).

**Deduplicators.** What a call to the deduplicator does is left open here. A handler asks for a
call (`HandleStage.call`) and goes on with the reply (`HandleStage.resume`).
-/

namespace AIHub

/-! ## Fixed responses -/

namespace GatewayResponse

def authorizationUnavailable : GatewayResponse where
  success := false
  code := .unavailable
  message := ⟨"Authorization is temporarily unavailable.", by decide +kernel⟩

def unauthorized : GatewayResponse where
  success := false
  code := .unauthorized
  message := ⟨"This actor is not authorized to use the AI Hub.", by decide +kernel⟩

def credentialMaterial : GatewayResponse where
  success := false
  code := .invalidRequest
  message := ⟨"Task instructions must not contain credential material.", by decide +kernel⟩

def deduplicationUnavailable : GatewayResponse where
  success := false
  code := .unavailable
  message := ⟨"Request deduplication is temporarily unavailable.", by decide +kernel⟩

def alreadyProcessed : GatewayResponse where
  success := true
  code := .duplicate
  message := ⟨"This request is already being processed.", by decide +kernel⟩
  replayed := true

def taskNotFound : GatewayResponse where
  success := false
  code := .notFound
  message := ⟨"The requested task was not found.", by decide +kernel⟩

def taskConflict : GatewayResponse where
  success := false
  code := .conflict
  message := ⟨"The task cannot be changed from its current state.", by decide +kernel⟩

def dependencyUnavailable : GatewayResponse where
  success := false
  code := .unavailable
  message := ⟨"A required AI Hub component is temporarily unavailable.", by decide +kernel⟩

def internalError : GatewayResponse where
  success := false
  code := .internalError
  message := ⟨"The AI Hub could not process this request safely.", by decide +kernel⟩

/-- The response whose receipt could not be stored. -/
def receiptLost (r : GatewayResponse) : GatewayResponse where
  success := false
  code := .unavailable
  message := ⟨"The request was processed, but its response receipt could not be stored. " ++
    "Check task status before retrying.", by decide +kernel⟩
  task := r.task
  tasks := r.tasks
  bounded := r.bounded

/-- `model_copy(update={"replayed": True})`. -/
def replay (r : GatewayResponse) : GatewayResponse := { r with replayed := true }

/-- The codes after which the key is released. -/
def isTransient (r : GatewayResponse) : Bool :=
  r.code = .unavailable || r.code = .internalError

/-- The response does not say what becomes of the command: the request is being processed, or the
response is transient. -/
def isInterim (r : GatewayResponse) : Bool := r = .alreadyProcessed || r.isTransient

end GatewayResponse

/-! ## Calls to the deduplicator -/

inductive DedupCall where
  | get (key : String)
  | reserve (key : String)
  | remember (key : String) (response : GatewayResponse)
  | release (key : String)
  deriving DecidableEq

inductive DedupReply where
  | found (response : Option GatewayResponse)
  | reserved (b : Bool)
  | done
  | raised
  deriving DecidableEq

/-- What becomes of the dispatch. -/
inductive DispatchOutcome where
  | response (r : GatewayResponse)
  | error (e : PortError)
  /-- A `BaseException` that is not an `Exception`, as when the task is cancelled. -/
  | interrupted

/-! ## Stages -/

inductive HandleStage where
  | authorizing
  | looking
  | reserving
  | dispatching
  | remembering (response : GatewayResponse)
  /-- Before the release, after which the response is returned, or the interruption goes on. -/
  | releasing (response : Option GatewayResponse)
  | returned (response : GatewayResponse)
  | interrupted
  deriving DecidableEq

namespace HandleStage

/-- The handler has reserved its key, and neither remembered a response nor released the key. -/
def holds : HandleStage → Bool
  | dispatching | remembering _ | releasing _ => true
  | authorizing | looking | reserving | returned _ | interrupted => false

/-- The handler has returned an interim response. -/
def returnsInterim : HandleStage → Bool
  | returned response => response.isInterim
  | authorizing | looking | reserving | dispatching | remembering _ | releasing _ | interrupted =>
    false

/-- The call that comes next. -/
def call (key : String) : HandleStage → Option DedupCall
  | looking => some (.get key)
  | reserving => some (.reserve key)
  | remembering response => some (.remember key response)
  | releasing _ => some (.release key)
  | authorizing | dispatching | returned _ | interrupted => none

/-- After the answer of the authorizer, unless it raises; `sensitive` is
`contains_sensitive_material`. -/
def authorized (sensitive : String → Bool) (request : GatewayRequest) :
    Option Bool → HandleStage
  | none => returned .authorizationUnavailable
  | some false => returned .unauthorized
  | some true =>
    if request.instruction.any fun instruction => sensitive instruction.val then
      returned .credentialMaterial
    else looking

/-- After the dispatch. -/
def dispatched : DispatchOutcome → HandleStage
  | .interrupted => releasing none
  | .response r => if r.isTransient then releasing (some r) else remembering r
  | .error (.taskNotFound _) => remembering .taskNotFound
  | .error (.taskConflict _) => remembering .taskConflict
  | .error (.dependencyUnavailable _) => releasing (some .dependencyUnavailable)
  | .error (.other _) => releasing (some .internalError)

/-- After a call of the deduplicator. -/
def resume : HandleStage → DedupReply → Option HandleStage
  | looking, .found (some cached) => some (returned cached.replay)
  | looking, .found none => some reserving
  | looking, .raised => some (returned .deduplicationUnavailable)
  | reserving, .reserved true => some dispatching
  | reserving, .reserved false => some (returned .alreadyProcessed)
  | reserving, .raised => some (returned .deduplicationUnavailable)
  | remembering response, .done => some (returned response)
  | remembering response, .raised => some (returned response.receiptLost)
  | releasing (some response), .done | releasing (some response), .raised =>
    some (returned response)
  | releasing none, .done | releasing none, .raised => some interrupted
  | _, _ => none

/-- After an interruption at an await. Only a dispatch is followed by a release. -/
def interrupt : HandleStage → Option HandleStage
  | dispatching => some (releasing none)
  | authorizing | looking | reserving | remembering _ | releasing _ => some interrupted
  | returned _ | interrupted => none

end HandleStage

end AIHub
