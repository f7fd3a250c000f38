import AIHub.Application.Redeliveries
import AIHub.Gateway.Replays
import AIHub.Gateway.Security
import AIHub.Orchestrator.Quiet

/-!
# The hub

The parts that `build_application` puts together over one store: any number of executions of
`AgentGateway.handle`, each with a request of its own and with the ports that answer it, any number
of calls of `process_task`, and the receipts of deliveries. They are interleaved at their awaits.
Handlers may be interrupted, the store may fail, and the process may crash and start again.

An execution is a handler (`DurableGateway`) with a dispatch, which begins once the handler has its
key. A dispatch is not stopped by an interruption of the handler: the call of the store that is
under way ends in its thread. So the model lets it go on.

* `next_moves`: what a step does to the parts of the hub (`Moves`).
* `Moves.effect`: what it writes to the store (`Effect`); what it makes anew belongs to a request.
-/

namespace AIHub

open Config Transition

/-! ## Ports -/

/-- `contains_sensitive_material`. -/
def containsSensitiveMaterial (alnum : Char → Bool) (value : String) : Bool :=
  redactSensitiveText alnum value (max value.length 14) ≠ value

/-- `AllowlistAuthorizer.is_authorized`. -/
def isAuthorized (allowedActorIds : List String) (actorId : OpaqueId) : Bool :=
  allowedActorIds.contains actorId.val

/-- `SELECT task_json FROM tasks ORDER BY created_at DESC, task_id LIMIT ?`. -/
def Store.listTasks (limit : Int) (s : Store) : Except HubError (List Task) := do
  raiseIf (¬ (1 ≤ limit ∧ limit ≤ 1000)) (.value "limit must be an integer between 1 and 1000")
  return ((s.tasks.rows.insertionSort fun a b => b.createdAt.isoformat < a.createdAt.isoformat ∨
    (a.createdAt.isoformat = b.createdAt.isoformat ∧ a.key ≤ b.key)).take limit.toNat).map
      TaskRow.taskJson

namespace GatewayTaskAdapter

def storeUnavailable : PortError := .dependencyUnavailable "task store is unavailable"

/-- `get_task`; `fault` says that the store fails. -/
def getTask (fault : Bool) (s : Store) (taskId : TaskId) : Except PortError (Option TaskView) :=
  if fault then .error storeUnavailable
  else
    match s.getTask taskId.val with
    | .ok task => .ok (some (.ofTask task))
    | .error (.recordNotFound _) => .ok none
    | .error e => if e.isStorage then .error storeUnavailable else .error (.other e)

def listTasks (fault : Bool) (s : Store) (limit : Nat) : Except PortError (List TaskView) :=
  if fault then .error storeUnavailable
  else
    match s.listTasks limit with
    | .ok tasks => .ok (tasks.map .ofTask)
    | .error e => if e.isStorage then .error storeUnavailable else .error (.other e)

end GatewayTaskAdapter

/-! ## The parts -/

/-- The hub, with the requests of the executions and the tasks of the calls of `process_task`. -/
structure Hub (ι κ : Type) where
  uuid5 : String → Uuid
  bundle : ConfigBundle
  allowedActorIds : List String
  /-- The letters and digits beyond those of ASCII. -/
  alnum : Char → Bool
  orchestrator : Orchestrator
  requests : ι → GatewayRequest
  tasks : κ → TaskId

def Hub.sensitive {ι κ : Type} (H : Hub ι κ) : String → Bool := containsSensitiveMaterial H.alnum

/-- Where the dispatch of a request stands. -/
inductive DispatchPc where
  | waiting
  | creating (pc : CreatePc)
  | cancelling (pc : CancelPc)
  | querying
  | ended (outcome : DispatchOutcome)

/-- How the dispatch has ended. -/
def DispatchPc.outcome : DispatchPc → Option DispatchOutcome
  | .creating (.ended outcome) | .ended outcome => some outcome
  | .waiting | .creating _ | .cancelling _ | .querying => none

/-- What the environment does at a step of a dispatch. -/
structure DispatchChoice where
  create : CreateChoice
  cancel : Choice
  /-- A call of the store for the creation or the query of a task fails. -/
  fault : Bool := false
  /-- What the adapter makes of the exception of `cancel_task`. -/
  cancelError : PortError := GatewayTaskAdapter.storeUnavailable

namespace Hub

variable {ι κ : Type}

structure State (ι κ : Type) where
  gateway : DurableGateway.State ι
  dispatches : ι → DispatchPc
  processes : κ → ProcessPc
  phase : HubPhase

def State.store (s : State ι κ) : Store := s.gateway.store

def State.withStore (s : State ι κ) (store : Store) : State ι κ :=
  { s with gateway := { s.gateway with store } }

@[simp] theorem State.store_withStore (s : State ι κ) (store : Store) :
    (s.withStore store).store = store := rfl

inductive Event (ι κ : Type) where
  | authorized (i : ι)
  /-- The next call of a handler to the deduplicator. -/
  | called (i : ι) (time : Timestamp) (fate : DedupFate)
  /-- A step of the dispatch. -/
  | dispatching (i : ι) (c : DispatchChoice)
  | dispatched (i : ι)
  | interrupted (i : ι)
  /-- The call that an interrupted handler has left to its thread. -/
  | ranLeft (i : ι) (time : Timestamp) (fate : DedupFate)
  /-- A step of a call of `process_task`. -/
  | processed (k : κ) (c : Choice)
  | reservedDelivery (id : String) (time : Timestamp)
  | markedDelivered (id : String) (time : Timestamp)
  | releasedDelivery (id : String)
  | crashed
  | reconciled (time : Timestamp) (uuid4 : TaskId → Uuid)

variable (H : Hub ι κ)

/-- The handlers of the gateway. -/
def handlers : DurableGateway ι := ⟨H.sensitive, H.requests⟩

/-- The ports of the gateway over a store. Those that write are given by what they answer. -/
def ports (c : DispatchChoice) (s : Store) (cancelled : Except PortError TaskView) :
    AgentGateway where
  uuid5 := H.uuid5
  createdTask _ := .error (.taskNotFound "project is not registered")
  cancelledTask _ := cancelled
  foundTask := GatewayTaskAdapter.getTask c.fault s
  listedTasks := GatewayTaskAdapter.listTasks c.fault s
  enqueuedTask _ := .error GatewayTaskAdapter.storeUnavailable

/-- What `project` must be for the task of a request to be made. -/
def Registered (i : ι) : Prop :=
  ∀ project ∈ (H.requests i).project, (H.bundle.projects.get? project).isSome = true

instance (i : ι) : Decidable (H.Registered i) :=
  inferInstanceAs (Decidable (∀ project ∈ (H.requests i).project, _))

/-- A request that makes a task. -/
def devRequest (i : ι) (hdev : (H.requests i).command = .dev) (hregistered : H.Registered i) :
    DevRequest where
  gateway :=
    { uuid5 := H.uuid5
      createdTask := fun _ => .error GatewayTaskAdapter.storeUnavailable
      cancelledTask := fun _ => .error GatewayTaskAdapter.storeUnavailable
      foundTask := fun _ => .error GatewayTaskAdapter.storeUnavailable
      listedTasks := fun _ => .error GatewayTaskAdapter.storeUnavailable
      enqueuedTask := fun _ => .error GatewayTaskAdapter.storeUnavailable }
  bundle := H.bundle
  sensitive := H.sensitive
  request := H.requests i
  dev := hdev
  registered := hregistered

def devRequest? (i : ι) : Option DevRequest :=
  if h : (H.requests i).command = .dev ∧ H.Registered i then some (H.devRequest i h.1 h.2)
  else none

/-! ## Dispatches -/

/-- A store call of `create_task` or `enqueue_task` fails. -/
def createFails (R : DevRequest) : CreatePc → Option CreatePc
  | .starting => some (R.failed GatewayTaskAdapter.storeUnavailable)
  -- These calls stand in the `except` clause for a `DuplicateTaskError`.
  | .comparing _ | .comparingRoute _ _ =>
    some (R.failed (.other (.unavailable "task store is unavailable")))
  | .enqueuing task | .queueing task _ _ =>
    some (.ended (R.outcome (.ok task) (.error GatewayTaskAdapter.storeUnavailable)))
  | .waking _ _ | .ended _ => none

/-- The first step of `_dispatch`. -/
def begin (i : ι) (c : DispatchChoice) (s : Store) : DispatchPc :=
  match (H.requests i).command with
  | .dev =>
    if H.Registered i then .creating .starting
    else .ended ((H.ports c s (.error c.cancelError)).outcome (H.requests i))
  | .stop => .cancelling .gettingTask
  | .help | .task | .tasks | .status => .querying

/-- The answer of the canceller, as `GatewayTaskAdapter.cancel_task` passes it on. -/
def cancelled (c : DispatchChoice) : Option Task → Except PortError TaskView
  | some task => .ok (.ofTask task)
  | none => .error c.cancelError

/-- Take a dispatch past one await. -/
def dispatchNext (i : ι) (c : DispatchChoice) :
    DispatchPc → Store → Option (DispatchPc × Store)
  | .waiting, s => some (H.begin i c s, s)
  | .creating pc, s => do
    let R ← H.devRequest? i
    if c.fault then return (.creating (← createFails R pc), s)
    let (pc, s) ← R.createNext c.create pc s
    return (.creating pc, s)
  | .cancelling (.done result), s =>
    some (.ended ((H.ports c s (cancelled c result)).outcome (H.requests i)), s)
  | .cancelling pc, s => do
    let taskId ← (H.requests i).taskId
    let (pc, s) ← cancelNext H.orchestrator taskId c.cancel pc s
    return (.cancelling pc, s)
  | .querying, s =>
    some (.ended ((H.ports c s (.error c.cancelError)).outcome (H.requests i)), s)
  | .ended _, _ => none

/-! ## Steps -/

variable [DecidableEq ι] [DecidableEq κ]

/-- A step of a handler. -/
def handle (s : State ι κ) (a : DurableGateway.Event ι) : Option (State ι κ) :=
  (H.handlers.next s.gateway a).map fun gateway => { s with gateway }

/-- A step of the hub while it is up. -/
def serve (s : State ι κ) : Event ι κ → Option (State ι κ)
  | .authorized i =>
    H.handle s (.authorized i (some (isAuthorized H.allowedActorIds (H.requests i).actorId)))
  | .called i time fate => H.handle s (.called i time fate)
  | .dispatching i c =>
    if s.dispatches i matches .waiting ∧ s.gateway.stages i ≠ .dispatching then none
    else (H.dispatchNext i c (s.dispatches i) s.store).map fun (pc, store) =>
      { s.withStore store with dispatches := Function.update s.dispatches i pc }
  | .dispatched i =>
    (s.dispatches i).outcome.bind fun outcome => H.handle s (.dispatched i outcome)
  | .interrupted i => H.handle s (.interrupted i)
  | .ranLeft i time fate => H.handle s (.ranLeft i time fate)
  | .processed k c =>
    match s.processes k with
    | .waiting => some { s with processes := Function.update s.processes k .gettingTask }
    | pc => (processNext H.orchestrator (H.tasks k) c pc s.store).map fun (pc, store) =>
      { s.withStore store with processes := Function.update s.processes k pc }
  | .reservedDelivery id time =>
    some (s.withStore ((WriteOp.reserveDelivery id time).after s.store))
  | .markedDelivered id time =>
    some (s.withStore ((WriteOp.markDeliveryDelivered id time).after s.store))
  | .releasedDelivery id => some (s.withStore ((WriteOp.releaseDelivery id).after s.store))
  | .crashed | .reconciled _ _ => none

def next (s : State ι κ) : Event ι κ → Option (State ι κ)
  | .crashed => some {
      gateway := {
        stages := fun i => (s.gateway.stages i).afterCrash
        left := fun _ => none
        store := s.store }
      dispatches := fun _ => .waiting
      processes := fun _ => .waiting
      phase := .down }
  | .reconciled time uuid4 =>
    (s.phase.reconciliation time uuid4).bind fun (op, phase) =>
      if op.FreshUuids s.store ∧ op.Commits s.store then
        some { s.withStore (op.after s.store) with phase }
      else none
  | a => if s.phase = .up then H.serve s a else none

/-- At first the store is empty, and the hub starts. -/
def system : System (State ι κ) (Event ι κ) :=
  .ofNext (fun s => s.store = .empty ∧ (∀ i, s.gateway.stages i = .authorizing) ∧
    (∀ i, s.gateway.left i = none) ∧ (∀ i, s.dispatches i = .waiting) ∧
    (∀ k, s.processes k = .waiting) ∧ s.phase = .down) H.next

end Hub

namespace Hub

variable {ι κ : Type} {H : Hub ι κ}

/-! ## What a step does -/

/-- The event is one of the handlers. -/
inductive Handles (H : Hub ι κ) (s : State ι κ) : DurableGateway.Event ι → Prop
  | authorized (i : ι) :
    Handles H s (.authorized i (some (isAuthorized H.allowedActorIds (H.requests i).actorId)))
  | called (i : ι) (time : Timestamp) (fate : DedupFate) : Handles H s (.called i time fate)
  | dispatched (i : ι) (outcome : DispatchOutcome)
      (houtcome : (s.dispatches i).outcome = some outcome) : Handles H s (.dispatched i outcome)
  | interrupted (i : ι) : Handles H s (.interrupted i)
  | ranLeft (i : ι) (time : Timestamp) (fate : DedupFate) : Handles H s (.ranLeft i time fate)

variable {s t : State ι κ}

section

variable [DecidableEq ι] [DecidableEq κ]

/-- What a step does to the parts of the hub. -/
inductive Moves (H : Hub ι κ) (s : State ι κ) : State ι κ → Prop
  | handled (a : DurableGateway.Event ι) (gateway : DurableGateway.State ι)
      (hhandles : H.Handles s a) (hnext : H.handlers.next s.gateway a = some gateway) :
    Moves H s { s with gateway }
  /-- A dispatch begins when its handler has the key. -/
  | dispatching (i : ι) (c : DispatchChoice) (pc : DispatchPc) (store : Store)
      (hbegins : s.dispatches i = .waiting → s.gateway.stages i = .dispatching)
      (hnext : H.dispatchNext i c (s.dispatches i) s.store = some (pc, store)) :
    Moves H s { s.withStore store with dispatches := Function.update s.dispatches i pc }
  | called (k : κ) :
    Moves H s { s with processes := Function.update s.processes k .gettingTask }
  | processed (k : κ) (c : Choice) (pc : ProcessPc) (store : Store)
      (hnext : processNext H.orchestrator (H.tasks k) c (s.processes k) s.store =
        some (pc, store)) :
    Moves H s { s.withStore store with processes := Function.update s.processes k pc }
  /-- A quiet operation, or the reservations that a crash has left are dropped. -/
  | wrote (op : WriteOp) (phase : HubPhase)
      (hop : op.isQuiet = true ∨ op = .reconcileIncompleteGatewayRequests)
      (hfresh : op.FreshUuids s.store) : Moves H s { s.withStore (op.after s.store) with phase }
  | crashed : Moves H s {
      gateway := {
        stages := fun i => (s.gateway.stages i).afterCrash
        left := fun _ => none
        store := s.store }
      dispatches := fun _ => .waiting
      processes := fun _ => .waiting
      phase := .down }

theorem handle_moves {a : DurableGateway.Event ι}
    (hhandles : H.Handles s a) (h : H.handle s a = some t) : H.Moves s t := by
  obtain ⟨gateway, hnext, rfl⟩ := Option.map_eq_some_iff.1 h
  exact .handled a gateway hhandles hnext

theorem quiet_moves {op : WriteOp} (hquiet : op.isQuiet = true)
    (hfresh : op.FreshUuids s.store) (h : some (s.withStore (op.after s.store)) = some t) :
    H.Moves s t := by
  rw [← Option.some.inj h]
  exact .wrote op s.phase (.inl hquiet) hfresh

theorem serve_moves {a : Event ι κ} (h : H.serve s a = some t) : H.Moves s t := by
  cases a with
  | authorized i => exact handle_moves (.authorized i) h
  | called i time fate => exact handle_moves (.called i time fate) h
  | interrupted i => exact handle_moves (.interrupted i) h
  | ranLeft i time fate => exact handle_moves (.ranLeft i time fate) h
  | dispatched i =>
    obtain ⟨outcome, houtcome, h⟩ := Option.bind_eq_some_iff.1 h
    exact handle_moves (.dispatched i outcome houtcome) h
  | dispatching i c =>
    simp only [serve] at h
    split_ifs at h with hwaits
    obtain ⟨⟨pc, store⟩, hnext, rfl⟩ := Option.map_eq_some_iff.1 h
    refine .dispatching i c pc store (fun hpc => ?_) hnext
    by_contra hstage
    exact hwaits ⟨by rw [hpc], hstage⟩
  | processed k c =>
    simp only [serve] at h
    split at h
    · cases h
      exact .called k
    · obtain ⟨⟨pc, store⟩, hnext, rfl⟩ := Option.map_eq_some_iff.1 h
      exact .processed k c pc store hnext
  | reservedDelivery id time =>
    have hquiet : (WriteOp.reserveDelivery id time).isQuiet = true := rfl
    exact quiet_moves hquiet trivial h
  | markedDelivered id time =>
    have hquiet : (WriteOp.markDeliveryDelivered id time).isQuiet = true := rfl
    exact quiet_moves hquiet trivial h
  | releasedDelivery id =>
    have hquiet : (WriteOp.releaseDelivery id).isQuiet = true := rfl
    exact quiet_moves hquiet trivial h
  | crashed | reconciled => cases h

theorem next_moves {a : Event ι κ} (h : H.next s a = some t) : H.Moves s t := by
  cases a with
  | crashed =>
    cases h
    exact .crashed
  | reconciled time uuid4 =>
    simp only [next] at h
    obtain ⟨⟨op, phase⟩, hphase, h⟩ := Option.bind_eq_some_iff.1 h
    split_ifs at h with hop
    cases h
    refine .wrote op phase ?_ hop.1
    revert hphase
    cases s.phase <;> intro hphase <;> cases hphase
    · exact .inl rfl
    · exact .inl rfl
    · exact .inr rfl
  | authorized | called | dispatching | dispatched | interrupted | ranLeft | processed
  | reservedDelivery | markedDelivered | releasedDelivery =>
    simp only [next] at h
    split_ifs at h
    exact serve_moves h

end

/-! ## What a step writes -/

/-- What a step in a state writes to the store. -/
inductive Effect (H : Hub ι κ) (s : State ι κ) : Store → Prop
  | same : Effect H s s.store
  | quiet (op : WriteOp) (hquiet : op.isQuiet = true) (hfresh : op.FreshUuids s.store) :
    Effect H s (op.after s.store)
  /-- A handler writes about its gateway request. -/
  | requested (i : ι) (call : DedupCall) (time : Timestamp)
      (hcall : (s.gateway.stages i).call (H.handlers.key i) = some call ∨
        s.gateway.left i = some call) :
    Effect H s (DurableRequestDeduplicator.run time s.store call).2
  /-- A task is created, or an existing one is queued. -/
  | created (i : ι) (R : DevRequest) (hR : H.devRequest? i = some R) (c : CreateChoice)
      (pc pc' : CreatePc) (store : Store) (hpc : s.dispatches i = .creating pc)
      (hnext : R.createNext c pc s.store = some (pc', store)) : Effect H s store
  | dropped : Effect H s (WriteOp.reconcileIncompleteGatewayRequests.after s.store)

theorem Effect.of_quietly {store : Store} (h : s.store.WritesQuietly store) :
    H.Effect s store := by
  obtain rfl | ⟨op, hquiet, hfresh, hexec⟩ := h
  · exact .same
  · have hafter : op.after s.store = store := by rw [WriteOp.after, hexec]
    exact hafter ▸ .quiet op hquiet hfresh

theorem effect_callStore {i : ι} {call : DedupCall} (time : Timestamp) (fate : DedupFate)
    (hcall : (s.gateway.stages i).call (H.handlers.key i) = some call ∨
      s.gateway.left i = some call) :
    H.Effect s (DurableGateway.callStore fate time call s.store).2 := by
  cases fate with
  | replies | raisesAfter => exact .requested i call time hcall
  | raises => exact .same

theorem dispatchNext_effect {i : ι} {c : DispatchChoice} {pc : DispatchPc} {store : Store}
    (h : H.dispatchNext i c (s.dispatches i) s.store = some (pc, store)) : H.Effect s store := by
  cases hpc : s.dispatches i with
  | waiting | querying =>
    rw [hpc] at h
    cases h
    exact .same
  | ended outcome =>
    rw [hpc] at h
    cases h
  | creating create =>
    rw [hpc] at h
    simp only [dispatchNext, Option.bind_eq_bind, Option.bind_eq_some_iff] at h
    obtain ⟨R, hR, h⟩ := h
    split_ifs at h
    · simp only [Option.bind_eq_some_iff, Option.pure_def, Option.some.injEq, Prod.mk.injEq] at h
      obtain ⟨_, _, _, rfl⟩ := h
      exact .same
    · simp only [Option.bind_eq_some_iff, Option.pure_def, Option.some.injEq, Prod.mk.injEq] at h
      obtain ⟨⟨pc', store'⟩, hnext, _, rfl⟩ := h
      exact .created i R hR c.create create pc' store' hpc hnext
  | cancelling cancel =>
    rw [hpc] at h
    cases cancel with
    | done result =>
      cases h
      exact .same
    | gettingTask | cancellingRuntime _ | gotTask _ | cancelling _ _ | notifying _ =>
      simp only [dispatchNext, Option.bind_eq_bind, Option.bind_eq_some_iff, Option.pure_def,
        Option.some.injEq, Prod.mk.injEq] at h
      obtain ⟨taskId, _, ⟨pc', store'⟩, hnext, _, rfl⟩ := h
      exact .of_quietly (cancelNext_quietly hnext)

/-- A step of a handler writes about its request. -/
theorem handlers_effect [DecidableEq ι] {a : DurableGateway.Event ι}
    {gateway : DurableGateway.State ι} (hhandles : H.Handles s a)
    (hnext : H.handlers.next s.gateway a = some gateway) : H.Effect s gateway.store := by
  cases hhandles with
  | authorized i | dispatched i outcome =>
    simp only [DurableGateway.next] at hnext
    split_ifs at hnext
    cases hnext
    exact .same
  | called i time fate =>
    simp only [DurableGateway.next, Option.bind_eq_some_iff, Option.map_eq_some_iff] at hnext
    obtain ⟨call, hcall, _, _, rfl⟩ := hnext
    exact effect_callStore time fate (.inl hcall)
  | interrupted i =>
    simp only [DurableGateway.next, Option.map_eq_some_iff] at hnext
    obtain ⟨_, _, rfl⟩ := hnext
    exact .same
  | ranLeft i time fate =>
    simp only [DurableGateway.next, Option.map_eq_some_iff] at hnext
    obtain ⟨call, hcall, rfl⟩ := hnext
    exact effect_callStore time fate (.inr hcall)

/-- All that a step writes. -/
theorem Moves.effect [DecidableEq ι] [DecidableEq κ] (h : H.Moves s t) : H.Effect s t.store := by
  cases h with
  | handled a gateway hhandles hnext => exact handlers_effect hhandles hnext
  | dispatching i c pc store _ hnext => exact dispatchNext_effect hnext
  | called k => exact .same
  | processed k c pc store hnext => exact .of_quietly (processNext_quietly hnext)
  | wrote op phase hop hfresh =>
    rcases hop with hquiet | rfl
    · exact .quiet op hquiet hfresh
    · exact .dropped
  | crashed => exact .same

end Hub

end AIHub
