import AIHub.Storage.Records

/-!
# Runs of the store

`storeSystem`: any sequence of write operations, each of which commits or raises and leaves the
store as it was. `exec_history` connects it to the histories of single tasks, so that a property
that holds along every history holds in every store that can be reached
(`history_reachable`).
-/

namespace AIHub

open Transition

namespace WriteOp

/-- The operations that write tasks or events. -/
def writesTasks : WriteOp → Bool
  | createTask .. | createQueuedTask .. | transitionTask .. | assignTask .. | cancelTask ..
  | appendEvent .. | reconcileInterruptedRunning .. => true
  | _ => false

/-- What a call writes, with the events it stores, if it commits and they are new. -/
def writes (s : Store) : WriteOp → List (TaskWrite × EventFields)
  | createTask task event => [(.create task, event.toEventFields)]
  | createQueuedTask task created queued _ =>
    [(.create task, created.toEventFields), (.move .queued, queued.toEventFields)]
  | transitionTask _ target event => [(.move target, event.toEventFields)]
  | assignTask _ agent event => [(.assign agent, event.toEventFields)]
  | cancelTask _ event => [(.move .cancelled, event.toEventFields)]
  | appendEvent event => [(.append, event.toEventFields)]
  | reconcileInterruptedRunning time uuid4 => s.interruptedTasks.map fun row =>
    (.move .blocked, Store.interruptionEvent time (uuid4 row.taskJson.taskId) row.taskJson)
  | _ => []

/-- The store after a call: the one it commits, or the one it found if it raises. -/
def after (op : WriteOp) (s : Store) : Store :=
  match op.exec s with
  | .ok s' => s'
  | .error _ => s

/-- The call commits. -/
def Commits (s : Store) (op : WriteOp) : Prop := ∃ s', op.exec s = .ok s'

instance (s : Store) (op : WriteOp) : Decidable (op.Commits s) :=
  match h : op.exec s with
  | .ok s' => .isTrue ⟨s', h⟩
  | .error _ => .isFalse fun ⟨_, hs⟩ => by simp [h] at hs

/-- The ids a call draws with `uuid4` are new. -/
def FreshUuids (s : Store) : WriteOp → Prop
  | reconcileInterruptedRunning _ uuid4 => s.FreshIds s.interruptedTasks uuid4
  | _ => True

instance (s : Store) (op : WriteOp) : Decidable (op.FreshUuids s) := by
  cases op with
  | reconcileInterruptedRunning time uuid4 =>
    exact decidable_of_iff _ ⟨fun h => ⟨h.1, h.2⟩, fun h => And.intro h.free h.distinct⟩
  | _ => exact inferInstanceAs (Decidable True)

variable {s s' : Store} {write : TaskWrite} {event : EventEnvelope}

/-- The other operations leave tasks and events alone, and only one of them saves a route. -/
theorem exec_sameTasks_routes {op : WriteOp} (hop : op.writesTasks = false)
    (h : op.exec s = .ok s') : s.SameTasks s' ∧
      ((∀ route, op ≠ saveTaskRoute route) → s'.taskRoutes = s.taskRoutes) := by
  cases op with
  | createTask | createQueuedTask | transitionTask | assignTask | cancelTask | appendEvent
  | reconcileInterruptedRunning => simp [writesTasks] at hop
  | reconcileIncompleteGatewayRequests | reconcileReservedDeliveries =>
    cases h
    exact ⟨⟨rfl, rfl, rfl⟩, fun _ => rfl⟩
  | createRun run =>
    rw [exec, map_eq_ok] at h
    obtain ⟨⟨_, _⟩, hrun, rfl⟩ := h
    obtain ⟨_, _, _, rfl⟩ := Store.createRun_ok hrun
    exact ⟨⟨rfl, rfl, rfl⟩, fun _ => rfl⟩
  | startRun runId time =>
    rw [exec, map_eq_ok] at h
    obtain ⟨⟨_, _⟩, hrun, rfl⟩ := h
    obtain ⟨_, _, _, _, rfl⟩ := Store.startRun_ok hrun
    exact ⟨⟨rfl, rfl, rfl⟩, fun _ => rfl⟩
  | finishRun runId status time exitCode errorCode =>
    rw [exec, map_eq_ok] at h
    obtain ⟨⟨_, _⟩, hrun, rfl⟩ := h
    obtain ⟨_, _, _, _, _, rfl⟩ := Store.finishRun_ok hrun
    exact ⟨⟨rfl, rfl, rfl⟩, fun _ => rfl⟩
  | createArtifact artifact =>
    rw [exec, map_eq_ok] at h
    obtain ⟨⟨_, _⟩, hartifact, rfl⟩ := h
    obtain ⟨_, rfl⟩ := Store.createArtifact_ok hartifact
    exact ⟨⟨rfl, rfl, rfl⟩, fun _ => rfl⟩
  | saveTaskRoute route =>
    rw [exec, map_eq_ok] at h
    obtain ⟨⟨_, _⟩, hroute, rfl⟩ := h
    refine ⟨?_, fun hne => absurd rfl (hne route)⟩
    rcases Store.saveTaskRoute_ok hroute with rfl | ⟨_, rfl⟩ <;> exact ⟨rfl, rfl, rfl⟩
  | reserveGatewayRequest key time =>
    rw [exec, map_eq_ok] at h
    obtain ⟨⟨_, _⟩, hcall, rfl⟩ := h
    obtain ⟨_, _, ⟨_, rfl⟩ | ⟨_, _, rfl⟩⟩ := Store.reserveGatewayRequest_ok hcall <;>
      exact ⟨⟨rfl, rfl, rfl⟩, fun _ => rfl⟩
  | rememberGatewayResponse key response time =>
    rw [exec, map_eq_ok] at h
    obtain ⟨⟨_, _⟩, hcall, rfl⟩ := h
    obtain ⟨_, _, _, rfl⟩ := Store.rememberGatewayResponse_ok hcall
    exact ⟨⟨rfl, rfl, rfl⟩, fun _ => rfl⟩
  | releaseGatewayRequest key time =>
    rw [exec, map_eq_ok] at h
    obtain ⟨⟨_, _⟩, hcall, rfl⟩ := h
    obtain ⟨_, _, ⟨_, rfl⟩ | ⟨_, _, _, rfl⟩⟩ := Store.releaseGatewayRequest_ok hcall <;>
      exact ⟨⟨rfl, rfl, rfl⟩, fun _ => rfl⟩
  | reserveDelivery id time =>
    rw [exec, map_eq_ok] at h
    obtain ⟨⟨_, _⟩, hcall, rfl⟩ := h
    obtain ⟨_, _, ⟨_, rfl, _⟩ | ⟨_, _, rfl⟩⟩ := Store.reserveDelivery_ok hcall <;>
      exact ⟨⟨rfl, rfl, rfl⟩, fun _ => rfl⟩
  | markDeliveryDelivered id time =>
    rw [exec, map_eq_ok] at h
    obtain ⟨⟨_, _⟩, hcall, rfl⟩ := h
    obtain ⟨_, _, _, _, ⟨_, rfl⟩ | ⟨_, rfl⟩⟩ := Store.markDeliveryDelivered_ok hcall <;>
      exact ⟨⟨rfl, rfl, rfl⟩, fun _ => rfl⟩
  | releaseDelivery id =>
    rw [exec, map_eq_ok] at h
    obtain ⟨⟨_, _⟩, hcall, rfl⟩ := h
    obtain ⟨_, _, ⟨_, rfl⟩ | ⟨_, _, _, rfl⟩⟩ := Store.releaseDelivery_ok hcall <;>
      exact ⟨⟨rfl, rfl, rfl⟩, fun _ => rfl⟩

theorem exec_sameTasks {op : WriteOp} (hop : op.writesTasks = false)
    (h : op.exec s = .ok s') : s.SameTasks s' := (exec_sameTasks_routes hop h).1

/-- What a committed call has done to the history of one task. -/
inductive HistoryChange (op : WriteOp) (s s' : Store) (id : TaskId) : Prop
  | same (same : s'.history id = s.history id)
  | one (write : TaskWrite) (event : EventEnvelope)
      (mem : (write, event.toEventFields) ∈ op.writes s)
      (fresh : s.events.get? event.eventId = none)
      (step : (historySystem id).step (s.history id) (write, event) (s'.history id))
  | queued (task : Task) (createdEvent queuedEvent : EventEnvelope)
      (mem : (.create task, createdEvent.toEventFields) ∈ op.writes s)
      (fresh : s.events.get? createdEvent.eventId = none)
      (order : createdEvent.timestamp ≤ queuedEvent.timestamp)
      (distinct : createdEvent.eventId ≠ queuedEvent.eventId)
      (lifecycle : LifecycleEvent task .queued queuedEvent)
      (first : (historySystem id).step (s.history id) (.create task, createdEvent)
        ⟨some (.created task createdEvent.timestamp), [createdEvent]⟩)
      (second : (historySystem id).step
        ⟨some (.created task createdEvent.timestamp), [createdEvent]⟩
        (.move .queued, queuedEvent) (s'.history id))

/-- A step of the store is a step of one history and leaves the others alone. -/
theorem HistoryChange.of_step {op : WriteOp} (hc : s.Coherent) (h : s.TaskStep write event s')
    (hmem : (write, event.toEventFields) ∈ op.writes s) (id : TaskId) :
    op.HistoryChange s s' id := by
  by_cases hid : event.taskId = some id
  · exact .one write event hmem h.stores.fresh (h.history_self hc hid)
  · exact .same (h.history_of_ne hc hid)

theorem createQueuedTask_history {task queued : Task} {createdEvent queuedEvent : EventEnvelope}
    {route : Option TaskRoute} (hc : s.Coherent)
    (h : s.QueuedCreation task createdEvent queuedEvent route queued s') (id : TaskId) :
    (createQueuedTask task createdEvent queuedEvent route).HistoryChange s s' id := by
  obtain ⟨s₁, hfirst, hsecond, hmiddle⟩ := h.steps
  by_cases hid : task.taskId = id
  · subst hid
    have hdistinct : createdEvent.eventId ≠ queuedEvent.eventId :=
      Table.get?_eq_none.1 hsecond.stores.fresh _ (hfirst.stores.mem.2 (.inr rfl))
    exact .queued task createdEvent queuedEvent (by simp [writes]) hfirst.stores.fresh h.order
      hdistinct h.queuedBy (hmiddle ▸ hfirst.history_self hc h.created.taskId)
      (hmiddle ▸ hsecond.history_self (hfirst.coherent hc) h.queuedBy.taskId)
  · have hcreated : createdEvent.taskId ≠ some id := fun heq =>
      hid (Option.some.inj (h.created.taskId.symm.trans heq))
    have hqueued : queuedEvent.taskId ≠ some id := fun heq =>
      hid (Option.some.inj (h.queuedBy.taskId.symm.trans heq))
    exact .same ((hsecond.history_of_ne (hfirst.coherent hc) hqueued).trans
      (hfirst.history_of_ne hc hcreated))

/-- Every committed call refines the history of every task, and keeps the tables coherent. -/
theorem exec_history {op : WriteOp} (hc : s.Coherent) (hfresh : op.FreshUuids s)
    (h : op.exec s = .ok s') : s'.Coherent ∧ ∀ id, op.HistoryChange s s' id := by
  cases op with
  | createTask task event =>
    rw [exec, map_eq_ok] at h
    obtain ⟨⟨_, _⟩, hcall, rfl⟩ := h
    obtain ⟨hstep, _⟩ := Store.createTask_ok hc hcall
    exact ⟨hstep.coherent hc, .of_step hc hstep (by simp [writes])⟩
  | createQueuedTask task createdEvent queuedEvent route =>
    rw [exec, map_eq_ok] at h
    obtain ⟨⟨_, _⟩, hcall, rfl⟩ := h
    have hcreation := Store.createQueuedTask_ok hc hcall
    obtain ⟨s₁, hfirst, hsecond, _⟩ := hcreation.steps
    exact ⟨hsecond.coherent (hfirst.coherent hc), createQueuedTask_history hc hcreation⟩
  | transitionTask taskId target event | cancelTask taskId event =>
    rw [exec, map_eq_ok] at h
    obtain ⟨⟨_, _⟩, hcall, rfl⟩ := h
    obtain ⟨row, _, _, ⟨_, _, rfl⟩ | ⟨_, hstep, _⟩⟩ := Store.transitionTask_ok hcall
    · exact ⟨hc, fun _ => .same rfl⟩
    · exact ⟨hstep.coherent hc, .of_step hc hstep (by simp [writes])⟩
  | assignTask taskId agent event =>
    rw [exec, map_eq_ok] at h
    obtain ⟨⟨_, _⟩, hcall, rfl⟩ := h
    obtain ⟨row, _, _, _, ⟨_, _, rfl⟩ | ⟨hstep, _⟩⟩ := Store.assignTask_ok hcall
    · exact ⟨hc, fun _ => .same rfl⟩
    · exact ⟨hstep.coherent hc, .of_step hc hstep (by simp [writes])⟩
  | appendEvent event =>
    rw [exec, map_eq_ok] at h
    obtain ⟨⟨_, _⟩, hcall, rfl⟩ := h
    rcases (Store.appendEvent_ok hcall).1 with rfl | hstep
    · exact ⟨hc, fun _ => .same rfl⟩
    · exact ⟨hstep.coherent hc, .of_step hc hstep (by simp [writes])⟩
  | reconcileInterruptedRunning time uuid4 =>
    rw [exec, map_eq_ok] at h
    obtain ⟨⟨_, _⟩, hcall, rfl⟩ := h
    obtain ⟨hc', hsteps⟩ := Store.reconcileInterruptedRunning_ok hc hfresh hcall
    refine ⟨hc', fun id => ?_⟩
    rcases hsteps id with hsame | ⟨row, hrow, event, _, hevent, hfree, hstep⟩
    · exact .same hsame
    · refine .one (.move .blocked) event ?_ hfree hstep
      rw [hevent]
      exact List.mem_map_of_mem hrow
  | _ =>
    have hsame := exec_sameTasks rfl h
    exact ⟨hsame.coherent hc, fun id => .same (hsame.history id)⟩

/-- The task for which the operation may save a route. -/
def routedTask : WriteOp → Option TaskId
  | createQueuedTask task _ _ _ => some task.taskId
  | saveTaskRoute route => some route.taskId
  | _ => none

/-- The operation leaves the routes of the other tasks alone. -/
theorem exec_getTaskRoute {op : WriteOp} {taskId : String} (hc : s.Coherent)
    (hop : ∀ id, op.routedTask = some id → id.val ≠ taskId) (h : op.exec s = .ok s') :
    s'.getTaskRoute taskId = s.getTaskRoute taskId := by
  have hof : s'.taskRoutes = s.taskRoutes → s'.getTaskRoute taskId = s.getTaskRoute taskId :=
    fun hroutes => congrArg (·.get? taskId) hroutes
  cases op with
  | createTask task event =>
    rw [exec, map_eq_ok] at h
    obtain ⟨⟨_, _⟩, hcall, rfl⟩ := h
    exact hof (Store.createTask_ok hc hcall).2.1.taskRoutes
  | createQueuedTask task createdEvent queuedEvent route =>
    rw [exec, map_eq_ok] at h
    obtain ⟨⟨_, _⟩, hcall, rfl⟩ := h
    have hcreation := Store.createQueuedTask_ok hc hcall
    unfold Store.getTaskRoute Table.get?
    rw [hcreation.routes, List.find?_append]
    have hnone : route.toList.find? (fun r => r.key = taskId) = none := by
      refine List.find?_eq_none.2 fun r hr => ?_
      have hrouted := hcreation.routed r (Option.mem_toList.1 hr)
      simpa [TaskRoute.key, hrouted] using hop _ rfl
    rw [hnone, Option.or_none]
  | transitionTask _ target event | cancelTask _ event =>
    rw [exec, map_eq_ok] at h
    obtain ⟨⟨_, _⟩, hcall, rfl⟩ := h
    obtain ⟨_, _, _, ⟨_, _, rfl⟩ | ⟨_, _, _, hsame⟩⟩ := Store.transitionTask_ok hcall
    · rfl
    · exact hof hsame.taskRoutes
  | assignTask _ agent event =>
    rw [exec, map_eq_ok] at h
    obtain ⟨⟨_, _⟩, hcall, rfl⟩ := h
    obtain ⟨_, _, _, _, ⟨_, _, rfl⟩ | ⟨_, _, hsame, _⟩⟩ := Store.assignTask_ok hcall
    · rfl
    · exact hof hsame.taskRoutes
  | appendEvent event =>
    rw [exec, map_eq_ok] at h
    obtain ⟨⟨_, _⟩, hcall, rfl⟩ := h
    exact hof (Store.appendEvent_ok hcall).2.taskRoutes
  | reconcileInterruptedRunning time uuid4 =>
    rw [exec, map_eq_ok] at h
    obtain ⟨⟨_, _⟩, hcall, rfl⟩ := h
    exact hof (Store.reconcileInterruptedRunning_routes hcall)
  | saveTaskRoute route =>
    rw [exec, map_eq_ok] at h
    obtain ⟨⟨_, _⟩, hcall, rfl⟩ := h
    rcases Store.saveTaskRoute_ok hcall with rfl | ⟨hfree, rfl⟩
    · rfl
    · exact (Table.get?_insert _ _ hfree taskId).trans (if_neg (hop _ rfl))
  | _ => exact hof ((exec_sameTasks_routes rfl h).2 fun _ => nofun)

end WriteOp

/-! ## The store as a transition system -/

/-- Every sequence of write operations, from an empty store. -/
def storeSystem : System Store WriteOp where
  init s := s = .empty
  step s op s' := op.FreshUuids s ∧ op.after s = s'

theorem WriteOp.after_eq {op : WriteOp} {s s' : Store} (h : op.after s = s') :
    op.exec s = .ok s' ∨ s' = s := by
  unfold WriteOp.after at h
  split at h
  · exact .inl (h ▸ ‹_›)
  · exact .inr h.symm

theorem storeSystem_after {s : Store} {op : WriteOp} (h : storeSystem.Reachable s)
    (hfresh : op.FreshUuids s) : storeSystem.Reachable (op.after s) :=
  h.step ⟨hfresh, rfl⟩

theorem storeSystem_guard_after {G : Store → WriteOp → Prop} {s : Store} {op : WriteOp}
    (h : (storeSystem.guard G).Reachable s) (hG : G s op) (hfresh : op.FreshUuids s) :
    (storeSystem.guard G).Reachable (op.after s) :=
  h.step ⟨hG, hfresh, rfl⟩

theorem storeSystem_coherent {s : Store} (h : storeSystem.Reachable s) : s.Coherent := by
  have hI : storeSystem.Invariant Store.Coherent := {
    init := by
      rintro _ rfl
      exact Store.coherent_empty
    step := by
      rintro s op s' hc ⟨hfresh, hafter⟩
      rcases WriteOp.after_eq hafter with hexec | rfl
      · exact (WriteOp.exec_history hc hfresh hexec).1
      · exact hc }
  exact hI.reachable h

/-- Let a condition `G` on the steps of the store imply a condition `C` on the steps of the
history of `id`. In the runs that meet `G`, this history makes runs that meet `C`. -/
theorem history_reachable_guard {id : TaskId} {G : Store → WriteOp → Prop}
    {C : History → TaskWrite × EventEnvelope → Prop}
    (hone : ∀ s op write (event : EventEnvelope), s.Coherent → G s op → op.Commits s →
      (write, event.toEventFields) ∈ op.writes s → s.events.get? event.eventId = none →
      event.taskId = some id → C (s.history id) (write, event))
    (hqueued : ∀ (task : Task) (createdEvent queuedEvent : EventEnvelope),
      createdEvent.timestamp ≤ queuedEvent.timestamp →
      createdEvent.eventId ≠ queuedEvent.eventId → LifecycleEvent task .queued queuedEvent →
      C ⟨some (.created task createdEvent.timestamp), [createdEvent]⟩
        (.move .queued, queuedEvent))
    {s : Store} (h : (storeSystem.guard G).Reachable s) :
    ((historySystem id).guard C).Reachable (s.history id) := by
  refine h.induct (I := fun s => ((historySystem id).guard C).Reachable (s.history id)) ?_ ?_
  · rintro _ rfl
    exact .of_init rfl
  · intro s op s' hs ih hstep
    obtain ⟨hG, hfreshIds, hafter⟩ := hstep
    rcases WriteOp.after_eq hafter with hexec | rfl
    swap
    · exact ih
    have hc := storeSystem_coherent hs.of_guard
    cases (WriteOp.exec_history hc hfreshIds hexec).2 id with
    | same hsame => exact hsame ▸ ih
    | one write event hmem hfresh hstep =>
      exact ih.step ⟨hone s op write event hc hG ⟨s', hexec⟩ hmem hfresh hstep.taskId, hstep⟩
    | queued task createdEvent queuedEvent hmem hfresh horder hne hlife hfirst hsecond =>
      exact (ih.step ⟨hone s op _ _ hc hG ⟨s', hexec⟩ hmem hfresh hfirst.taskId, hfirst⟩).step
        ⟨hqueued task _ _ horder hne hlife, hsecond⟩

/-! ## A task to try the store on -/

namespace Sample

def taskId : TaskId := ⟨"TASK-1", by decide⟩
def developer : Identifier := ⟨"developer", by decide⟩
def project : Identifier := ⟨"hub", by decide⟩
def team : Identifier := ⟨"core", by decide⟩

def taskFields : TaskFields where
  taskId := taskId
  source := ⟨"slack", by decide⟩
  project := project
  team := team
  request := ⟨"Fix the build.", by decide⟩
  createdAt := ⟨0, 0⟩

def task : Task := ⟨taskFields, by decide⟩

/-- An event of the task that carries the status `status`. -/
def event (eventId : Uuid) (eventType : EventType) (time : Int) (status : TaskStatus) :
    EventFields where
  eventId := eventId
  eventType := eventType
  timestamp := ⟨time, 0⟩
  taskId := some taskId
  project := some project
  team := some team
  payload := [("status", .string status.value)]

def created : EventEnvelope := ⟨event 1 .taskCreated 10 .pending, by decide⟩
def queued : EventEnvelope := ⟨event 2 .taskQueued 11 .queued, by decide⟩
def planning : EventEnvelope := ⟨event 3 .taskStarted 12 .planning, by decide⟩
def runId : RunId := ⟨"RUN-1", by decide⟩

/-- Two parties. -/
def first : Fin 2 := 0
def second : Fin 2 := 1

/-- The store with the task, queued. -/
def store : Store :=
  (WriteOp.transitionTask taskId.val .queued queued).after
    ((WriteOp.createTask task created).after .empty)

theorem store_coherent : store.Coherent :=
  storeSystem_coherent (storeSystem_after (storeSystem_after (.of_init rfl) trivial) trivial)

end Sample

end AIHub
