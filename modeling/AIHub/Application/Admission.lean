import AIHub.Application.Hub
import AIHub.Orchestrator.Cancellation

/-!
# What the hub works on

Everything that the hub keeps and does goes back to a request that has passed the gateway: its
actor is on the allowlist, and its instruction is not credential-shaped. The others leave no trace
in the store, and their instructions never get to the runtime, whatever is interleaved, interrupted
or lost in a crash.

**The invariant** (`Admitted`). A handler is beyond the authorization, a call is left to a thread,
or a dispatch has begun, only for a request that is admitted. So what a step writes (`Effect`)
belongs to one.

* `contents_after`: what an operation does to the contents of the tasks.
* `asked_for`: the tasks, routes and gateway requests in the store, and the task that the runtime
  is given, are those of admitted requests.
-/

namespace AIHub

open Transition DevRequest

variable {s s' : Store}

/-! ## Contents of tasks -/

/-- A step of a history creates the task, or keeps its content. -/
theorem History.Step.content {id : TaskId} {event : EventEnvelope} {write : TaskWrite}
    {h h' : History} (hstep : History.Step id event write h h') :
    (∃ task, write = .create task ∧ ∀ row ∈ h'.row, contentOf row.taskJson = contentOf task) ∨
      ∀ row' ∈ h'.row, ∃ row, h.row = some row ∧
        contentOf row'.taskJson = contentOf row.taskJson := by
  cases hstep with
  | append row events =>
    refine .inr fun row' hrow' => ⟨row, rfl, ?_⟩
    cases hrow'
    rfl
  | create task =>
    refine .inl ⟨task, rfl, fun row hrow => ?_⟩
    cases hrow
    rfl
  | move row events target updated _ _ hmoved =>
    refine .inr fun row' hrow' => ⟨row, rfl, ?_⟩
    cases hrow'
    have hfields := (transitionTask_ok hmoved).2.2.2
    simp [contentOf, TaskRow.moved, hfields, TaskFields.moved]
  | assign row events agent updated _ _ _ _ _ _ _ _ hassigned =>
    refine .inr fun row' hrow' => ⟨row, rfl, ?_⟩
    cases hrow'
    simp [contentOf, TaskRow.assigned, hassigned]

/-- After an operation each task has the content it had, or that of a task the operation creates. -/
theorem contents_after {op : WriteOp} (hc : s.Coherent) (hfresh : op.FreshUuids s) {row' : TaskRow}
    (hrow' : row' ∈ (op.after s).tasks) :
    (∃ row ∈ s.tasks, contentOf row'.taskJson = contentOf row.taskJson) ∨
      ∃ task event, (.create task, event) ∈ op.writes s ∧
        contentOf row'.taskJson = contentOf task := by
  rcases WriteOp.after_eq (rfl : op.after s = op.after s) with hexec | hsame
  swap
  · exact .inl ⟨row', hsame ▸ hrow', rfl⟩
  have hrow : ((op.after s).history row'.taskId).row = some row' := Table.get?_of_mem hrow'
  have hold : ∀ {row : TaskRow}, (s.history row'.taskId).row = some row → row ∈ s.tasks :=
    fun h => (Table.get?_eq_some.1 h).1
  cases (WriteOp.exec_history hc hfresh hexec).2 row'.taskId with
  | same hsame =>
    rw [hsame] at hrow
    exact .inl ⟨row', hold hrow, rfl⟩
  | one write event hmem _ hstep =>
    rcases hstep.content with ⟨task, rfl, hcontent⟩ | hcontent
    · exact .inr ⟨task, _, hmem, hcontent row' hrow⟩
    · obtain ⟨row, hbefore, hcontent⟩ := hcontent row' hrow
      exact .inl ⟨row, hold hbefore, hcontent⟩
  | queued task created queued hmem _ _ _ _ hfirst hsecond =>
    refine .inr ⟨task, _, hmem, ?_⟩
    rcases hsecond.content with ⟨_, hwrite, _⟩ | hcontent
    · cases hwrite
    · obtain ⟨row, hbefore, hcontent⟩ := hcontent row' hrow
      cases hbefore
      exact hcontent

/-- An operation that is about the routes of no task leaves all routes alone. -/
theorem routes_after {op : WriteOp} (hc : s.Coherent) (hop : op.routedTask = none) {r : TaskRoute}
    (hr : r ∈ (op.after s).taskRoutes) : r ∈ s.taskRoutes := by
  rcases WriteOp.after_eq (rfl : op.after s = op.after s) with hexec | hsame
  · have hget : (op.after s).getTaskRoute r.key = some r := Table.get?_of_mem hr
    rw [WriteOp.exec_getTaskRoute hc (fun id hid => by rw [hop] at hid; cases hid) hexec] at hget
    exact (Table.get?_eq_some.1 hget).1
  · exact hsame ▸ hr

/-- A call of a handler inserts no row for another key. -/
theorem requests_after {call : DedupCall} {key : IdempotencyKey} (hkey : call.key = key.val)
    (time : Timestamp) {row : GatewayRow}
    (hrow : row ∈ (DurableRequestDeduplicator.run time s call).2.gatewayRequests) :
    row.idempotencyKey = call.key ∨
      ∃ row' ∈ s.gatewayRequests, row'.idempotencyKey = row.idempotencyKey := by
  have hsame : ∀ {s' : Store}, s' = s → row ∈ s'.gatewayRequests →
      ∃ row' ∈ s.gatewayRequests, row'.idempotencyKey = row.idempotencyKey :=
    fun hs hrow => ⟨row, hs ▸ hrow, rfl⟩
  rw [DurableRequestDeduplicator.run_snd] at hrow
  cases call with
  | get text => exact .inr (hsame rfl hrow)
  | reserve text =>
    rw [DedupCall.write, Option.elim_some] at hrow
    rcases WriteOp.after_eq (rfl : (WriteOp.reserveGatewayRequest text time).after s = _)
      with hexec | hafter
    · rw [WriteOp.exec, map_eq_ok] at hexec
      obtain ⟨⟨b, _⟩, hreserve, hafter⟩ := hexec
      rw [← hafter] at hrow
      obtain ⟨k, hk, ⟨_, hs⟩ | ⟨_, hfree, hs⟩⟩ := Store.reserveGatewayRequest_ok hreserve
      · exact .inr (hsame hs hrow)
      · rw [hs] at hrow
        rcases (Table.mem_insert (h := hfree)).1 hrow with hrow | hrow
        · exact .inr ⟨row, hrow, rfl⟩
        · rw [show text = key.val from hkey, Store.keyOf_val] at hk
          cases hk
          exact .inl (hrow ▸ hkey.symm)
    · exact .inr (hsame hafter hrow)
  | remember text response =>
    rw [DedupCall.write, Option.elim_some] at hrow
    rcases WriteOp.after_eq
      (rfl : (WriteOp.rememberGatewayResponse text response.modelDump time).after s = _)
      with hexec | hafter
    · rw [WriteOp.exec, map_eq_ok] at hexec
      obtain ⟨⟨_, _⟩, hremember, hafter⟩ := hexec
      rw [← hafter] at hrow
      obtain ⟨_, _, _, hs⟩ := Store.rememberGatewayResponse_ok hremember
      rw [hs] at hrow
      obtain ⟨row', hrow', hupdate⟩ := List.mem_map.1 hrow
      refine .inr ⟨row', hrow', ?_⟩
      rw [← hupdate]
      split_ifs <;> rfl
    · exact .inr (hsame hafter hrow)
  | release text =>
    rw [DedupCall.write, Option.elim_some] at hrow
    rcases WriteOp.after_eq (rfl : (WriteOp.releaseGatewayRequest text time).after s = _)
      with hexec | hafter
    · rw [WriteOp.exec, map_eq_ok] at hexec
      obtain ⟨⟨_, _⟩, hrelease, hafter⟩ := hexec
      rw [← hafter] at hrow
      obtain ⟨_, _, ⟨_, hs⟩ | ⟨_, _, _, hs⟩⟩ := Store.releaseGatewayRequest_ok hrelease
      · exact .inr (hsame hs hrow)
      · rw [hs] at hrow
        exact .inr ⟨row, (Table.mem_delete.1 hrow).1, rfl⟩
    · exact .inr (hsame hafter hrow)

/-! ## Snapshots of tasks -/

section

variable {c : Choice} {o : Orchestrator} {taskId : TaskId} {P : Task → Prop}

/-- The tasks of the store meet a condition. -/
def Store.AllTasks (P : Task → Prop) (s : Store) : Prop :=
  ∀ id task, s.task? id = some task → P task

theorem handle_tasks {task : Task} (h : P task) (openRun : Option RunId) (e : Raised) :
    ∀ t ∈ (ProcessPc.handle task openRun e).tasks, P t := by
  cases e <;> cases openRun <;> simpa [ProcessPc.handle, ProcessPc.tasks]

theorem leave_tasks {task : Task} (h : P task) (openRun : Option RunId) (body : Body)
    (e : ExitOutcome) : ∀ t ∈ (ProcessPc.leave task openRun body e).tasks, P t := by
  cases body <;> cases e <;>
    first
      | exact handle_tasks h openRun _
      | simp [ProcessPc.leave, ProcessPc.tasks]

theorem commit_transition_tasks {event : EventEnvelope} {target : TaskStatus}
    {r : Option (Task × Store)} (hc : s.Coherent)
    (h : commit c event (Store.transitionTask taskId.val target) s = some r) :
    ∀ after s', r = some (after, s') → s'.task? taskId = some after := by
  rintro after s' rfl
  obtain ⟨_, hchange⟩ := commit_transition hc h
  exact hchange.left

/-- A call holds snapshots that it has held, or that the store has. -/
theorem processNext_tasks {pc pc' : ProcessPc} (hc : s.Coherent)
    (h : processNext o taskId c pc s = some (pc', s')) (hpc : ∀ t ∈ pc.tasks, P t)
    (hs : s.AllTasks P) (hs' : s'.AllTasks P) : ∀ t ∈ pc'.tasks, P t := by
  have hone : ∀ {task : Task} {pc : ProcessPc}, P task → pc.tasks = [task] →
      ∀ t ∈ pc.tasks, P t := by
    intro task pc htask hpc t ht
    rw [hpc, List.mem_singleton] at ht
    exact ht ▸ htask
  have hnone : ∀ {pc : ProcessPc}, pc.tasks = [] → ∀ t ∈ pc.tasks, P t := by
    intro pc hpc t ht
    rw [hpc] at ht
    cases ht
  cases pc with
  | waiting | done => simp [processNext] at h
  | gettingTask =>
    simp only [processNext] at h
    split at h <;> cases h
    · exact hone (hs _ _ (readTask_some ‹_›)) rfl
    · exact hnone rfl
  | planning task _ | settingRunning task _ _ _ | settling task _ _ =>
    simp only [processNext, Option.map_eq_some_iff] at h
    obtain ⟨_ | ⟨after, s₁⟩, hcommit, h⟩ := h <;> cases h
    · first | exact hnone rfl | exact hpc
    · have hafter := hs' _ _ (commit_transition_tasks hc hcommit _ _ rfl)
      first | exact hnone rfl | exact hone hafter rfl
  | assigning task developer event =>
    simp only [processNext, Option.map_eq_some_iff] at h
    obtain ⟨_ | ⟨after, s₁⟩, hcommit, h⟩ := h <;> cases h
    · exact hnone rfl
    · obtain ⟨_, hchange⟩ := commit_assign hc hcommit
      exact hone (hs' _ _ hchange.left) rfl
  | finishingTask task current result event =>
    simp only [processNext, Option.map_eq_some_iff] at h
    obtain ⟨_ | ⟨after, s₁⟩, _, h⟩ := h <;> cases h <;>
      exact hone (hpc task (by simp [ProcessPc.tasks])) rfl
  | gettingCurrent task workspace result =>
    have htask := hpc task (by simp [ProcessPc.tasks])
    simp only [processNext] at h
    split at h
    · cases h
      exact hone htask rfl
    · rename_i current hcurrent
      have hcurrent := hs _ _ (readTask_some hcurrent)
      split_ifs at h <;> cases h <;>
      · intro t ht
        rcases List.mem_pair.1 ht with rfl | rfl
        · exact htask
        · exact hcurrent
  | gotCurrent task current workspace result =>
    simp only [processNext] at h
    split at h <;> cases h
    · exact hpc
    · exact hone (hpc task (by simp [ProcessPc.tasks])) rfl
  | gettingFailed task | gettingSettled task settlement =>
    simp only [processNext] at h
    repeat' split at h
    all_goals cases h
    all_goals
      first
        | exact hnone rfl
        | exact hone (hs _ _ (readTask_some ‹_›)) rfl
  | entering task developer =>
    have htask := hpc task (by simp [ProcessPc.tasks])
    simp only [processNext] at h
    split at h
    · cases h
      exact handle_tasks htask _ _
    · split at h <;> cases h <;> exact hone htask rfl
  | exiting task body openRun =>
    cases h
    exact leave_tasks (hpc task (by simp [ProcessPc.tasks])) openRun body c.exited
  | gotTask task | planned task | notifyingRunning task | creatingRun task | startingRun task
  | runStarted task | executing task | finishingRun task | notifyingCancelled task
  | closingRun task | gotSettled task | notifying task =>
    simp only [processNext] at h
    repeat' split at h
    all_goals cases h
    all_goals
      first
        | exact hnone rfl
        | exact hone (hpc _ (by simp [ProcessPc.tasks])) rfl

end

/-! ## The creation of a task -/

/-- A step of `_create_task` writes nothing, stores the records of the request, or queues a task. -/
theorem createNext_written {R : DevRequest} {c : CreateChoice} {pc pc' : CreatePc}
    (h : R.createNext c pc s = some (pc', s')) : s' = s ∨
      (∃ command records, createTaskCommand R.gateway.uuid5 R.request = .ok command ∧
        newTaskRecords R.bundle R.gateway.uuid5 c.draws command = .ok records ∧
        (WriteOp.createQueuedTask records.task records.created records.queued
          records.route).exec s = .ok s') ∨
      ∃ task current event, pc = .queueing task current event ∧
        (WriteOp.transitionTask current.taskId.val .queued event).exec s = .ok s' := by
  cases pc with
  | starting =>
    simp only [createNext] at h
    split at h
    · cases h
      exact .inl rfl
    · rename_i command hcommand
      split at h
      · cases h
        exact .inl rfl
      · rename_i records hrecords
        split at h
        · rename_i task s₁ hcreate
          cases h
          refine .inr (.inl ⟨command, records, hcommand, hrecords, ?_⟩)
          rw [WriteOp.exec, hcreate]
          rfl
        · cases h
          exact .inl rfl
        · split_ifs at h <;> cases h <;> exact .inl rfl
  | queueing task current event =>
    simp only [createNext] at h
    split at h
    · cases h
      exact .inl rfl
    · rename_i moved s₁ hmove
      have hexec : (WriteOp.transitionTask current.taskId.val .queued event).exec s = .ok s₁ := by
        rw [WriteOp.exec, hmove]
        rfl
      split_ifs at h <;> cases h <;> exact .inr (.inr ⟨_, _, _, rfl, hexec⟩)
  | ended => cases h
  | comparing | comparingRoute | enqueuing | waking =>
    -- the other steps only read
    simp only [createNext] at h
    repeat' split at h
    all_goals
      cases h
      exact .inl rfl

namespace Hub

variable {ι κ : Type} (H : Hub ι κ)

/-! ## Admission -/

/-- The actor is on the allowlist, and the instruction is not credential-shaped. -/
def Admits (i : ι) : Prop :=
  isAuthorized H.allowedActorIds (H.requests i).actorId = true ∧
    ∀ instruction ∈ (H.requests i).instruction, H.sensitive instruction.val = false

/-- The task that a dev request asks for. -/
def content (i : ι) : TaskContent where
  taskId := taskIdText H.uuid5 (H.requests i).idempotencyKey
  source := (H.requests i).source.val
  text := (H.requests i).instruction.map (·.val)
  project := (H.requests i).project.map (·.val)
  team := ((H.requests i).project.bind H.bundle.projects.get?).map fun entry => entry.2.team.val

/-- An admitted dev request asks for the task. -/
def Asked (task : TaskContent) : Prop :=
  ∃ i, H.Admits i ∧ (H.requests i).command = .dev ∧ task = H.content i

/-- An admitted dev request asks for results of its task there. -/
def AskedRoute (route : TaskRoute) : Prop :=
  ∃ i target, H.Admits i ∧ (H.requests i).command = .dev ∧
    (H.requests i).replyTarget = some target ∧ route.taskId.val = (H.content i).taskId ∧
    route.source.val = (H.requests i).source.val ∧ route.target.val = target.val

/-- What the store has of tasks and requests. -/
structure Kept (store : Store) : Prop where
  tasks : ∀ row ∈ store.tasks, H.Asked (contentOf row.taskJson)
  routes : ∀ route ∈ store.taskRoutes, H.AskedRoute route
  requests : ∀ row ∈ store.gatewayRequests,
    ∃ i, H.Admits i ∧ row.idempotencyKey = (H.requests i).idempotencyKey

end Hub

/-- The handler is beyond the authorization and has not ended. -/
def HandleStage.isAdmitted : HandleStage → Bool
  | looking | reserving | dispatching | remembering _ | releasing _ => true
  | authorizing | returned _ | interrupted => false

namespace Hub

variable {ι κ : Type} {H : Hub ι κ}

/-- Handlers get beyond the authorization for admitted requests only. -/
structure HandlersAdmitted (H : Hub ι κ) (g : DurableGateway.State ι) : Prop where
  stages : ∀ i, (g.stages i).isAdmitted = true → H.Admits i
  left : ∀ i call, g.left i = some call →
    H.Admits i ∧ call.key = (H.requests i).idempotencyKey

structure Admitted (H : Hub ι κ) (s : State ι κ) : Prop where
  coherent : s.store.Coherent
  kept : H.Kept s.store
  handlers : H.HandlersAdmitted s.gateway
  dispatches : ∀ i, s.dispatches i ≠ .waiting → H.Admits i
  snapshots : ∀ k, ∀ task ∈ (s.processes k).tasks, H.Asked (contentOf task)

/-! ## What is written -/

variable {s t : State ι κ}

theorem devRequest?_some {i : ι} {R : DevRequest} (h : H.devRequest? i = some R) :
    (H.requests i).command = .dev ∧ R.request = H.requests i ∧ R.gateway.uuid5 = H.uuid5 ∧
      R.bundle = H.bundle := by
  unfold devRequest? at h
  split_ifs at h with hdev
  cases h
  exact ⟨hdev.1, rfl, rfl, rfl⟩

theorem content_eq {i : ι} {R : DevRequest} (h : H.devRequest? i = some R) :
    R.content = H.content i := by
  unfold devRequest? at h
  split_ifs at h
  cases h
  rfl

/-- What an operation leaves that creates no task. -/
theorem Kept.after {store : Store} {op : WriteOp} (hkept : H.Kept store) (hc : store.Coherent)
    (hfresh : op.FreshUuids store)
    (hcreates : ∀ task event, (.create task, event) ∉ op.writes store)
    (hroute : op.routedTask = none)
    (hrequests : ∀ row ∈ (op.after store).gatewayRequests,
      ∃ i, H.Admits i ∧ row.idempotencyKey = (H.requests i).idempotencyKey) :
    H.Kept (op.after store) where
  tasks row' hrow' := by
    rcases contents_after hc hfresh hrow' with ⟨row, hrow, hcontent⟩ | ⟨task, event, hmem, _⟩
    · exact hcontent ▸ hkept.tasks row hrow
    · exact absurd hmem (hcreates task event)
  routes route hroute' := hkept.routes route (routes_after hc hroute hroute')
  requests := hrequests

/-- An operation that is not about gateway requests leaves their rows. -/
theorem Kept.requests_after {store : Store} {op : WriteOp} (hkept : H.Kept store)
    (hcall : op.requestCall = none) : ∀ row ∈ (op.after store).gatewayRequests,
      ∃ i, H.Admits i ∧ row.idempotencyKey = (H.requests i).idempotencyKey := by
  rw [WriteOp.after_gatewayRequests hcall]
  exact hkept.requests

/-- A task is created for an admitted request. -/
theorem Kept.created {store store' : Store} {i : ι} {R : DevRequest} {c : CreateChoice}
    {pc pc' : CreatePc} (hkept : H.Kept store) (hc : store.Coherent) (hadmits : H.Admits i)
    (hR : H.devRequest? i = some R) (hnext : R.createNext c pc store = some (pc', store')) :
    store'.Coherent ∧ H.Kept store' := by
  obtain ⟨hdev, hrequest, huuid5, hbundle⟩ := devRequest?_some hR
  rcases createNext_written hnext with rfl | ⟨command, records, hcommand, hrecords, hexec⟩ |
    ⟨_, current, event, _, hexec⟩
  · exact ⟨hc, hkept⟩
  · obtain ⟨hid, hcontent, hroute⟩ := records_content hcommand hrecords
    have hafter : (WriteOp.createQueuedTask records.task records.created records.queued
        records.route).after store = store' := by
      rw [WriteOp.after, hexec]
    rw [← hafter]
    refine ⟨coherent_after hc trivial, ?_, ?_, hkept.requests_after rfl⟩
    · intro row' hrow'
      have hfresh : (WriteOp.createQueuedTask records.task records.created records.queued
          records.route).FreshUuids store := trivial
      rcases contents_after hc hfresh hrow' with ⟨row, hrow, hsame⟩ | ⟨task, event, hmem, hnew⟩
      · exact hsame ▸ hkept.tasks row hrow
      · have htask : task = records.task := by
          rcases List.mem_pair.1 hmem with hmem | hmem
          · cases hmem
            rfl
          · cases hmem
        refine ⟨i, hadmits, hdev, ?_⟩
        rw [hnew, htask, hcontent, content_eq hR]
    · rw [hafter]
      intro route hmem
      rw [WriteOp.exec, map_eq_ok] at hexec
      obtain ⟨⟨queued, _⟩, hcreate, rfl⟩ := hexec
      have hcreation := Store.createQueuedTask_ok hc hcreate
      rw [Table.mem_def, hcreation.routes] at hmem
      rcases List.mem_append.1 hmem with hmem | hmem
      · exact hkept.routes route hmem
      · have hnew : records.route = some route := Option.mem_toList.1 hmem
        rw [hnew, Option.map_some, expected, hrequest] at hroute
        obtain ⟨target, htarget, hvalues⟩ := Option.map_eq_some_iff.1 hroute.symm
        obtain ⟨hsource, htext⟩ := Prod.mk.inj hvalues
        refine ⟨i, target, hadmits, hdev, htarget, ?_, hsource.symm, htext.symm⟩
        rw [hcreation.routed route hnew, hid, ← content_eq hR]
        rfl
  · have hafter :
        (WriteOp.transitionTask current.taskId.val .queued event).after store = store' := by
      rw [WriteOp.after, hexec]
    rw [← hafter]
    refine ⟨coherent_after hc trivial, hkept.after hc trivial (fun task event' hmem => ?_) rfl
      (hkept.requests_after rfl)⟩
    cases List.mem_singleton.1 hmem

theorem quiet_calls {op : WriteOp} (hquiet : op.isQuiet = true) :
    op.routedTask = none ∧ op.requestCall = none := by
  cases op <;> first | exact ⟨rfl, rfl⟩ | cases hquiet

theorem HandlersAdmitted.call {g : DurableGateway.State ι} (hg : H.HandlersAdmitted g) {i : ι}
    {call : DedupCall} (hcall : (g.stages i).call (H.handlers.key i) = some call) :
    H.Admits i ∧ call.key = (H.requests i).idempotencyKey := by
  refine ⟨hg.stages i ?_, HandleStage.key_of_call hcall⟩
  cases hstage : g.stages i <;> rw [hstage] at hcall <;> first | rfl | cases hcall

/-- What a step writes belongs to an admitted request. -/
theorem Admitted.written (hs : H.Admitted s) {store : Store} (h : H.Effect s store) :
    store.Coherent ∧ H.Kept store := by
  cases h with
  | same => exact ⟨hs.coherent, hs.kept⟩
  | quiet op hquiet hfresh =>
    obtain ⟨hroute, hcall⟩ := quiet_calls hquiet
    exact ⟨coherent_after hs.coherent hfresh, hs.kept.after hs.coherent hfresh
      (fun _ _ hmem => (WriteOp.quiet_writes hquiet hmem).1 _ rfl) hroute
      (hs.kept.requests_after hcall)⟩
  | requested i call time hcall =>
    have hkey : H.Admits i ∧ call.key = (H.requests i).idempotencyKey := by
      rcases hcall with hcall | hleft
      · exact hs.handlers.call hcall
      · exact hs.handlers.left i call hleft
    obtain ⟨key, hval⟩ := (H.requests i).idempotencyKey_accepted
    have hrequests : ∀ row ∈ (DurableRequestDeduplicator.run time s.store call).2.gatewayRequests,
        ∃ i, H.Admits i ∧ row.idempotencyKey = (H.requests i).idempotencyKey := by
      intro row hrow
      rcases requests_after (hkey.2.trans hval.symm) time hrow with hnew | ⟨row', hrow', hsame⟩
      · exact ⟨i, hkey.1, hnew.trans hkey.2⟩
      · exact hsame ▸ hs.kept.requests row' hrow'
    rw [DurableRequestDeduplicator.run_snd] at hrequests ⊢
    cases call with
    | get text => exact ⟨hs.coherent, hs.kept⟩
    | reserve text | remember text response | release text =>
      rw [DedupCall.write, Option.elim_some] at hrequests ⊢
      exact ⟨coherent_after hs.coherent trivial,
        hs.kept.after hs.coherent trivial (fun _ _ hmem => by cases hmem) rfl hrequests⟩
  | created i R hR c pc pc' store hpc hnext =>
    refine hs.kept.created hs.coherent (hs.dispatches i ?_) hR hnext
    simp [hpc]
  | dropped =>
    refine ⟨coherent_after hs.coherent trivial,
      hs.kept.after hs.coherent trivial (fun _ _ hmem => by cases hmem) rfl fun row hrow => ?_⟩
    exact hs.kept.requests row (Table.mem_delete.1 hrow).1

/-! ## The invariant -/

/-- The tasks that the store returns are asked for. -/
theorem Kept.allTasks {store : Store} (h : H.Kept store) :
    store.AllTasks fun task => H.Asked (contentOf task) := by
  intro id task htask
  rw [Store.task?_eq] at htask
  obtain ⟨row, hrow, rfl⟩ := Option.map_eq_some_iff.1 htask
  exact h.tasks row (Table.get?_eq_some.1 hrow).1

variable [DecidableEq ι]

/-- A handler moves to a stage for an admitted request only. -/
theorem HandlersAdmitted.move {g : DurableGateway.State ι} (hg : H.HandlersAdmitted g) (i : ι)
    {stage : HandleStage} (hstage : stage.isAdmitted = true → H.Admits i) :
    H.HandlersAdmitted (g.move i stage) where
  stages j hj := by
    by_cases hji : j = i
    · subst hji
      exact hstage (by simpa [DurableGateway.State.move] using hj)
    · exact hg.stages j (by simpa [DurableGateway.State.move, hji] using hj)
  left := hg.left

theorem HandlersAdmitted.next {g g' : DurableGateway.State ι} (hg : H.HandlersAdmitted g)
    {a : DurableGateway.Event ι}
    (hanswer : ∀ i answer, a = .authorized i answer →
      answer = some (isAuthorized H.allowedActorIds (H.requests i).actorId))
    (h : H.handlers.next g a = some g') : H.HandlersAdmitted g' := by
  cases a with
  | authorized i answer =>
    simp only [DurableGateway.next] at h
    split_ifs at h with hstage
    cases h
    refine hg.move i fun hadmitted => ?_
    rw [hanswer i answer rfl] at hadmitted
    cases hauthorized : isAuthorized H.allowedActorIds (H.requests i).actorId with
    | false =>
      rw [hauthorized] at hadmitted
      cases hadmitted
    | true =>
      refine ⟨hauthorized, fun instruction hinstruction => ?_⟩
      rw [hauthorized, HandleStage.authorized] at hadmitted
      split_ifs at hadmitted with hsensitive
      · cases hadmitted
      · rw [handlers, hinstruction] at hsensitive
        exact Bool.eq_false_iff.2 hsensitive
  | called i time fate =>
    simp only [DurableGateway.next, Option.bind_eq_some_iff, Option.map_eq_some_iff] at h
    obtain ⟨call, hcall, stage, _, rfl⟩ := h
    have hmoved : H.HandlersAdmitted (g.move i stage) := hg.move i fun _ => (hg.call hcall).1
    exact ⟨hmoved.stages, hmoved.left⟩
  | dispatched i outcome =>
    simp only [DurableGateway.next] at h
    split_ifs at h with hstage
    cases h
    exact hg.move i fun _ => hg.stages i (by rw [hstage]; rfl)
  | interrupted i =>
    simp only [DurableGateway.next, Option.map_eq_some_iff] at h
    obtain ⟨stage, hinterrupt, rfl⟩ := h
    have hmoved : H.HandlersAdmitted (g.move i stage) := hg.move i fun hadmitted => by
      refine hg.stages i ?_
      cases hstage : g.stages i with
      | looking | reserving | dispatching | remembering | releasing => rfl
      | returned | interrupted =>
        rw [hstage] at hinterrupt
        cases hinterrupt
      | authorizing =>
        rw [hstage] at hinterrupt
        cases hinterrupt
        cases hadmitted
    refine ⟨hmoved.stages, fun j call hcall => ?_⟩
    by_cases hji : j = i
    · subst hji
      exact hg.call (by simpa using hcall)
    · exact hg.left j call (by simpa [hji] using hcall)
  | ranLeft i time fate =>
    simp only [DurableGateway.next, Option.map_eq_some_iff] at h
    obtain ⟨_, _, rfl⟩ := h
    refine ⟨hg.stages, fun j call hcall => ?_⟩
    by_cases hji : j = i
    · simp [hji] at hcall
    · exact hg.left j call (by simpa [hji] using hcall)
  | wrote op =>
    simp only [DurableGateway.next] at h
    split_ifs at h
    cases h
    exact ⟨hg.stages, hg.left⟩

variable [DecidableEq κ]

/-- A step keeps the requests admitted. -/
theorem Admitted.moves (hs : H.Admitted s) (h : H.Moves s t) : H.Admitted t := by
  obtain ⟨hcoherent, hkept⟩ := hs.written h.effect
  cases h with
  | handled a gateway hhandles hnext =>
    have hanswer : ∀ i answer, a = .authorized i answer →
        answer = some (isAuthorized H.allowedActorIds (H.requests i).actorId) := by
      intro i answer heq
      cases hhandles <;> cases heq
      rfl
    have hhandlers : H.HandlersAdmitted gateway := hs.handlers.next hanswer hnext
    exact ⟨hcoherent, hkept, hhandlers, hs.dispatches, hs.snapshots⟩
  | dispatching i c pc store hbegins hnext =>
    refine ⟨hcoherent, hkept, ⟨hs.handlers.stages, hs.handlers.left⟩, fun j hj => ?_,
      hs.snapshots⟩
    by_cases hji : j = i
    · subst hji
      cases hpc : s.dispatches j with
      | waiting => exact hs.handlers.stages j (by rw [hbegins hpc]; rfl)
      | creating | cancelling | querying | ended => exact hs.dispatches j (by simp [hpc])
    · exact hs.dispatches j (by simpa [hji] using hj)
  | called k =>
    refine ⟨hcoherent, hkept, hs.handlers, hs.dispatches, fun l task htask => ?_⟩
    by_cases hlk : l = k
    · subst hlk
      simp [ProcessPc.tasks] at htask
    · exact hs.snapshots l task (by simpa [hlk] using htask)
  | processed k c pc store hnext =>
    refine ⟨hcoherent, hkept, ⟨hs.handlers.stages, hs.handlers.left⟩, hs.dispatches,
      fun l task htask => ?_⟩
    by_cases hlk : l = k
    · subst hlk
      exact processNext_tasks hs.coherent hnext (hs.snapshots l) hs.kept.allTasks hkept.allTasks
        task (by simpa using htask)
    · exact hs.snapshots l task (by simpa [hlk] using htask)
  | wrote op phase hop hfresh =>
    exact ⟨hcoherent, hkept, ⟨hs.handlers.stages, hs.handlers.left⟩, hs.dispatches, hs.snapshots⟩
  | crashed =>
    refine ⟨hcoherent, hkept, ⟨fun i hi => ?_, (fun _ _ hleft => by cases hleft)⟩,
      fun i hi => absurd rfl hi, fun k => ?_⟩
    · cases hstage : s.gateway.stages i <;> simp only [hstage] at hi <;> cases hi
    · exact fun _ ht => by cases ht

theorem admitted_reachable (h : H.system.Reachable s) : H.Admitted s := by
  have hI : H.system.Invariant H.Admitted := {
    init := by
      rintro s ⟨hstore, hstages, hleft, hdispatches, hprocesses, _⟩
      refine ⟨hstore ▸ Store.coherent_empty, ?_, ⟨fun i hi => ?_, fun i call hcall => ?_⟩,
        fun i hi => absurd (hdispatches i) hi, fun k task htask => ?_⟩
      · rw [hstore]
        exact ⟨fun _ h => absurd h (Table.not_mem_empty _),
          fun _ h => absurd h (Table.not_mem_empty _), fun _ h => absurd h (Table.not_mem_empty _)⟩
      · rw [hstages i] at hi
        cases hi
      · rw [hleft i] at hcall
        cases hcall
      · rw [hprocesses k] at htask
        cases htask
    step := fun s a t hs hst => hs.moves (next_moves hst) }
  exact hI.reachable h

/-- Whatever the hub does, each task and route in its store, each task that it has given to the
runtime, and each gateway request is that of a request whose actor is on the allowlist and whose
instruction is not credential-shaped, as that request asks for it. -/
theorem asked_for (h : H.system.Reachable s) : H.Kept s.store ∧
    ∀ k task workspace runId, s.processes k = .executing task workspace runId →
      H.Asked (contentOf task) := by
  have hs := admitted_reachable h
  refine ⟨hs.kept, fun k task workspace runId hpc => hs.snapshots k task ?_⟩
  rw [hpc]
  exact List.mem_singleton_self task

end Hub

namespace Sample

/-- A hub for one request and one call of `process_task`. -/
def shopHub : Hub Unit Unit where
  uuid5 := fun _ => 7
  bundle := Config.Sample.besides
  allowedActorIds := ["U1"]
  alnum := fun _ => false
  orchestrator := orchestrator
  requests := fun _ => devRequest channelTarget
  tasks := fun _ => cartRequest.id

def shopDown : Hub.State Unit Unit where
  gateway := ⟨fun _ => .authorizing, fun _ => none, .empty⟩
  dispatches := fun _ => .waiting
  processes := fun _ => .waiting
  phase := .down

/-- The hub starts, and the handler gets its key. -/
def cartReserved : List (Hub.Event Unit Unit) :=
  List.replicate 3 (.reconciled ⟨0, 0⟩ fun _ => 0) ++
  [.authorized (), .called () ⟨0, 0⟩ .replies, .called () ⟨0, 0⟩ .replies]

/-- The dispatch of the request begins, or goes on. -/
def dispatches : Hub.Event Unit Unit :=
  .dispatching () { create := ⟨⟨⟨0, 0⟩, 1, ⟨1, 0⟩, 2, ⟨2, 0⟩⟩, 1, ⟨3, 0⟩⟩, cancel := choice 0 }

/-- The task of the request is created and gets to the runtime. -/
def cartRuns : List (Hub.Event Unit Unit) :=
  cartReserved ++ List.replicate 2 dispatches ++
    (List.range 12).map fun n => .processed () (choice n)

end Sample

open Sample in
theorem asked_for_sample :
    let s := System.execD shopHub.next shopDown cartRuns
    ∃ task workspace runId, s.processes () = .executing task workspace runId ∧
      shopHub.Asked (contentOf task) := by
  have hasked : ∀ s, shopHub.system.Reachable s → (s.processes ()).isExecuting = true →
      ∃ task workspace runId, s.processes () = .executing task workspace runId ∧
        shopHub.Asked (contentOf task) := by
    intro s hs hexecuting
    have hasked := (Hub.asked_for hs).2 ()
    cases hpc : s.processes () with
    | executing task workspace runId => exact ⟨task, workspace, runId, rfl, hasked _ _ _ hpc⟩
    | _ =>
      rw [hpc] at hexecuting
      cases hexecuting
  have hany : (System.exec shopHub.next shopDown cartRuns).any
      (fun t => (t.processes ()).isExecuting = true) = true := by decide +kernel
  obtain ⟨hrun, hexecuting⟩ := System.run_execD_any _ hany
  exact hasked _ ⟨shopDown, cartRuns,
    ⟨rfl, fun _ => rfl, fun _ => rfl, fun _ => rfl, fun _ => rfl, rfl⟩, hrun⟩ hexecuting

end AIHub
