import AIHub.Gateway.Answers
import AIHub.Orchestrator.Steps

/-!
# Creating the task of a request

`AgentGateway._create_task` as a program that stops at its awaits, with `create_task` and
`enqueue_task` of the adapters, over the store in which the orchestrator and other requests write.

The task, its route and its first two events are stored in one transaction. So the store has either
nothing of a request or all of it, and what it has stays: no other request has the task id, and
nobody else queues the task, which is why `enqueue_task` never finds it pending.

* `LeavesTask.keeps`: what others write changes neither.
* `processNext_elsewhere`: the orchestrator is one of those others.
* `createNext_reached`: an execution that goes on to its end has made the task, or found it made.
* `summary_eq`: what has been made is one task, created once and queued once, with what was asked.
-/

namespace AIHub

open Config Transition

/-! ## Creating a task -/

/-- `_task_view`. -/
def TaskView.ofTask (task : Task) : TaskView where
  taskId := task.taskId
  project := task.project
  team := task.team
  status := task.status
  assignedAgents := task.assignedAgents

/-- `_matches_replayed_task`. -/
def matchesReplayedTask (existing expected : Task) : Bool :=
  existing.taskId = expected.taskId ∧ existing.source = expected.source ∧
    existing.project = expected.project ∧ existing.team = expected.team ∧
    existing.request = expected.request

/-- What `enqueue_task` raises for an error of the store. -/
def enqueueError (e : HubError) : PortError :=
  match e with
  | .recordNotFound _ => .taskNotFound "task not found"
  | e =>
    if e.isDataIntegrity || e.isValue then .taskConflict "task cannot be queued"
    else if e.isStorage then .dependencyUnavailable "task store is unavailable"
    else .other e

/-- What the defaults of the records draw at a step. -/
structure CreateChoice where
  draws : TaskDraws
  eventId : Uuid
  time : Timestamp

/-- Where `_create_task` stands. -/
inductive CreatePc where
  | starting
  /-- `create_queued_task` has found the task. -/
  | comparing (records : NewTask)
  | comparingRoute (records : NewTask) (existing : Task)
  | enqueuing (task : TaskView)
  | queueing (task : TaskView) (current : Task) (event : EventEnvelope)
  | waking (task : TaskView) (current : Task)
  | ended (outcome : DispatchOutcome)

/-- A dev request for a registered project, and the hub that gets it. -/
structure DevRequest where
  gateway : AgentGateway
  bundle : ConfigBundle
  sensitive : String → Bool
  request : GatewayRequest
  dev : request.command = .dev
  registered : ∀ project ∈ request.project, (bundle.projects.get? project).isSome = true

namespace DevRequest

variable (R : DevRequest)

def key : String := R.request.idempotencyKey

/-- The text of the task id. -/
def taskId : String := taskIdText R.gateway.uuid5 R.key

/-- The end of the dispatch, once `create_task` and `enqueue_task` have answered. -/
def outcome (created enqueued : Except PortError TaskView) : DispatchOutcome :=
  AgentGateway.outcome { R.gateway with
    createdTask := fun _ => created
    enqueuedTask := fun _ => enqueued } R.request

/-- `create_task` raises. -/
def failed (e : PortError) : CreatePc := .ended (R.outcome (.error e) (.error e))

def queuedEvent (c : CreateChoice) (task : Task) : Except HubError EventEnvelope :=
  EventEnvelope.modelValidate {
    eventId := c.eventId, eventType := .taskQueued, timestamp := c.time
    taskId := some task.taskId, project := some task.project, team := some task.team
    correlationId := some (R.gateway.uuid5 ("macmini-ai-hub:" ++ task.taskId.val))
    payload := [("status", .string TaskStatus.queued.value)] }

/-- Take `_create_task` past one await. -/
def createNext (c : CreateChoice) : CreatePc → Store → Option (CreatePc × Store)
  | .starting, s =>
    match createTaskCommand R.gateway.uuid5 R.request with
    | .error e => some (R.failed (.other e), s)
    | .ok command =>
      match newTaskRecords R.bundle R.gateway.uuid5 c.draws command with
      | .error e => some (R.failed e, s)
      | .ok records =>
        match s.createQueuedTask records.task records.created records.queued records.route with
        | .ok (task, s) => some (.enqueuing (.ofTask task), s)
        | .error (.duplicateTask _) => some (.comparing records, s)
        | .error e =>
          if e.isStorage then
            some (R.failed (.dependencyUnavailable "task store is unavailable"), s)
          else some (R.failed (.other e), s)
  | .comparing records, s =>
    match s.getTask records.task.taskId.val with
    | .ok existing => some (.comparingRoute records existing, s)
    -- The clause for a `StorageError` does not cover the clause for a `DuplicateTaskError`.
    | .error e => some (R.failed (.other e), s)
  | .comparingRoute records existing, s =>
    if ¬ matchesReplayedTask existing records.task ∨
        s.getTaskRoute records.task.taskId.val ≠ records.route then
      some (R.failed (.taskConflict "task already exists with different content"), s)
    else some (.enqueuing (.ofTask existing), s)
  | .enqueuing task, s =>
    match s.getTask task.taskId.val with
    | .error e => some (.ended (R.outcome (.ok task) (.error (enqueueError e))), s)
    | .ok current =>
      if current.status = .pending then
        match R.queuedEvent c current with
        | .ok event => some (.queueing task current event, s)
        | .error e => some (.ended (R.outcome (.ok task) (.error (enqueueError e))), s)
      else if current.status = .queued then some (.waking task current, s)
      else some (.ended (R.outcome (.ok task) (.ok (.ofTask current))), s)
  | .queueing task current event, s =>
    match s.transitionTask current.taskId.val .queued event with
    | .error e => some (.ended (R.outcome (.ok task) (.error (enqueueError e))), s)
    | .ok (current, s) =>
      if current.status = .queued then some (.waking task current, s)
      else some (.ended (R.outcome (.ok task) (.ok (.ofTask current))), s)
  | .waking task current, s => some (.ended (R.outcome (.ok task) (.ok (.ofTask current))), s)
  | .ended _, _ => none

/-! ## Other writers -/

/-- No other request has the task id or the key, and nobody but the gateway queues the task. -/
def Elsewhere : WriteOp → Prop
  | .createTask task _ | .createQueuedTask task _ _ _ => task.taskId.val ≠ R.taskId
  | .transitionTask _ target event =>
    (event.taskId.any fun id => id.val = R.taskId) = true → target ≠ .queued
  | .saveTaskRoute route => route.taskId.val ≠ R.taskId
  | .rememberGatewayResponse key _ _ => key ≠ R.key
  | _ => True

instance (op : WriteOp) : Decidable (R.Elsewhere op) :=
  match op with
  | .createTask task _ | .createQueuedTask task _ _ _ =>
    inferInstanceAs (Decidable (task.taskId.val ≠ R.taskId))
  | .transitionTask _ target event => inferInstanceAs (Decidable
      ((event.taskId.any fun id => id.val = R.taskId) = true → target ≠ .queued))
  | .saveTaskRoute route => inferInstanceAs (Decidable (route.taskId.val ≠ R.taskId))
  | .rememberGatewayResponse key _ _ => inferInstanceAs (Decidable (key ≠ R.key))
  | .assignTask _ _ _ | .cancelTask _ _ | .appendEvent _ | .createRun _ | .startRun _ _
  | .finishRun _ _ _ _ _ | .createArtifact _ | .reserveGatewayRequest _ _
  | .releaseGatewayRequest _ _ | .reconcileIncompleteGatewayRequests | .reserveDelivery _ _
  | .markDeliveryDelivered _ _ | .releaseDelivery _ | .reconcileReservedDeliveries
  | .reconcileInterruptedRunning _ _ => inferInstanceAs (Decidable True)

/-! ## What the store has -/

/-- What a task says about the request it was made for. -/
structure TaskContent where
  taskId : String
  source : String
  text : Option String
  project : Option String
  team : Option String
  deriving DecidableEq

def contentOf (task : Task) : TaskContent where
  taskId := task.taskId.val
  source := task.source.val
  text := some task.request.val
  project := some task.project.val
  team := some task.team.val

/-- The tasks, the first two events and the route of a request. -/
structure Summary where
  tasks : List TaskContent
  created : Nat
  queued : Nat
  route : Option (String × String)
  deriving DecidableEq

/-- The events of a type for a task. -/
def countEvents (taskId : String) (type : EventType) (s : Store) : Nat :=
  s.events.rows.countP fun e =>
    e.envelope.taskId.any (·.val = taskId) && e.envelope.eventType = type

def summary (s : Store) : Summary where
  tasks := (s.tasks.rows.filter fun row => row.key = R.taskId).map fun row =>
    contentOf row.taskJson
  created := countEvents R.taskId .taskCreated s
  queued := countEvents R.taskId .taskQueued s
  route := (s.getTaskRoute R.taskId).map fun route => (route.source.val, route.target.val)

/-- What is asked for. -/
def content : TaskContent where
  taskId := R.taskId
  source := R.request.source.val
  text := R.request.instruction.map (·.val)
  project := R.request.project.map (·.val)
  team := (R.request.project.bind R.bundle.projects.get?).map fun entry => entry.2.team.val

/-- One task, created once and queued once, with what is asked for. -/
def expected : Summary where
  tasks := [R.content]
  created := 1
  queued := 1
  route := R.request.replyTarget.map fun target => (R.request.source.val, target.val)

/-! ## The task that is made -/

variable {R} {s s' : Store} {command : CreateTaskCommand} {draws : TaskDraws} {records : NewTask}

theorem text_accepted (R : DevRequest) : StringConstraints.accepts ⟨6, 69, upperIdPattern "TASK-"⟩
    R.taskId = true := by
  obtain ⟨id, hid⟩ := taskIdText_accepted R.gateway.uuid5 R.key
  exact (show id.val = R.taskId from hid) ▸ id.ok

/-- The task id of the request. -/
def id (R : DevRequest) : TaskId := ⟨R.taskId, R.text_accepted⟩

/-- The command says what the request says. -/
theorem command_fields (h : createTaskCommand R.gateway.uuid5 R.request = .ok command) :
    command.taskId = R.id ∧ command.source = R.request.source ∧
      command.replyTarget = R.request.replyTarget ∧
      R.request.project = some command.project ∧
      R.request.instruction = some command.instruction := by
  unfold createTaskCommand at h
  split at h
  · rename_i hproject hinstruction
    have hid : validateField ⟨6, 69, upperIdPattern "TASK-"⟩ "task_id"
        (taskIdText R.gateway.uuid5 R.request.idempotencyKey) = .ok R.id :=
      validateField_of_val "task_id" R.id
    rw [hid] at h
    cases h
    exact ⟨rfl, rfl, rfl, hproject, hinstruction⟩
  · cases h

theorem route_values {route : Option TaskRoute} (h : taskRoute command = .ok route) :
    route.map (fun route => (route.source.val, route.target.val)) =
      command.replyTarget.map fun target => (command.source.val, target.val) := by
  unfold taskRoute at h
  split at h
  · rename_i hnone
    cases h
    rw [hnone]
    rfl
  · rename_i target htarget
    simp only [bind_eq_ok, pure_eq_ok] at h
    obtain ⟨source, hsource, target', htarget', rfl⟩ := h
    rw [htarget, Option.map_some, Option.map_some, RouteValue.val_of_validate hsource,
      RouteValue.val_of_validate htarget']

/-- The records are about the request. -/
theorem records_content (hcommand : createTaskCommand R.gateway.uuid5 R.request = .ok command)
    (h : newTaskRecords R.bundle R.gateway.uuid5 draws command = .ok records) :
    records.task.taskId = R.id ∧ contentOf records.task = R.content ∧
      records.route.map (fun route => (route.source.val, route.target.val)) = R.expected.route := by
  obtain ⟨hid, hsource, htarget, hproject, hinstruction⟩ := command_fields hcommand
  unfold newTaskRecords at h
  split at h
  · cases h
  · rename_i name project hfound
    cases hnew : newTask R.gateway.uuid5 draws project.team command with
    | error e =>
      rw [hnew] at h
      cases h
    | ok made =>
      rw [hnew] at h
      cases h
      simp only [newTask, bind_eq_ok, pure_eq_ok, validateField_of_val, Except.ok.injEq] at hnew
      obtain ⟨text, rfl, task, htask, created, _, queued, _, route, hroute, rfl⟩ := hnew
      have hfields := Task.modelValidate_eq_ok.1 htask
      refine ⟨?_, ?_, ?_⟩
      · rw [hfields]
        exact hid
      · simp [contentOf, content, hfields, hid, hsource, hproject, hinstruction, hfound, id]
      · rw [route_values hroute, htarget, hsource]
        rfl

/-! ## What stays of it -/

/-- The history of a task that has been made for the request, and queued. -/
structure MadeHistory (R : DevRequest) (h : History) : Prop where
  row : ∃ row, h.row = some row ∧ contentOf row.taskJson = R.content ∧
    row.taskJson.status ≠ .pending
  created : h.events.countP (·.eventType = .taskCreated) = 1
  queued : h.events.countP (·.eventType = .taskQueued) = 1

/-- The store has what is asked for. -/
structure Made (R : DevRequest) (s : Store) : Prop where
  history : R.MadeHistory (s.history R.id)
  route : (s.getTaskRoute R.taskId).map (fun route => (route.source.val, route.target.val)) =
    R.expected.route

/-- The store has neither the task nor a route. -/
structure Unmade (R : DevRequest) (s : Store) : Prop where
  task : s.tasks.get? R.taskId = none
  route : s.getTaskRoute R.taskId = none

/-- A task that has been made is not made or queued again, so it stays as it was asked for. -/
theorem MadeHistory.step {h h' : History} {write : TaskWrite} {event : EventEnvelope}
    (hmade : R.MadeHistory h) (hstep : (historySystem R.id).step h (write, event) h')
    (hwrite : write ≠ .move .queued) : R.MadeHistory h' := by
  obtain ⟨⟨row, hrow, hcontent, hstatus⟩, hcreated, hqueued⟩ := hmade
  -- an event that is neither of the two is not counted
  have hcounts : ∀ events : List EventEnvelope, event.eventType ≠ .taskCreated →
      event.eventType ≠ .taskQueued →
      (events ++ [event]).countP (·.eventType = .taskCreated) =
          events.countP (·.eventType = .taskCreated) ∧
        (events ++ [event]).countP (·.eventType = .taskQueued) =
          events.countP (·.eventType = .taskQueued) := by
    intro events hc hq
    simp [hc, hq]
  cases hstep with
  | append row events _ htype =>
    obtain ⟨hc, hq⟩ := hcounts events (fun h => htype (h ▸ by decide))
      (fun h => htype (h ▸ by decide))
    exact ⟨⟨row, rfl, by cases hrow; exact hcontent, by cases hrow; exact hstatus⟩,
      hc.trans hcreated, hq.trans hqueued⟩
  | create => cases hrow
  | move row events target updated _ hlife hmoved =>
    cases hrow
    obtain ⟨hlegal, _, _, hfields⟩ := transitionTask_ok hmoved
    have hpending : target ≠ .pending := by
      rintro rfl
      revert hlegal
      cases row.taskJson.status <;> decide
    have htarget : target ≠ .queued := fun h => hwrite (h ▸ rfl)
    have htype := hlife.type
    obtain ⟨hc, hq⟩ := hcounts events
      (by rw [htype]; revert hpending; cases target <;> decide)
      (by rw [htype]; revert htarget; cases target <;> decide)
    refine ⟨⟨_, rfl, ?_, ?_⟩, hc.trans hcreated, hq.trans hqueued⟩
    · rw [← hcontent]
      simp [contentOf, TaskRow.moved, hfields, TaskFields.moved]
    · simpa [TaskRow.moved, hfields, TaskFields.moved] using hpending
  | assign row events agent updated _ htype _ _ _ _ _ _ hassigned =>
    cases hrow
    obtain ⟨hc, hq⟩ := hcounts events (by rw [htype]; decide) (by rw [htype]; decide)
    refine ⟨⟨_, rfl, ?_, ?_⟩, hc.trans hcreated, hq.trans hqueued⟩
    · rw [← hcontent]
      simp [contentOf, TaskRow.assigned, hassigned]
    · simpa [TaskRow.assigned, hassigned] using hstatus

/-- `create_queued_task` makes it. -/
theorem made_of_created {queued : Task} (hc : s.Coherent) (hunmade : R.Unmade s)
    (hid : records.task.taskId = R.id) (hcontent : contentOf records.task = R.content)
    (hroute : records.route.map (fun route => (route.source.val, route.target.val)) =
      R.expected.route)
    (h : s.createQueuedTask records.task records.created records.queued records.route =
      .ok (queued, s')) : s'.Coherent ∧ R.Made s' := by
  have hcreation := Store.createQueuedTask_ok hc h
  obtain ⟨s₁, hfirst, hsecond, hmiddle⟩ := hcreation.steps
  have hc₁ := hfirst.coherent hc
  refine ⟨hsecond.coherent hc₁, ?_, ?_⟩
  · have hstep := hsecond.history_self hc₁ hcreation.queuedBy.taskId
    rw [hmiddle, hid] at hstep
    generalize s'.history R.id = h' at hstep
    cases hstep with
    | move row events target updated _ _ hmoved =>
      have hfields := (transitionTask_ok hmoved).2.2.2
      have hcreatedType := hcreation.created.type
      have hqueuedType := hcreation.queuedBy.type
      refine ⟨⟨_, rfl, ?_, ?_⟩, ?_, ?_⟩
      · rw [← hcontent]
        simp [contentOf, TaskRow.moved, TaskRow.created, hfields, TaskFields.moved]
      · simp [TaskRow.moved, hfields, TaskFields.moved]
      · simp [hcreatedType, hqueuedType, eventForStatus]
      · simp [hcreatedType, hqueuedType, eventForStatus]
  · rw [← hroute]
    unfold Store.getTaskRoute Table.get?
    rw [hcreation.routes, List.find?_append]
    have hfind : s.taskRoutes.rows.find? (fun r => r.key = R.taskId) = none := hunmade.route
    rw [hfind, Option.none_or]
    cases hr : records.route with
    | none => rfl
    | some route =>
      have hrouted := hcreation.routed route hr
      have hkey : route.key = R.taskId := congrArg Constrained.val (hrouted.trans hid)
      simp [hkey]

/-! ## What others write -/

/-- The operation leaves the task of the request to the gateway. -/
def LeavesTask (R : DevRequest) : WriteOp → Prop
  | .rememberGatewayResponse _ _ _ => True
  | op => R.Elsewhere op

/-- What it writes about the task neither makes nor queues it. -/
theorem LeavesTask.writes {op : WriteOp} (hop : R.LeavesTask op) (hc : s.Coherent)
    (hexec : op.exec s = .ok s') {write : TaskWrite} {event : EventEnvelope}
    (hmem : (write, event.toEventFields) ∈ op.writes s) (hid : event.taskId = some R.id) :
    write ≠ .move .queued ∧ ∀ task, write = .create task → task.taskId ≠ R.id := by
  have hne : ∀ task : Task, task.taskId.val ≠ R.taskId → task.taskId ≠ R.id :=
    fun task hne h => hne (congrArg Constrained.val h)
  cases op with
  | createTask task event' =>
    obtain ⟨rfl, _⟩ := Prod.mk.inj (List.mem_singleton.1 hmem)
    refine ⟨by simp, fun _ h => ?_⟩
    cases h
    exact hne task hop
  | createQueuedTask task created queued route =>
    rw [WriteOp.exec, map_eq_ok] at hexec
    obtain ⟨⟨_, _⟩, hcall, rfl⟩ := hexec
    have hcreation := Store.createQueuedTask_ok hc hcall
    rcases List.mem_pair.1 hmem with h | h <;> obtain ⟨rfl, hevent⟩ := Prod.mk.inj h
    · refine ⟨by simp, fun _ h => ?_⟩
      cases h
      exact hne task hop
    · have htask : event.taskId = some task.taskId :=
        (congrArg EventFields.taskId hevent).trans hcreation.queuedBy.taskId
      exact absurd (Option.some.inj (htask.symm.trans hid)) (hne task hop)
  | transitionTask taskId target event' =>
    obtain ⟨rfl, hevent⟩ := Prod.mk.inj (List.mem_singleton.1 hmem)
    refine ⟨fun h => ?_, by simp⟩
    cases h
    have hid' : event'.taskId = some R.id := (congrArg EventFields.taskId hevent).symm.trans hid
    exact hop (by simp [hid', id]) rfl
  | cancelTask taskId event' | assignTask taskId agent event' | appendEvent event' =>
    obtain ⟨rfl, _⟩ := Prod.mk.inj (List.mem_singleton.1 hmem)
    exact ⟨by simp, by simp⟩
  | reconcileInterruptedRunning time uuid4 =>
    obtain ⟨_, _, h⟩ := List.mem_map.1 hmem
    obtain ⟨rfl, _⟩ := Prod.mk.inj h
    exact ⟨by simp, by simp⟩
  | _ => cases hmem

/-- It keeps what the store has of the request. -/
theorem LeavesTask.keeps {op : WriteOp} (hop : R.LeavesTask op) (hc : s.Coherent)
    (hfresh : op.FreshUuids s) : (op.after s).Coherent ∧ (R.Unmade s → R.Unmade (op.after s)) ∧
      (R.Made s → R.Made (op.after s)) := by
  rcases WriteOp.after_eq (rfl : op.after s = op.after s) with hexec | hsame
  swap
  · exact hsame.symm ▸ ⟨hc, fun h => h, fun h => h⟩
  generalize op.after s = s' at hexec
  obtain ⟨hc', hhistory⟩ := WriteOp.exec_history hc hfresh hexec
  have hroute : s'.getTaskRoute R.taskId = s.getTaskRoute R.taskId := by
    refine WriteOp.exec_getTaskRoute hc (fun id hid => ?_) hexec
    cases op <;> cases hid <;> exact hop
  refine ⟨hc', fun h => ⟨?_, hroute.trans h.route⟩, fun h => ⟨?_, hroute ▸ h.route⟩⟩
  · -- without a row, only a creation is about the task
    have hnone : (s.history R.id).row = none := h.task
    show (s'.history R.id).row = none
    cases hhistory R.id with
    | same hsame => rw [hsame, hnone]
    | one write event hmem _ hstep =>
      have hcreates := (hop.writes hc hexec hmem hstep.taskId).2
      generalize s.history R.id = h₁ at hstep hnone
      generalize s'.history R.id = h₂ at hstep
      cases hstep with
      | create task htask => exact absurd htask (hcreates task rfl)
      | append | move | assign => cases hnone
    | queued task created queued hmem _ _ _ _ hfirst _ =>
      have hcreates := (hop.writes hc hexec hmem hfirst.taskId).2
      generalize s.history R.id = h₁ at hfirst
      cases hfirst with
      | create task htask => exact absurd htask (hcreates task rfl)
  · cases hhistory R.id with
    | same hsame => exact hsame ▸ h.history
    | one write event hmem _ hstep =>
      exact h.history.step hstep (hop.writes hc hexec hmem hstep.taskId).1
    | queued task created queued hmem _ _ _ _ hfirst _ =>
      obtain ⟨⟨row, hrow, _⟩, _, _⟩ := h.history
      generalize s.history R.id = h₁ at hfirst hrow
      cases hfirst with
      | create => cases hrow

/-! ## The orchestrator -/

variable {c : Choice}

/-- Nothing is written, or it is written elsewhere. -/
def WrittenElsewhere (R : DevRequest) (s s' : Store) : Prop :=
  s' = s ∨ ∃ op : WriteOp, op.exec s = .ok s' ∧ op.FreshUuids s ∧ R.Elsewhere op

theorem written_ok {α : Type} {call : Store → Except HubError (α × Store)} {a : α} (op : WriteOp)
    (hexec : op.exec s = (call s).map Prod.snd) (hfresh : op.FreshUuids s) (hop : R.Elsewhere op)
    (h : call s = .ok (a, s')) : R.WrittenElsewhere s s' := by
  refine .inr ⟨op, ?_, hfresh, hop⟩
  rw [hexec, h]
  rfl

theorem written_transition {event : EventEnvelope} {taskId : String} {target : TaskStatus}
    {r : Option (Task × Store)} (htarget : target ≠ .queued)
    (h : commit c event (Store.transitionTask taskId target) s = some r) :
    ∀ after s', r = some (after, s') → R.WrittenElsewhere s s' := by
  rintro after s' rfl
  obtain ⟨_, hop⟩ := commit_some h
  exact written_ok (.transitionTask taskId target event) rfl trivial (fun _ => htarget) hop

/-- The orchestrator writes elsewhere: it does not queue tasks. -/
theorem processNext_elsewhere {o : Orchestrator} {taskId : TaskId} {pc pc' : ProcessPc}
    (h : processNext o taskId c pc s = some (pc', s')) : R.WrittenElsewhere s s' := by
  cases pc with
  | waiting | done => simp [processNext] at h
  | planning | settingRunning =>
    simp only [processNext, Option.map_eq_some_iff] at h
    obtain ⟨_ | ⟨after, s₁⟩, hcommit, h⟩ := h <;> cases h
    · exact .inl rfl
    · exact written_transition (by decide) hcommit _ _ rfl
  | settling current settlement =>
    have htarget : settlement.target ≠ .queued := by cases settlement <;> simp [Settlement.target]
    simp only [processNext, Option.map_eq_some_iff] at h
    obtain ⟨_ | ⟨after, s₁⟩, hcommit, h⟩ := h <;> cases h
    · exact .inl rfl
    · exact written_transition htarget hcommit _ _ rfl
  | finishingTask task current result event =>
    have htarget : Orchestrator.finishTarget result.status ≠ .queued := by
      cases result.status <;> decide
    simp only [processNext, Option.map_eq_some_iff, finishTask_eq] at h
    obtain ⟨_ | ⟨after, s₁⟩, hcommit, h⟩ := h <;> cases h
    · exact .inl rfl
    · exact written_transition htarget hcommit _ _ rfl
  | assigning task developer event =>
    simp only [processNext, Option.map_eq_some_iff] at h
    obtain ⟨_ | ⟨after, s₁⟩, hcommit, h⟩ := h <;> cases h
    · exact .inl rfl
    · obtain ⟨_, hop⟩ := commit_some hcommit
      exact written_ok (.assignTask task.taskId.val developer.agentId event) rfl trivial trivial hop
  | creatingRun task workspace run =>
    simp only [processNext] at h
    split at h <;> cases h
    · exact written_ok (.createRun run) rfl trivial trivial (call_some ‹_›)
    · exact .inl rfl
  | startingRun task workspace runId =>
    simp only [processNext] at h
    split at h <;> cases h
    · exact written_ok (.startRun runId.val c.time) rfl trivial trivial (call_some ‹_›)
    · exact .inl rfl
  | finishingRun task workspace runId result =>
    simp only [processNext] at h
    split at h <;> cases h
    · exact written_ok (.finishRun runId.val result.status.runStatus c.time result.exitCode
        result.status.errorCode) rfl trivial trivial (call_some ‹_›)
    · exact .inl rfl
  | closingRun task runId =>
    simp only [processNext] at h
    split at h <;> cases h
    · exact written_ok (.finishRun runId.val .failed c.time none (some runtimeException)) rfl
        trivial trivial (call_some ‹_›)
    · exact .inl rfl
  | _ =>
    -- the other steps only read
    simp only [processNext] at h
    repeat' split at h
    all_goals
      cases h
      exact .inl rfl

theorem cancelNext_elsewhere {o : Orchestrator} {taskId : TaskId} {pc pc' : CancelPc}
    (h : cancelNext o taskId c pc s = some (pc', s')) : R.WrittenElsewhere s s' := by
  obtain rfl | ⟨task, event, after, _, hcommit⟩ := cancelNext_write h
  · exact .inl rfl
  · obtain ⟨_, hop⟩ := commit_some hcommit
    exact written_ok (.cancelTask taskId.val event) rfl trivial trivial hop

/-! ## What is answered -/

/-- Unless `enqueue_task` returns, the request is not accepted. -/
theorem code_of_error {created : Except PortError TaskView} {e : PortError} {r : GatewayResponse}
    (h : R.outcome created (.error e) = .response r) : r.code ≠ .accepted := by
  unfold outcome AgentGateway.outcome AgentGateway.dispatch at h
  rw [R.dev] at h
  dsimp only at h
  split at h
  · rename_i response hcreate
    cases h
    simp only [AgentGateway.createTask, bind_eq_ok, mapError_eq_ok] at hcreate
    obtain ⟨_, _, task, _, hresponse⟩ := hcreate
    rw [GatewayResponse.code_of_construct hresponse]
    decide
  · cases h

/-! ## Creating the task -/

/-- The store has nothing of the task or all of it. -/
structure Sound (R : DevRequest) (s : Store) : Prop where
  coherent : s.Coherent
  whole : R.Unmade s ∨ R.Made s

/-- What a place of `_create_task` says about the store. The task is never found pending. -/
def Reached (R : DevRequest) (made : Prop) : CreatePc → Prop
  | .starting => True
  | .comparing records => records.task.taskId = R.id
  | .comparingRoute _ existing => made ∧ existing.taskId = R.id
  | .enqueuing task => made ∧ task.taskId = R.id
  | .queueing _ _ _ => False
  | .waking _ _ => made
  | .ended outcome => ∀ r, outcome = .response r → r.code = .accepted → made

theorem Reached.mono {made made' : Prop} {pc : CreatePc} (h : R.Reached made pc)
    (hmade : made → made') : R.Reached made' pc := by
  cases pc with
  | starting | comparing _ | queueing _ _ _ => exact h
  | comparingRoute _ _ | enqueuing _ => exact ⟨hmade h.1, h.2⟩
  | waking _ _ => exact hmade h
  | ended outcome => exact fun r hr hcode => hmade (h r hr hcode)

theorem reached_error {made : Prop} {created : Except PortError TaskView} {e : PortError} :
    R.Reached made (.ended (R.outcome created (.error e))) :=
  fun _ hr hcode => absurd hcode (code_of_error hr)

/-- A task that is found is the one that has been made. -/
theorem Sound.found (h : R.Sound s) {id : TaskId} {task : Task} (hid : id = R.id)
    (hget : s.getTask id.val = .ok task) :
    R.Made s ∧ task.taskId = R.id ∧ task.status ≠ .pending := by
  subst hid
  simp only [Store.getTask, map_eq_ok, Store.taskRow_ok] at hget
  obtain ⟨row, hrow, rfl⟩ := hget
  rcases h.whole with hunmade | hmade
  · exact absurd (hunmade.task.symm.trans hrow) (by simp)
  · obtain ⟨row', hrow', hcontent, hstatus⟩ := hmade.history.row
    cases hrow.symm.trans hrow'
    exact ⟨hmade, Constrained.ext (congrArg TaskContent.taskId hcontent), hstatus⟩

/-- A step of `_create_task` makes the task, or leaves the store alone. -/
theorem createNext_reached {c : CreateChoice} {pc pc' : CreatePc} (h : R.Sound s)
    (hpc : R.Reached (R.Made s) pc) (hnext : R.createNext c pc s = some (pc', s')) :
    R.Sound s' ∧ (R.Made s → R.Made s') ∧ R.Reached (R.Made s') pc' ∧
      s'.gatewayRequests = s.gatewayRequests := by
  have hsame : ∀ {pc' : CreatePc}, R.Reached (R.Made s) pc' → R.Sound s ∧
      (R.Made s → R.Made s) ∧ R.Reached (R.Made s) pc' ∧ s.gatewayRequests = s.gatewayRequests :=
    fun hreached => ⟨h, fun hmade => hmade, hreached, rfl⟩
  cases pc with
  | starting =>
    simp only [createNext] at hnext
    split at hnext
    · cases hnext
      exact hsame reached_error
    · rename_i command hcommand
      split at hnext
      · cases hnext
        exact hsame reached_error
      · rename_i records hrecords
        obtain ⟨hid, hcontent, hroute⟩ := records_content hcommand hrecords
        split at hnext
        · rename_i task s₁ hcreate
          cases hnext
          have hcreation := Store.createQueuedTask_ok h.coherent hcreate
          have hunmade : R.Unmade s := by
            refine h.whole.resolve_right fun hmade => ?_
            obtain ⟨row, hrow, _⟩ := hmade.history.row
            have hnew := hcreation.new
            rw [hid] at hnew
            cases hnew.symm.trans hrow
          obtain ⟨hc', hmade⟩ := made_of_created h.coherent hunmade hid hcontent hroute hcreate
          refine ⟨⟨hc', .inr hmade⟩, fun _ => hmade, ⟨hmade, ?_⟩, hcreation.gatewayRequests⟩
          exact (Store.taskId_of_moved hcreation.moved).trans hid
        · cases hnext
          exact hsame hid
        · split_ifs at hnext <;> cases hnext <;> exact hsame reached_error
  | comparing records =>
    simp only [createNext] at hnext
    split at hnext
    · rename_i existing hget
      cases hnext
      obtain ⟨hmade, hid, _⟩ := h.found hpc hget
      exact hsame ⟨hmade, hid⟩
    · cases hnext
      exact hsame reached_error
  | comparingRoute records existing =>
    simp only [createNext] at hnext
    split_ifs at hnext <;> cases hnext
    · exact hsame reached_error
    · exact hsame hpc
  | enqueuing task =>
    simp only [createNext] at hnext
    split at hnext
    · cases hnext
      exact hsame reached_error
    · rename_i current hget
      obtain ⟨hmade, hid⟩ := hpc
      obtain ⟨_, _, hpending⟩ := h.found hid hget
      rw [if_neg hpending] at hnext
      split_ifs at hnext <;> cases hnext
      · exact hsame hmade
      · exact hsame fun _ _ _ => hmade
  | queueing => exact hpc.elim
  | waking task current =>
    cases hnext
    exact hsame fun _ _ _ => hpc
  | ended => cases hnext

/-! ## What has been made -/

theorem countEvents_eq (type : EventType) (s : Store) : countEvents R.taskId type s =
    (s.history R.id).events.countP (·.eventType = type) := by
  unfold countEvents Store.history Store.taskEvents
  rw [List.countP_filter, List.countP_map]
  refine List.countP_congr fun e _ => ?_
  cases htask : e.envelope.taskId with
  | none => simp [htask]
  | some id =>
    have hid : id = R.id ↔ id.val = R.taskId :=
      ⟨congrArg Constrained.val, fun h => Constrained.ext h⟩
    simp [htask, hid, and_comm]

/-- What has been made is what is expected. -/
theorem summary_eq (h : R.Made s) : R.summary s = R.expected := by
  obtain ⟨row, hrow, hcontent, _⟩ := h.history.row
  have hfound : s.tasks.get? R.taskId = some row := hrow
  have htasks : (s.tasks.rows.filter fun row => row.key = R.taskId) = [row] := by
    rw [Table.filter_key, hfound]
    rfl
  have hcreated := (countEvents_eq (R := R) .taskCreated s).trans h.history.created
  have hqueued := (countEvents_eq (R := R) .taskQueued s).trans h.history.queued
  simp only [summary, expected, htasks, hcreated, hqueued, List.map_cons, List.map_nil, hcontent]
  exact congrArg (Summary.mk [R.content] 1 1) h.route

end DevRequest

end AIHub
