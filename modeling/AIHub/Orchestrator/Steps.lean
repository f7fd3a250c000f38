import AIHub.Orchestrator.Service

/-!
# What the steps of a call do

The store calls of the orchestrator as the rest of the development sees them: what a successful
call found and left (`commit_transition`, `commit_assign`), and that a status change which is
legal and in time is not refused (`commit_transition_legal`). On top of these, a step of
`processNext` or `cancelNext` changes the tasks by at most one status change or assignment of the
call's own task (`TaskChange`), and keeps every snapshot one of that task.
-/

namespace AIHub

open Transition

variable {s s' : Store} {c : Choice} {event : EventEnvelope} {taskId : TaskId}

/-! ## Store calls -/

/-- The task `get_task` returns. -/
def Store.task? (s : Store) (taskId : TaskId) : Option Task := (s.getTask taskId.val).toOption

theorem Store.task?_eq (s : Store) (taskId : TaskId) :
    s.task? taskId = (s.tasks.get? taskId.val).map TaskRow.taskJson := by
  unfold Store.task? Store.getTask Store.taskRow
  cases s.tasks.get? taskId.val <;> rfl

/-- The status of the task `get_task` returns. -/
def Store.statusOf (s : Store) (taskId : TaskId) : Option TaskStatus :=
  (s.task? taskId).map fun task => task.status

theorem Store.Coherent.taskId_eq (hc : s.Coherent) {task : Task}
    (h : s.task? taskId = some task) : task.taskId = taskId := by
  rw [Store.task?_eq] at h
  obtain ⟨row, hrow, rfl⟩ := Option.map_eq_some_iff.1 h
  have hkey := Table.key_of_get? hrow
  rw [hc.key_eq (hkey ▸ hrow)] at hkey
  exact Constrained.val_inj.1 hkey

theorem readTask_some {task : Task} (h : readTask c taskId s = some task) :
    s.task? taskId = some task := by
  unfold readTask at h
  split_ifs at h
  exact h

theorem call_some {α : Type} {op : Store → Except HubError (α × Store)} {a : α}
    (h : call c op s = some (a, s')) : op s = .ok (a, s') := by
  unfold call at h
  split_ifs at h
  cases hop : op s with
  | error e => simp [hop, Except.toOption] at h
  | ok r => simpa [hop, Except.toOption] using h

theorem commit_some {α : Type} {op : EventEnvelope → Store → Except HubError (α × Store)} {a : α}
    (h : commit c event op s = some (some (a, s'))) :
    s.events.get? event.eventId = none ∧ op event s = .ok (a, s') := by
  unfold commit at h
  split_ifs at h with hfresh
  exact ⟨by simpa using hfresh, call_some (Option.some.inj h)⟩

theorem commit_fault {α : Type} {op : EventEnvelope → Store → Except HubError (α × Store)} {a : α}
    (h : commit c event op s = some (some (a, s'))) : c.fault = false := by
  unfold commit call at h
  split_ifs at h with hfresh hfault
  · cases h
  · exact Bool.eq_false_iff.2 hfault

theorem Store.Puts.task? {row : TaskRow} (h : s.Puts row s') (hkey : row.key = taskId.val) :
    s'.task? taskId = some row.taskJson := by
  rw [Store.task?_eq, h, if_pos hkey]
  rfl

/-- What a call of `transition_task` for `taskId` finds and leaves. -/
structure StatusChange (taskId : TaskId) (target : TaskStatus) (event : EventEnvelope)
    (s : Store) (before after : Task) (s' : Store) : Prop where
  found : s.task? taskId = some before
  legal : canTransition before.status target
  lifecycle : LifecycleEvent before target event
  created : before.createdAt ≤ event.timestamp
  started : ∀ t ∈ before.startedAt, t ≤ event.timestamp
  moved : after.toTaskFields = before.toTaskFields.moved target event.timestamp
  left : s'.task? taskId = some after
  runs : s'.runs = s.runs
  coherent : s'.Coherent

theorem commit_transition {target : TaskStatus} {after : Task} (hc : s.Coherent)
    (h : commit c event (Store.transitionTask taskId.val target) s = some (some (after, s'))) :
    ∃ before, StatusChange taskId target event s before after s' := by
  obtain ⟨hfresh, hop⟩ := commit_some h
  obtain ⟨row, hrow, hlife, ⟨hstored, _⟩ | ⟨hmoved, hstep, hputs, hsame⟩⟩ :=
    Store.transitionTask_ok hop
  · simp [Store.eventJsonLocked, hfresh] at hstored
  · obtain ⟨hlegal, hcreated, hstarted, hfields⟩ := AIHub.transitionTask_ok hmoved
    refine ⟨row.taskJson, by rw [Store.task?_eq, hrow]; rfl, hlegal, hlife, hcreated, hstarted,
      hfields, ?_, hsame.runs, hstep.coherent hc⟩
    exact hputs.task? ((TaskRow.key_moved _ _ _).trans (Table.key_of_get? hrow))

/-- The task has been created or started after `time`. -/
def Task.isAfter (task : Task) (time : Timestamp) : Bool :=
  decide (time < task.createdAt) || task.startedAt.any fun t => time < t

theorem Task.isAfter_eq_false {task : Task} {time : Timestamp} :
    task.isAfter time = false ↔ task.createdAt ≤ time ∧ ∀ t ∈ task.startedAt, t ≤ time := by
  rw [isAfter, Bool.or_eq_false_iff, decide_eq_false_iff_not, Timestamp.not_lt,
    Timestamp.any_gt_eq_false]

/-- A status change that is legal and in time is not refused. -/
theorem commit_transition_legal {target : TaskStatus} {before : Task} (hc : s.Coherent)
    (hfound : s.task? taskId = some before) (hlegal : canTransition before.status target)
    (hlife : LifecycleEvent before target event) (hcreated : before.createdAt ≤ event.timestamp)
    (hstarted : ∀ t ∈ before.startedAt, t ≤ event.timestamp) (hfault : c.fault = false) :
    commit c event (Store.transitionTask taskId.val target) s ≠ some none := by
  intro h
  unfold commit at h
  split_ifs at h with hfresh
  have hfresh' : s.events.get? event.eventId = none := by simpa using hfresh
  obtain ⟨updated, hmoved, _⟩ := transitionTask_eq_ok hlegal hcreated hstarted
  rw [Store.task?_eq] at hfound
  obtain ⟨row, hrow, rfl⟩ := Option.map_eq_some_iff.1 hfound
  obtain ⟨s', hop⟩ := Store.transitionTask_commits hc hrow hlife hfresh' hmoved
  simp [call, hfault, hop, Except.toOption] at h

/-- What a call of `assign_task` for `taskId` finds and leaves. -/
structure Assignment (taskId : TaskId) (agent : Identifier) (s : Store) (before after : Task)
    (s' : Store) : Prop where
  found : s.task? taskId = some before
  assigned : after.toTaskFields = { before.toTaskFields with
    assignedAgents := before.assignedAgents ++ [agent] }
  left : s'.task? taskId = some after
  runs : s'.runs = s.runs
  coherent : s'.Coherent

theorem commit_assign {agent : Identifier} {after : Task} (hc : s.Coherent)
    (h : commit c event (Store.assignTask taskId.val agent) s = some (some (after, s'))) :
    ∃ before, Assignment taskId agent s before after s' := by
  obtain ⟨hfresh, hop⟩ := commit_some h
  obtain ⟨row, hrow, _, _, ⟨hstored, _⟩ | ⟨hstep, hputs, hsame, hassigned⟩⟩ :=
    Store.assignTask_ok hop
  · simp [Store.eventJsonLocked, hfresh] at hstored
  · refine ⟨row.taskJson, by rw [Store.task?_eq, hrow]; rfl, hassigned, ?_, hsame.runs,
      hstep.coherent hc⟩
    exact hputs.task? ((TaskRow.key_assigned _ _ _).trans (Table.key_of_get? hrow))

theorem Assignment.taskId_eq {agent : Identifier} {before after : Task}
    (h : Assignment taskId agent s before after s') : after.taskId = taskId :=
  h.coherent.taskId_eq h.left

theorem StatusChange.taskId_eq {target : TaskStatus} {before after : Task}
    (h : StatusChange taskId target event s before after s') : after.taskId = taskId :=
  h.coherent.taskId_eq h.left

theorem StatusChange.status_eq {target : TaskStatus} {before after : Task}
    (h : StatusChange taskId target event s before after s') : after.status = target := by
  rw [h.moved]
  rfl

theorem StatusChange.statusOf {target : TaskStatus} {before after : Task}
    (h : StatusChange taskId target event s before after s') :
    s.statusOf taskId = some before.status ∧ s'.statusOf taskId = some target := by
  simp [Store.statusOf, h.found, h.left, h.status_eq]

theorem Assignment.statusOf {agent : Identifier} {before after : Task}
    (h : Assignment taskId agent s before after s') :
    s'.statusOf taskId = s.statusOf taskId := by
  simp [Store.statusOf, h.found, h.left, h.assigned]

/-- The two calls of `_finish_task` are one status change. -/
theorem finishTask_eq (current : Task) (result : RuntimeResult) :
    finishTask current result = Store.transitionTask current.taskId.val
      (Orchestrator.finishTarget result.status) := by
  funext event
  unfold finishTask
  cases result.status <;> rfl

/-! ## Runs leave tasks alone -/

theorem Store.SameTasks.task? (h : s.SameTasks s') (taskId : TaskId) :
    s'.task? taskId = s.task? taskId := by
  rw [Store.task?_eq, Store.task?_eq, h.tasks]

theorem Store.SameTasks.statusOf (h : s.SameTasks s') (taskId : TaskId) :
    s'.statusOf taskId = s.statusOf taskId := by
  rw [Store.statusOf, h.task?, Store.statusOf]

theorem call_createRun {run created : RunRecord}
    (h : call c (Store.createRun run) s = some (created, s')) :
    created = run ∧ s.SameTasks s' ∧ ∃ hfree : s.runs.get? (Store.RunRow.ofRecord run).key = none,
      s'.runs = s.runs.insert (Store.RunRow.ofRecord run) hfree := by
  obtain ⟨hcreated, _, hfree, rfl⟩ := Store.createRun_ok (call_some h)
  exact ⟨hcreated, ⟨rfl, rfl, rfl⟩, hfree, rfl⟩

theorem call_startRun {runId : RunId} {run : RunRecord}
    (h : call c (Store.startRun runId.val c.time) s = some (run, s')) : s.SameTasks s' ∧
      ∃ row, s.runs.get? runId.val = some row ∧ row.runJson.status = .queued ∧
        run.toRunFields = { row.runJson.toRunFields with
          status := .running, startedAt := some c.time } ∧
        s'.runs = (s.writeRunLocked run).runs := by
  obtain ⟨row, hrow, hstatus, hfields, rfl⟩ := Store.startRun_ok (call_some h)
  exact ⟨⟨rfl, rfl, rfl⟩, row, hrow, hstatus, hfields, rfl⟩

theorem call_finishRun {runId : RunId} {status : RunStatus} {exitCode : Option Int}
    {errorCode : Option Identifier} {run : RunRecord}
    (h : call c (Store.finishRun runId.val status c.time exitCode errorCode) s = some (run, s')) :
    s.SameTasks s' ∧ ∃ row, s.runs.get? runId.val = some row ∧
      row.runJson.status.isTerminal = false ∧
      run.toRunFields = { row.runJson.toRunFields with
        status := status
        startedAt := some (row.runJson.startedAt.getD row.runJson.createdAt)
        completedAt := some c.time
        exitCode := exitCode
        errorCode := errorCode } ∧
      s'.runs = (s.writeRunLocked run).runs := by
  obtain ⟨_, row, hrow, hactive, hfields, rfl⟩ := Store.finishRun_ok (call_some h)
  exact ⟨⟨rfl, rfl, rfl⟩, row, hrow, hactive, hfields, rfl⟩

/-! ## What a step changes -/

/-- What a step of a call does to the tasks. -/
inductive TaskChange (taskId : TaskId) (s s' : Store) : Prop
  | same (h : s.SameTasks s')
  | moved {target : TaskStatus} {event : EventEnvelope} {before after : Task}
    (h : StatusChange taskId target event s before after s')
  | assigned {agent : Identifier} {before after : Task}
    (h : Assignment taskId agent s before after s')

theorem TaskChange.refl (taskId : TaskId) (s : Store) : TaskChange taskId s s :=
  .same ⟨rfl, rfl, rfl⟩

theorem TaskChange.coherent (h : TaskChange taskId s s') (hc : s.Coherent) : s'.Coherent := by
  cases h with
  | same h => exact h.coherent hc
  | moved h => exact h.coherent
  | assigned h => exact h.coherent

/-- A task that has ended keeps its status. -/
theorem TaskChange.terminal {status : TaskStatus} (h : TaskChange taskId s s')
    (hstatus : s.statusOf taskId = some status) (hterminal : status.isTerminal = true) :
    s'.statusOf taskId = some status := by
  cases h with
  | same h => rw [h.statusOf, hstatus]
  | moved h =>
    rw [h.statusOf.1] at hstatus
    cases hstatus
    exact absurd h.legal (not_canTransition_of_terminal hterminal)
  | assigned h => rw [h.statusOf, hstatus]

/-! ## Snapshots -/

/-- Every snapshot is one of the task `taskId`. -/
def ProcessPc.Named (taskId : TaskId) (pc : ProcessPc) : Prop :=
  ∀ task ∈ pc.tasks, task.taskId = taskId

theorem named_handle {task : Task} (h : task.taskId = taskId) (openRun : Option RunId)
    (e : Raised) : (ProcessPc.handle task openRun e).Named taskId := by
  cases e <;> cases openRun <;> simpa [ProcessPc.handle, ProcessPc.Named, ProcessPc.tasks]

theorem named_leave {task : Task} (h : task.taskId = taskId) (openRun : Option RunId)
    (body : Body) (e : ExitOutcome) : (ProcessPc.leave task openRun body e).Named taskId := by
  cases body <;> cases e <;>
    first
      | exact named_handle h openRun _
      | simp [ProcessPc.leave, ProcessPc.Named, ProcessPc.tasks]

theorem readTask_taskId {id : TaskId} {task : Task} (hc : s.Coherent)
    (h : readTask c id s = some task) : task.taskId = id :=
  hc.taskId_eq (readTask_some h)

theorem named_of_task {pc : ProcessPc} {task : Task} (h : task.taskId = taskId)
    (hpc : ∀ t ∈ pc.tasks, t = task) : pc.Named taskId := fun t ht => hpc t ht ▸ h

theorem named_of_nil {pc : ProcessPc} (h : pc.tasks = []) : pc.Named taskId := by
  simp [ProcessPc.Named, h]

theorem commit_transition_named {id : TaskId} {target : TaskStatus} {r : Option (Task × Store)}
    (hc : s.Coherent) (h : commit c event (Store.transitionTask id.val target) s = some r) :
    ∀ after s', r = some (after, s') → TaskChange id s s' ∧ after.taskId = id := by
  rintro after s' rfl
  obtain ⟨before, hchange⟩ := commit_transition hc h
  exact ⟨.moved hchange, hchange.taskId_eq⟩

theorem commit_assign_named {id : TaskId} {agent : Identifier} {r : Option (Task × Store)}
    (hc : s.Coherent) (h : commit c event (Store.assignTask id.val agent) s = some r) :
    ∀ after s', r = some (after, s') → TaskChange id s s' ∧ after.taskId = id := by
  rintro after s' rfl
  obtain ⟨before, hchange⟩ := commit_assign hc h
  exact ⟨.assigned hchange, hchange.taskId_eq⟩

/-- A step changes the call's own task at most, and keeps its snapshots named. -/
theorem processNext_task {o : Orchestrator} {pc pc' : ProcessPc} (hc : s.Coherent)
    (hn : pc.Named taskId) (h : processNext o taskId c pc s = some (pc', s')) :
    TaskChange taskId s s' ∧ pc'.Named taskId := by
  cases pc with
  | waiting | done => simp [processNext] at h
  | gettingTask =>
    simp only [processNext] at h
    split at h <;> cases h
    · exact ⟨.refl _ _, named_of_task (readTask_taskId hc ‹_›) (by simp [ProcessPc.tasks])⟩
    · exact ⟨.refl _ _, named_of_nil rfl⟩
  | planning task _ | settingRunning task _ _ _ | settling task _ _ =>
    obtain rfl : task.taskId = taskId := hn task (by simp [ProcessPc.tasks])
    simp only [processNext, Option.map_eq_some_iff] at h
    obtain ⟨_ | ⟨after, s₁⟩, hcommit, h⟩ := h <;> cases h
    · exact ⟨.refl _ _, by first | exact named_of_nil rfl | exact hn⟩
    · obtain ⟨hchange, hafter⟩ := commit_transition_named hc hcommit _ _ rfl
      exact ⟨hchange, by first | exact named_of_nil rfl |
        exact named_of_task hafter (by simp [ProcessPc.tasks])⟩
  | assigning task developer event =>
    obtain rfl : task.taskId = taskId := hn task (by simp [ProcessPc.tasks])
    simp only [processNext, Option.map_eq_some_iff] at h
    obtain ⟨_ | ⟨after, s₁⟩, hcommit, h⟩ := h <;> cases h
    · exact ⟨.refl _ _, named_of_nil rfl⟩
    · obtain ⟨hchange, hafter⟩ := commit_assign_named hc hcommit _ _ rfl
      exact ⟨hchange, named_of_task hafter (by simp [ProcessPc.tasks])⟩
  | finishingTask task current result event =>
    have htask : task.taskId = taskId := hn task (by simp [ProcessPc.tasks])
    obtain rfl : current.taskId = taskId := hn current (by simp [ProcessPc.tasks])
    simp only [processNext, Option.map_eq_some_iff, finishTask_eq] at h
    obtain ⟨_ | ⟨after, s₁⟩, hcommit, h⟩ := h <;> cases h
    · exact ⟨.refl _ _, named_of_task htask (by simp [ProcessPc.tasks])⟩
    · obtain ⟨hchange, _⟩ := commit_transition_named hc hcommit _ _ rfl
      exact ⟨hchange, named_of_task htask (by simp [ProcessPc.tasks])⟩
  | gotTask task | planned task | notifyingRunning task | runStarted task | executing task =>
    simp only [processNext] at h
    repeat' split at h
    all_goals
      cases h
      exact ⟨.refl _ _, by first | exact named_of_nil rfl | exact hn⟩
  | entering task developer =>
    have htask : task.taskId = taskId := hn task (by simp [ProcessPc.tasks])
    simp only [processNext] at h
    repeat' split at h
    all_goals
      cases h
      exact ⟨.refl _ _, by first | exact named_handle htask _ _ | exact hn⟩
  | creatingRun task workspace run =>
    simp only [processNext] at h
    split at h <;> cases h
    · obtain ⟨_, hsame, _⟩ := call_createRun ‹_›
      exact ⟨.same hsame, hn⟩
    · exact ⟨.refl _ _, hn⟩
  | startingRun task workspace runId =>
    simp only [processNext] at h
    split at h <;> cases h
    · obtain ⟨hsame, _⟩ := call_startRun ‹_›
      exact ⟨.same hsame, hn⟩
    · exact ⟨.refl _ _, hn⟩
  | finishingRun task workspace runId result | closingRun task runId =>
    simp only [processNext] at h
    split at h <;> cases h
    · obtain ⟨hsame, _⟩ := call_finishRun ‹_›
      exact ⟨.same hsame, hn⟩
    · exact ⟨.refl _ _, hn⟩
  | gettingCurrent task workspace result =>
    have htask : task.taskId = taskId := hn task (by simp [ProcessPc.tasks])
    simp only [processNext] at h
    repeat' split at h
    all_goals cases h
    · exact ⟨.refl _ _, hn⟩
    all_goals
      have hcurrent := (readTask_taskId hc ‹_›).trans htask
      exact ⟨.refl _ _, by simp [ProcessPc.Named, ProcessPc.tasks, htask, hcurrent]⟩
  | gotCurrent task current workspace result =>
    have htask : task.taskId = taskId := hn task (by simp [ProcessPc.tasks])
    simp only [processNext] at h
    split at h <;> cases h
    · exact ⟨.refl _ _, hn⟩
    · exact ⟨.refl _ _, named_of_task htask (by simp [ProcessPc.tasks])⟩
  | notifyingCancelled task current =>
    have htask : task.taskId = taskId := hn task (by simp [ProcessPc.tasks])
    cases h
    exact ⟨.refl _ _, named_of_task htask (by simp [ProcessPc.tasks])⟩
  | exiting task body openRun =>
    have htask : task.taskId = taskId := hn task (by simp [ProcessPc.tasks])
    cases h
    exact ⟨.refl _ _, named_leave htask _ _ _⟩
  | gettingFailed task | gettingSettled task =>
    have htask : task.taskId = taskId := hn task (by simp [ProcessPc.tasks])
    simp only [processNext] at h
    repeat' split at h
    all_goals cases h
    all_goals
      first
        | exact ⟨.refl _ _, named_of_nil rfl⟩
        | exact ⟨.refl _ _, named_of_task ((readTask_taskId hc ‹_›).trans htask)
            (by simp [ProcessPc.tasks])⟩
  | gotSettled current settlement =>
    simp only [processNext] at h
    split at h <;> cases h
    · exact ⟨.refl _ _, hn⟩
    · exact ⟨.refl _ _, named_of_nil rfl⟩
  | notifying result =>
    cases h
    exact ⟨.refl _ _, named_of_nil rfl⟩

/-- The only write of a `cancel_task` call is its `cancel_task` store call. -/
theorem cancelNext_write {o : Orchestrator} {pc pc' : CancelPc}
    (h : cancelNext o taskId c pc s = some (pc', s')) :
    s' = s ∨ ∃ task event after, pc = .cancelling task event ∧
      commit c event (Store.cancelTask taskId.val) s = some (some (after, s')) := by
  cases pc with
  | cancelling task event =>
    simp only [cancelNext, Option.map_eq_some_iff] at h
    obtain ⟨_ | ⟨after, s₁⟩, hcommit, h⟩ := h <;> cases h
    · exact .inl rfl
    · exact .inr ⟨task, event, after, rfl, hcommit⟩
  | _ =>
    simp only [cancelNext] at h
    repeat' split at h
    all_goals
      cases h
      try exact .inl rfl

theorem cancelNext_task {o : Orchestrator} {pc pc' : CancelPc} (hc : s.Coherent)
    (h : cancelNext o taskId c pc s = some (pc', s')) : TaskChange taskId s s' := by
  obtain rfl | ⟨task, event, after, rfl, hcommit⟩ := cancelNext_write h
  · exact .refl _ _
  · exact (commit_transition_named hc hcommit _ _ rfl).1

/-! ## The steps of the system -/

section System

variable {ι κ : Type} [DecidableEq ι] [DecidableEq κ] {o : Orchestrator}
  {s s' : OrchestratorState ι κ} {i : ι} {j : κ}

/-- A call enters the semaphore or passes one await. -/
theorem next_process (h : o.next taskId s (.process i c) = some s') :
    s'.clock = c.time ∧ s'.cancels = s.cancels ∧ ∃ pc',
      s'.processes = Function.update s.processes i pc' ∧
      ((s.processes i = .waiting ∧ pc' = .gettingTask ∧ s'.store = s.store) ∨
        processNext o taskId c (s.processes i) s.store = some (pc', s'.store)) := by
  unfold Orchestrator.next at h
  split at h
  · rename_i i' c' hlabel
    cases hlabel
    split at h
    · rename_i hpc
      split_ifs at h
      cases h
      exact ⟨rfl, rfl, _, rfl, .inl ⟨hpc, rfl, rfl⟩⟩
    · obtain ⟨⟨pc', store⟩, hnext, rfl⟩ := Option.map_eq_some_iff.1 h
      exact ⟨rfl, rfl, pc', rfl, .inr hnext⟩
  all_goals
    rename_i hlabel
    cases hlabel

theorem next_cancel (h : o.next taskId s (.cancel j c) = some s') :
    s'.clock = c.time ∧ s'.processes = s.processes ∧ ∃ pc',
      s'.cancels = Function.update s.cancels j pc' ∧
      cancelNext o taskId c (s.cancels j) s.store = some (pc', s'.store) := by
  obtain ⟨⟨pc', store⟩, hnext, rfl⟩ := Option.map_eq_some_iff.1 h
  exact ⟨rfl, rfl, pc', rfl, hnext⟩

theorem next_other {op : WriteOp} (h : o.next taskId s (.other op) = some s') :
    s'.processes = s.processes ∧ s'.cancels = s.cancels ∧ op.FreshUuids s.store ∧
      op.after s.store = s'.store := by
  simp only [Orchestrator.next] at h
  split_ifs at h with hfresh
  cases h
  exact ⟨rfl, rfl, hfresh, rfl⟩

/-- In every reachable state the tables are coherent and the snapshots named. -/
theorem system_named (h : (o.system taskId).Reachable s) :
    s.store.Coherent ∧ ∀ i, (s.processes i).Named taskId := by
  have hI : (o.system taskId : System (OrchestratorState ι κ) _).Invariant
      fun s => s.store.Coherent ∧ ∀ i, (s.processes i).Named taskId := {
    init := fun s hs => ⟨hs.1, fun i => by simp [hs.2.2.1 i, ProcessPc.Named, ProcessPc.tasks]⟩
    step := by
      rintro s (⟨i, c⟩ | ⟨j, c⟩ | op) s' ⟨hc, hn⟩ hstep
      · obtain ⟨_, _, pc', hprocesses, ⟨_, rfl, hstore⟩ | hnext⟩ := next_process hstep
        · rw [hstore, hprocesses]
          refine ⟨hc, Function.forall_update_iff _ (fun _ pc => ProcessPc.Named taskId pc) |>.2
            ⟨?_, ?_⟩⟩
          · exact named_of_nil rfl
          · exact fun i' _ => hn i'
        · obtain ⟨hchange, hn'⟩ := processNext_task hc (hn i) hnext
          rw [hprocesses]
          exact ⟨hchange.coherent hc,
            Function.forall_update_iff _ (fun _ pc => ProcessPc.Named taskId pc) |>.2
              ⟨hn', fun i' _ => hn i'⟩⟩
      · obtain ⟨_, hprocesses, pc', _, hnext⟩ := next_cancel hstep
        exact ⟨(cancelNext_task hc hnext).coherent hc, hprocesses ▸ hn⟩
      · obtain ⟨hprocesses, _, hfresh, hafter⟩ := next_other hstep
        refine ⟨?_, hprocesses ▸ hn⟩
        rcases WriteOp.after_eq hafter with hexec | hsame
        · exact (WriteOp.exec_history hc hfresh hexec).1
        · exact hsame ▸ hc }
  exact hI.reachable h

end System

end AIHub
