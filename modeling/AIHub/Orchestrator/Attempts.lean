import AIHub.Orchestrator.Runs
import AIHub.Storage.Writes

/-!
# How an attempt ends

A `process_task` call moves a queued task to planning and assigns its developer before it enters
the `try` block whose handlers block the task or let it fail. What is raised before that leaves
the call, and the task stays in planning.

* `ends_at_rest`: when a call that is alone with a queued task has ended, the task is blocked or
  terminal exactly if no step strands it: the selection does not raise another exception than its
  own, the developer has not been assigned to the task before, the workspace does not swallow the
  exception of its body, and the clock is not behind the task's own times.
* `left_planning`: a task that was blocked and queued again is left in planning, because its
  developer is still assigned to it.
-/

namespace AIHub

open Transition

section

variable {s s' : Store} {c : Choice} {event : EventEnvelope} {taskId : TaskId}
  {o : Orchestrator}

/-! ## Store calls that are not refused -/

namespace Store

/-- The task is being planned or run. -/
def InWork (s : Store) (taskId : TaskId) : Prop :=
  s.statusOf taskId = some .planning ∨ s.statusOf taskId = some .running

/-- The task is blocked or has ended. -/
def Rests (s : Store) (taskId : TaskId) : Prop :=
  ∃ status, s.statusOf taskId = some status ∧ (status = .blocked ∨ status.isTerminal = true)

theorem InWork.not_rests (h : s.InWork taskId) : ¬ s.Rests taskId := by
  rintro ⟨status, hstatus, hrests⟩
  rcases h with h | h <;>
  · cases h.symm.trans hstatus
    revert hrests
    decide

/-- A move of the task to `target` by `event` is legal, and the event is in order. -/
def Accepts (s : Store) (taskId : TaskId) (target : TaskStatus) (event : EventEnvelope) : Prop :=
  ∃ task, s.task? taskId = some task ∧ canTransition task.status target ∧
    LifecycleEvent task target event

/-- The stored task has been created or started after the time of the event. -/
def isAfter (s : Store) (taskId : TaskId) (event : EventEnvelope) : Bool :=
  (s.task? taskId).any fun task => task.isAfter event.timestamp

/-- Such a move is refused exactly if the task is after the event. -/
theorem Accepts.refused {target : TaskStatus} (hc : s.Coherent)
    (h : s.Accepts taskId target event) (hfault : c.fault = false) {r : Option (Task × Store)}
    (hcommit : commit c event (Store.transitionTask taskId.val target) s = some r) :
    r = none ↔ s.isAfter taskId event = true := by
  obtain ⟨task, htask, hlegal, hlife⟩ := h
  have hafter : s.isAfter taskId event = task.isAfter event.timestamp := by
    rw [isAfter, htask]
    rfl
  rw [hafter]
  cases r with
  | none =>
    simp only [true_iff]
    by_contra hin
    rw [Bool.not_eq_true, Task.isAfter_eq_false] at hin
    exact commit_transition_legal hc htask hlegal hlife hin.1 hin.2 hfault hcommit
  | some result =>
    obtain ⟨after, s'⟩ := result
    obtain ⟨before, hchange⟩ := commit_transition hc hcommit
    obtain rfl : before = task := Option.some.inj (hchange.found.symm.trans htask)
    simp [Task.isAfter_eq_false.2 ⟨hchange.created, hchange.started⟩]

end Store

/-- What `assign_task` checks of its event. -/
structure AssignsAgent (task : Task) (agent : Identifier) (event : EventEnvelope) : Prop where
  type : event.eventType = .agentAssigned
  taskId : event.taskId = some task.taskId
  agent : event.agent = some agent
  project : event.project = some task.project
  team : event.team = some task.team
  status : event.payloadStatus = some (.string task.status.value)

/-- Nothing refuses the assignment of an agent that the task does not have. -/
theorem Store.assignTask_commits {row : TaskRow} {agent : Identifier} (hc : s.Coherent)
    (hrow : s.tasks.get? taskId.val = some row) (hevent : AssignsAgent row.taskJson agent event)
    (hfresh : s.events.get? event.eventId = none) (hnew : agent ∉ row.taskJson.assignedAgents) :
    ∃ updated s', Store.assignTask taskId.val agent event s = .ok (updated, s') := by
  have hkey : row.key = taskId.val := Table.key_of_get? hrow
  have hid : row.taskJson.taskId.val = taskId.val := (hc.key_eq (hkey ▸ hrow)).symm.trans hkey
  have hvalid : ({ row.taskJson.toTaskFields with
      assignedAgents := row.taskJson.assignedAgents ++ [agent] } : TaskFields).Valid := by
    obtain ⟨hagents, hstarted, hcompleted, hterminal⟩ := row.taskJson.validity
    have hconcat := hagents.concat hnew
    rw [List.concat_eq_append] at hconcat
    exact ⟨hconcat, hstarted, hcompleted, hterminal⟩
  obtain ⟨updated, hupdated, _⟩ := Task.modelValidate_of_valid hvalid
  have hknown : ∀ id ∈ event.taskId, (s.tasks.get? id.val).isSome := by
    intro id hmem
    obtain rfl := Option.some.inj (hevent.taskId.symm.trans hmem)
    rw [hid, hrow]
    rfl
  have hstored : s.eventJsonLocked event.eventId = none := Option.map_eq_none_iff.2 hfresh
  obtain ⟨s', happend⟩ := Store.appendEventLocked_update "assign task" hfresh hknown
  refine ⟨updated, s', ?_⟩
  simp only [assignTask, bind_eq_ok, raiseIf_eq_ok, not_or, not_not]
  refine ⟨row, taskRow_ok.2 hrow, (), hevent.type, (), ⟨hevent.taskId, hevent.agent⟩, (),
    ⟨hevent.project, hevent.team⟩, ?_⟩
  simp only [hstored, bind_eq_ok, raiseIf_eq_ok, Prod.exists, pure_eq_ok, not_not]
  exact ⟨(), hevent.status, (), hnew, updated, hupdated, true, s', happend, rfl⟩

theorem commit_assign_new {task : Task} {agent : Identifier} (hc : s.Coherent)
    (htask : s.task? taskId = some task) (hevent : AssignsAgent task agent event)
    (hnew : agent ∉ task.assignedAgents) (hfault : c.fault = false) :
    commit c event (Store.assignTask taskId.val agent) s ≠ some none := by
  intro h
  unfold commit at h
  split_ifs at h with hfresh
  rw [Store.task?_eq] at htask
  obtain ⟨row, hrow, rfl⟩ := Option.map_eq_some_iff.1 htask
  obtain ⟨updated, s', hop⟩ := Store.assignTask_commits hc hrow hevent (by simpa using hfresh) hnew
  simp [call, hfault, hop, Except.toOption] at h

/-- `assign_task` refuses an agent that the task has. -/
theorem commit_assign_again {task : Task} {agent : Identifier} (hc : s.Coherent)
    (htask : s.task? taskId = some task) (hagain : agent ∈ task.assignedAgents)
    {r : Option (Task × Store)}
    (h : commit c event (Store.assignTask taskId.val agent) s = some r) : r = none := by
  cases r with
  | none => rfl
  | some result =>
    obtain ⟨after, s'⟩ := result
    obtain ⟨before, hassigned⟩ := commit_assign hc h
    obtain rfl : before = task := Option.some.inj (hassigned.found.symm.trans htask)
    have hagents := after.validity.agents
    rw [hassigned.assigned] at hagents
    exact absurd hagain fun hmem => (List.nodup_append.1 hagents).2.2 agent hmem agent (by simp) rfl

/-! ## Events -/

/-- A payload of strings under harmless keys is free of secret keys. -/
theorem findForbiddenPayloadKey_strings {payload : JsonObject}
    (h : ∀ m ∈ payload, (∃ text, m.2 = .string text) ∧
      m.1 ∈ ["reason", "role", "runtime", "status"]) : findForbiddenPayloadKey payload = none := by
  refine findForbiddenMember_flat (fun m hm => ?_) (fun m hm => ?_) _
  · obtain ⟨text, htext⟩ := (h m hm).1
    rw [htext]
    rfl
  · have hkeys : ∀ key ∈ ["reason", "role", "runtime", "status"],
        decide (normalizeKey key ∈ forbiddenPayloadKeys) = false := by decide
    exact hkeys _ (h m hm).2

namespace Orchestrator

/-- The event of an assignment is well formed. -/
theorem assignmentEvent_ok (o : Orchestrator) (c : Choice) (task : Task)
    (developer : DeveloperSelection) : ∃ event,
      o.assignmentEvent c task developer = .ok event ∧
        AssignsAgent task developer.agentId event := by
  have hcategory : EventType.agentAssigned.category ≠ "team" := by decide
  obtain ⟨event, hevent, hfields⟩ := EventEnvelope.modelValidate_of_context
    (EventFields.validateContext_ok (e := {
      eventId := c.uuid
      eventType := .agentAssigned
      timestamp := c.time
      taskId := some task.taskId
      project := some task.project
      team := some task.team
      agent := some developer.agentId
      correlationId := some (o.correlationId task.taskId)
      level := .info
      payload := [("role", .string "developer"), ("runtime", .string developer.runtime),
        ("status", .string task.status.value)] })
      rfl (fun _ => rfl) ⟨hcategory, nofun⟩ nofun (findForbiddenPayloadKey_strings (by simp)))
  refine ⟨event, hevent, ?_⟩
  constructor <;> rw [hfields]
  rfl

/-- The event of a settlement is well formed. -/
theorem settlementEvent_ok (o : Orchestrator) (c : Choice) (current : Task)
    (settlement : Settlement) : ∃ event, settlement.event o c current = .ok event ∧
      LifecycleEvent current settlement.target event ∧ event.timestamp = c.time := by
  refine o.transitionEvent_ok c current _ _ (findForbiddenPayloadKey_strings fun m hm => ?_)
  rcases JsonObject.mem_set hm with rfl | hm
  · exact ⟨⟨_, rfl⟩, by simp⟩
  · rw [List.mem_singleton] at hm
    exact hm ▸ ⟨⟨_, rfl⟩, by simp⟩

end Orchestrator

/-! ## Where a call stands -/

/-- What is true of the task where a call that is alone with it stands. -/
def ProcessPc.Stands (taskId : TaskId) (s : Store) : ProcessPc → Prop
  | waiting | gettingTask => s.statusOf taskId = some .queued
  | gotTask task => s.task? taskId = some task ∧ task.status = .queued
  | planning _ event => s.statusOf taskId = some .queued ∧ s.Accepts taskId .planning event
  | planned task => s.task? taskId = some task ∧ task.status = .planning
  | assigning task developer event => s.task? taskId = some task ∧ task.status = .planning ∧
    AssignsAgent task developer.agentId event
  | entering _ _ | settingRunning _ _ _ _ => s.statusOf taskId = some .planning
  | notifyingRunning _ _ _ | creatingRun _ _ _ | startingRun _ _ _ | runStarted _ _ _
  | executing _ _ _ | finishingRun _ _ _ _ | gettingCurrent _ _ _ | gotCurrent _ _ _ _
  | finishingTask _ _ _ _ => s.statusOf taskId = some .running
  | exiting _ (.raised _) _ => s.InWork taskId
  | closingRun _ _ | gettingFailed _ | gettingSettled _ _ => s.InWork taskId ∨ s.Rests taskId
  | gotSettled current _ => s.task? taskId = some current ∧ (s.InWork taskId ∨ s.Rests taskId)
  | settling _ settlement event =>
    (s.InWork taskId ∧ s.Accepts taskId settlement.target event) ∨ s.Rests taskId
  | exiting _ _ _ | notifyingCancelled _ _ | notifying _ | done _ => s.Rests taskId

/-- The step leaves the call by an exception that no handler sees, before the task is settled. -/
def ProcessPc.Strands (o : Orchestrator) (taskId : TaskId) (c : Choice) (s : Store) :
    ProcessPc → Prop
  | planning _ event => s.isAfter taskId event = true
  | planned task => o.selectDeveloper task = .raises
  | assigning _ developer _ =>
    ((s.task? taskId).any fun task => task.assignedAgents.contains developer.agentId) = true
  | exiting _ (.raised _) _ => c.exited = .suppresses
  | settling _ _ event => s.InWork taskId ∧ s.isAfter taskId event = true
  | _ => False

instance (s : Store) (taskId : TaskId) : Decidable (s.InWork taskId) :=
  inferInstanceAs (Decidable (_ ∨ _))

instance (o : Orchestrator) (taskId : TaskId) (c : Choice) (s : Store) (pc : ProcessPc) :
    Decidable (pc.Strands o taskId c s) := by
  unfold ProcessPc.Strands
  split <;> infer_instance

section

variable {pc pc' : ProcessPc} {task current : Task} {workspace : PreparedWorkspace}
  {runId : RunId} {result : RuntimeResult}

theorem readTask_stored (h : s.task? taskId = some task) (hfault : c.fault = false) :
    readTask c taskId s = some task := by
  rwa [readTask, hfault]

theorem StatusChange.rests {target : TaskStatus} {before after : Task}
    (h : StatusChange taskId target event s before after s')
    (htarget : target = .blocked ∨ target.isTerminal = true) : s'.Rests taskId :=
  ⟨target, h.statusOf.2, htarget⟩

/-- The handlers of `process_task` take over. -/
theorem stands_handle (task : Task) (openRun : Option RunId) (e : Raised)
    (h : s.InWork taskId ∨ s.Rests taskId) :
    (ProcessPc.handle task openRun e).Stands taskId s := by
  cases e with
  | other => cases openRun <;> exact h
  | _ => exact h

theorem stored_of_stands (h : s.InWork taskId ∨ s.Rests taskId) :
    ∃ task, s.task? taskId = some task := by
  have hstatus : ∃ status, s.statusOf taskId = some status := by
    rcases h with (h | h) | ⟨status, h, _⟩
    · exact ⟨_, h⟩
    · exact ⟨_, h⟩
    · exact ⟨_, h⟩
  obtain ⟨status, hstatus⟩ := hstatus
  obtain ⟨task, htask, _⟩ := Option.map_eq_some_iff.1 hstatus
  exact ⟨task, htask⟩

/-- A task in work can be blocked and can fail. -/
theorem canTransition_settle (h : s.InWork taskId) (htask : s.task? taskId = some task)
    (settlement : Settlement) : canTransition task.status settlement.target := by
  have hlegal : ∀ status ∈ [TaskStatus.planning, .running],
      ∀ target ∈ [TaskStatus.blocked, .failed], canTransition status target := by decide
  have hstatus : s.statusOf taskId = some task.status := congrArg (Option.map _) htask
  have hwork : task.status = .planning ∨ task.status = .running :=
    h.imp (fun h => Option.some.inj (hstatus.symm.trans h))
      fun h => Option.some.inj (hstatus.symm.trans h)
  refine hlegal _ (by simpa using hwork) _ ?_
  cases settlement <;> simp [Settlement.target]

/-- A call stays where its task can still be settled, unless the step strands it. -/
theorem processNext_stands (hc : s.Coherent) (hn : pc.Named taskId) (hfault : c.fault = false)
    (hs : pc.Stands taskId s) (hhandled : ¬ pc.Strands o taskId c s)
    (h : processNext o taskId c pc s = some (pc', s')) : pc'.Stands taskId s' := by
  cases pc with
  | waiting | done => simp [processNext] at h
  | gettingTask =>
    obtain ⟨task, htask, hstatus⟩ := Option.map_eq_some_iff.1 hs
    simp only [processNext, readTask_stored htask hfault] at h
    cases h
    exact ⟨htask, hstatus⟩
  | gotTask task =>
    obtain ⟨htask, hstatus⟩ := hs
    have hpayload : findForbiddenPayloadKey
        (JsonObject.set "status" (.string TaskStatus.planning.value) []) = none := by decide
    obtain ⟨event, hevent, hlife, _⟩ := o.transitionEvent_ok c task none .info hpayload
    simp only [processNext, hstatus, hevent] at h
    cases h
    refine ⟨(congrArg (Option.map _) htask).trans (congrArg some hstatus), task, htask, ?_, hlife⟩
    rw [hstatus]
    decide
  | planning task event =>
    obtain rfl : task.taskId = taskId := hn task (by simp [ProcessPc.tasks])
    obtain ⟨_, haccepts⟩ := hs
    simp only [processNext, Option.map_eq_some_iff] at h
    obtain ⟨_ | ⟨after, s₁⟩, hcommit, h⟩ := h <;> cases h
    · exact absurd ((haccepts.refused hc hfault hcommit).1 rfl) hhandled
    · obtain ⟨before, hchange⟩ := commit_transition hc hcommit
      exact ⟨hchange.left, hchange.status_eq⟩
  | planned task =>
    obtain ⟨htask, hstatus⟩ := hs
    have hplanning : s.statusOf taskId = some .planning :=
      (congrArg (Option.map _) htask).trans (congrArg some hstatus)
    simp only [processNext] at h
    cases hselect : o.selectDeveloper task with
    | selectionError =>
      simp only [hselect] at h
      cases h
      exact .inl (.inl hplanning)
    | raises => exact absurd hselect hhandled
    | developer developer =>
      obtain ⟨event, hevent, hassigns⟩ := o.assignmentEvent_ok c task developer
      simp only [hselect, hevent] at h
      cases h
      exact ⟨htask, hstatus, hassigns⟩
  | assigning task developer event =>
    obtain ⟨htask, hstatus, hassigns⟩ := hs
    obtain rfl : task.taskId = taskId := hn task (by simp [ProcessPc.tasks])
    have hnew : developer.agentId ∉ task.assignedAgents := by
      simpa [ProcessPc.Strands, htask] using hhandled
    simp only [processNext, Option.map_eq_some_iff] at h
    obtain ⟨_ | ⟨after, s₁⟩, hcommit, h⟩ := h <;> cases h
    · exact absurd hcommit (commit_assign_new hc htask hassigns hnew hfault)
    · obtain ⟨before, hassigned⟩ := commit_assign hc hcommit
      refine hassigned.statusOf.trans ?_
      exact (congrArg (Option.map _) htask).trans (congrArg some hstatus)
  | entering task developer =>
    simp only [processNext] at h
    split at h
    · cases h
      exact stands_handle task none _ (.inl (.inl hs))
    · split at h <;> cases h
      · exact hs
      · exact .inl hs
  | settingRunning task developer workspace event =>
    obtain rfl : task.taskId = taskId := hn task (by simp [ProcessPc.tasks])
    simp only [processNext, Option.map_eq_some_iff] at h
    obtain ⟨_ | ⟨after, s₁⟩, hcommit, h⟩ := h <;> cases h
    · exact .inl hs
    · obtain ⟨before, hchange⟩ := commit_transition hc hcommit
      exact hchange.statusOf.2
  | notifyingRunning task developer workspace =>
    simp only [processNext] at h
    split at h <;> cases h
    · exact hs
    · exact .inr hs
  | creatingRun task workspace run =>
    simp only [processNext] at h
    split at h <;> cases h
    · rename_i hcall
      exact ((call_createRun hcall).2.1.statusOf taskId).trans hs
    · exact .inr hs
  | startingRun task workspace runId =>
    simp only [processNext] at h
    split at h <;> cases h
    · rename_i hcall
      exact ((call_startRun hcall).1.statusOf taskId).trans hs
    · exact .inr hs
  | runStarted task workspace runId =>
    simp only [processNext] at h
    split_ifs at h <;> cases h
    · exact hs
    · exact .inr hs
  | executing task workspace runId =>
    simp only [processNext] at h
    split at h <;> cases h
    · exact hs
    · exact .inr hs
  | finishingRun task workspace runId result =>
    simp only [processNext] at h
    split at h <;> cases h
    · rename_i hcall
      exact ((call_finishRun hcall).1.statusOf taskId).trans hs
    · exact .inr hs
  | gettingCurrent task workspace result =>
    obtain rfl : task.taskId = taskId := hn task (by simp [ProcessPc.tasks])
    obtain ⟨current, hcurrent, hstatus⟩ := Option.map_eq_some_iff.1 hs
    simp only [processNext, readTask_stored hcurrent hfault, hstatus] at h
    cases h
    exact hs
  | gotCurrent task current workspace result =>
    simp only [processNext] at h
    split at h <;> cases h
    · exact hs
    · exact .inr hs
  | finishingTask task current result event =>
    obtain rfl : current.taskId = taskId := hn current (by simp [ProcessPc.tasks])
    simp only [processNext, Option.map_eq_some_iff, finishTask_eq] at h
    obtain ⟨_ | ⟨after, s₁⟩, hcommit, h⟩ := h <;> cases h
    · exact .inr hs
    · obtain ⟨before, hchange⟩ := commit_transition hc hcommit
      refine hchange.rests (.inr ?_)
      cases result.status <;> rfl
  | notifyingCancelled | notifying =>
    cases h
    exact hs
  | exiting task body openRun =>
    cases h
    cases body with
    | raised e =>
      have hwork : s.InWork taskId := hs
      cases hexit : c.exited with
      | leaves => exact stands_handle task openRun e (.inl hwork)
      | suppresses => exact absurd hexit hhandled
      | raises e' => exact stands_handle task openRun e' (.inl hwork)
    | completed final =>
      have hrests : s.Rests taskId := hs
      cases c.exited with
      | raises e => exact stands_handle task openRun e (.inr hrests)
      | _ => exact hrests
    | returned result =>
      have hrests : s.Rests taskId := hs
      cases c.exited with
      | raises e => exact stands_handle task openRun e (.inr hrests)
      | _ => exact hrests
  | closingRun task runId =>
    simp only [processNext] at h
    split at h <;> cases h
    · rename_i hcall
      have hsame := (call_finishRun hcall).1
      have hs' : s.InWork taskId ∨ s.Rests taskId := hs
      simpa only [ProcessPc.Stands, Store.InWork, Store.Rests, hsame.statusOf] using hs'
    · exact hs
  | gettingFailed task =>
    obtain rfl : task.taskId = taskId := hn task (by simp [ProcessPc.tasks])
    obtain ⟨current, hcurrent⟩ := stored_of_stands hs
    simp only [processNext, readTask_stored hcurrent hfault] at h
    split_ifs at h with hterminal <;> cases h
    · exact ⟨current.status, congrArg (Option.map _) hcurrent, .inr hterminal⟩
    · exact hs
  | gettingSettled task settlement =>
    obtain rfl : task.taskId = taskId := hn task (by simp [ProcessPc.tasks])
    obtain ⟨current, hcurrent⟩ := stored_of_stands hs
    simp only [processNext, readTask_stored hcurrent hfault] at h
    cases h
    exact ⟨hcurrent, hs⟩
  | gotSettled current settlement =>
    obtain ⟨hcurrent, hs⟩ := hs
    obtain ⟨event, hevent, hlife, _⟩ := o.settlementEvent_ok c current settlement
    simp only [processNext, hevent] at h
    cases h
    rcases hs with hwork | hrests
    · exact .inl ⟨hwork, current, hcurrent, canTransition_settle hwork hcurrent settlement, hlife⟩
    · exact .inr hrests
  | settling current settlement event =>
    obtain rfl : current.taskId = taskId := hn current (by simp [ProcessPc.tasks])
    simp only [processNext, Option.map_eq_some_iff] at h
    obtain ⟨_ | ⟨after, s₁⟩, hcommit, h⟩ := h <;> cases h
    · rcases hs with ⟨hwork, haccepts⟩ | hrests
      · exact absurd ⟨hwork, (haccepts.refused hc hfault hcommit).1 rfl⟩ hhandled
      · exact hrests
    · obtain ⟨before, hchange⟩ := commit_transition hc hcommit
      refine hchange.rests ?_
      cases settlement
      · exact .inl rfl
      · exact .inr rfl

/-- A step that strands the call ends it, and the task is neither blocked nor terminal. -/
theorem processNext_strands (hc : s.Coherent) (hn : pc.Named taskId) (hfault : c.fault = false)
    (hs : pc.Stands taskId s) (hstrands : pc.Strands o taskId c s)
    (h : processNext o taskId c pc s = some (pc', s')) :
    pc'.isDone = true ∧ ¬ s'.Rests taskId := by
  have hnot : ∀ {task : Task}, s.task? taskId = some task → task.status = .planning →
      ¬ s.Rests taskId := fun htask hstatus =>
    Store.InWork.not_rests (.inl ((congrArg (Option.map _) htask).trans (congrArg some hstatus)))
  cases pc with
  | planning task event =>
    obtain rfl : task.taskId = taskId := hn task (by simp [ProcessPc.tasks])
    obtain ⟨hqueued, haccepts⟩ := hs
    simp only [processNext, Option.map_eq_some_iff] at h
    obtain ⟨r, hcommit, h⟩ := h
    obtain rfl := (haccepts.refused hc hfault hcommit).2 hstrands
    cases h
    refine ⟨rfl, ?_⟩
    rintro ⟨status, hstatus, hrests⟩
    cases hqueued.symm.trans hstatus
    revert hrests
    decide
  | planned task =>
    obtain ⟨htask, hstatus⟩ := hs
    have hraises : o.selectDeveloper task = .raises := hstrands
    simp only [processNext, hraises] at h
    cases h
    exact ⟨rfl, hnot htask hstatus⟩
  | assigning task developer event =>
    obtain ⟨htask, hstatus, _⟩ := hs
    obtain rfl : task.taskId = taskId := hn task (by simp [ProcessPc.tasks])
    have hagain : developer.agentId ∈ task.assignedAgents := by
      simpa [ProcessPc.Strands, htask] using hstrands
    simp only [processNext, Option.map_eq_some_iff] at h
    obtain ⟨r, hcommit, h⟩ := h
    obtain rfl := commit_assign_again hc htask hagain hcommit
    cases h
    exact ⟨rfl, hnot htask hstatus⟩
  | exiting task body openRun =>
    cases body with
    | raised e =>
      have hwork : s.InWork taskId := hs
      have hsuppresses : c.exited = .suppresses := hstrands
      simp only [processNext, ProcessPc.leave, hsuppresses] at h
      cases h
      exact ⟨rfl, hwork.not_rests⟩
    | _ => exact hstrands.elim
  | settling current settlement event =>
    obtain rfl : current.taskId = taskId := hn current (by simp [ProcessPc.tasks])
    obtain ⟨hwork, hafter⟩ := hstrands
    rcases hs with ⟨_, haccepts⟩ | hrests
    · simp only [processNext, Option.map_eq_some_iff] at h
      obtain ⟨r, hcommit, h⟩ := h
      obtain rfl := (haccepts.refused hc hfault hcommit).2 hafter
      cases h
      exact ⟨rfl, hwork.not_rests⟩
    · exact absurd hrests hwork.not_rests
  | _ => exact hstrands.elim

end

/-! ## Runs of one call -/

section

variable {κ : Type} {s s' : OrchestratorState Unit κ}

/-- The call has not begun, and its task is queued. -/
structure Orchestrator.Queued (o : Orchestrator) (taskId : TaskId) (s : OrchestratorState Unit κ) :
    Prop where
  idle : o.Idle s
  queued : s.store.statusOf taskId = some .queued

/-- The step is one of the call, and the store does not fail. -/
def Alone (_ : OrchestratorState Unit κ) : OrchestratorLabel Unit κ → Prop
  | .process _ c => c.fault = false
  | .cancel .. | .other _ => False

instance (s : OrchestratorState Unit κ) : ∀ a : OrchestratorLabel Unit κ, Decidable (Alone s a)
  | .process _ c => inferInstanceAs (Decidable (c.fault = false))
  | .cancel .. | .other _ => inferInstanceAs (Decidable False)

/-- The step strands the call. -/
def Strands (o : Orchestrator) (taskId : TaskId) (s : OrchestratorState Unit κ) :
    OrchestratorLabel Unit κ → Prop
  | .process _ c => (s.processes ()).Strands o taskId c s.store
  | .cancel .. | .other _ => False

instance (o : Orchestrator) (taskId : TaskId) (s : OrchestratorState Unit κ) :
    ∀ a : OrchestratorLabel Unit κ, Decidable (Strands o taskId s a)
  | .process _ c => inferInstanceAs (Decidable ((s.processes ()).Strands o taskId c s.store))
  | .cancel .. | .other _ => inferInstanceAs (Decidable False)

/-- The call stands where its task can still be settled. -/
def Standing (taskId : TaskId) (s : OrchestratorState Unit κ) : Prop :=
  (s.processes ()).Stands taskId s.store

theorem Standing.rests (h : Standing taskId s) (hdone : (s.processes ()).isDone = true) :
    s.store.Rests taskId := by
  unfold Standing at h
  cases hpc : s.processes () with
  | done outcome =>
    rw [hpc] at h
    exact h
  | _ =>
    rw [hpc] at hdone
    cases hdone

variable [DecidableEq κ] {a : OrchestratorLabel Unit κ} {as : List (OrchestratorLabel Unit κ)}

/-- The runs of a call that is alone with a queued task. -/
def Orchestrator.alone (o : Orchestrator) (taskId : TaskId) :
    System (OrchestratorState Unit κ) (OrchestratorLabel Unit κ) :=
  (System.ofNext (o.Queued taskId) (o.next taskId)).guard Alone

/-- Those in which no step strands the call. -/
def Orchestrator.handled (o : Orchestrator) (taskId : TaskId) :
    System (OrchestratorState Unit κ) (OrchestratorLabel Unit κ) :=
  (o.alone taskId).guard fun s a => ¬ Strands o taskId s a

theorem alone_system (h : (o.alone taskId).Reachable s) : (o.system taskId).Reachable s :=
  System.Reachable.mono (M := System.ofNext (o.Queued taskId) (o.next taskId))
    (fun _ hs => hs.idle) (fun _ _ _ hst => hst) h.of_guard

theorem Standing.step (hs : (o.alone taskId).Reachable s) (h : Standing taskId s)
    (hstep : (o.alone taskId).step s a s') :
    (¬ Strands o taskId s a ∧ Standing taskId s') ∨
      (Strands o taskId s a ∧ (s'.processes ()).isDone = true ∧ ¬ s'.store.Rests taskId) := by
  obtain ⟨halone, hnext⟩ := hstep
  obtain ⟨hc, hn⟩ := system_named (alone_system hs)
  unfold Standing at h ⊢
  cases a with
  | process i c =>
    obtain ⟨_, _, pc', hprocesses, hmove⟩ := next_process hnext
    rw [hprocesses, Function.update_self]
    rcases hmove with ⟨hwaiting, rfl, hstore⟩ | hmove
    · rw [hwaiting] at h
      exact .inl ⟨by simp [Strands, hwaiting, ProcessPc.Strands], hstore ▸ h⟩
    · by_cases hstrands : Strands o taskId s (.process i c)
      · exact .inr ⟨hstrands, processNext_strands hc (hn ()) halone h hstrands hmove⟩
      · exact .inl ⟨hstrands, processNext_stands hc (hn ()) halone h hstrands hmove⟩
  | cancel => exact halone.elim
  | other => exact halone.elim

theorem not_step_of_done (h : (s.processes ()).isDone = true) :
    ¬ (o.alone taskId).step s a s' := by
  rintro ⟨halone, hnext⟩
  cases a with
  | process i c =>
    obtain ⟨_, _, pc', _, ⟨hwaiting, _⟩ | hmove⟩ := next_process hnext
    · rw [hwaiting] at h
      cases h
    · cases hpc : s.processes () <;> simp_all [ProcessPc.isDone, processNext]
  | cancel => exact halone.elim
  | other => exact halone.elim

/-- From where its task can be settled, a call settles it exactly if no step strands it. -/
theorem Standing.run (hs : (o.alone taskId).Reachable s) (h : Standing taskId s)
    (hr : (o.alone taskId).Run s as s') (hdone : (s'.processes ()).isDone = true) :
    s'.store.Rests taskId ↔ (o.handled taskId).Run s as s' := by
  induction hr with
  | nil s => exact iff_of_true (h.rests hdone) (.nil s)
  | @cons s t s' a as hstep hrest ih =>
    rcases h.step hs hstep with ⟨hhandled, hstanding⟩ | ⟨hstrands, hend, hnot⟩
    · rw [ih (hs.step hstep) hstanding hdone]
      constructor
      · intro hrun
        exact .cons ⟨hhandled, hstep⟩ hrun
      · intro hrun
        cases hrun with
        | cons hstep' hrun =>
          cases hstep.2.symm.trans hstep'.2.2
          exact hrun
    · have hs' : s' = t := by
        cases hrest with
        | nil => rfl
        | cons hstep' _ => exact absurd hstep' (not_step_of_done hend)
      constructor
      · intro hrests
        exact absurd (hs' ▸ hrests) hnot
      · intro hrun
        cases hrun with
        | cons hstep' _ => exact absurd hstrands hstep'.1

/-- When a call that is alone with a queued task has ended, the task is blocked or terminal exactly
if no step has stranded the call. -/
theorem ends_at_rest (hs : o.Queued taskId s) (hr : (o.alone taskId).Run s as s')
    (hdone : (s'.processes ()).isDone = true) :
    s'.store.Rests taskId ↔ (o.handled taskId).Run s as s' := by
  refine Standing.run (.of_init hs) ?_ hr hdone
  rw [Standing, hs.idle.2.2.1 ()]
  exact hs.queued

end

end

/-! ## A second attempt -/

namespace Sample

/-- A first attempt assigns the developer and blocks the task, and it is queued again. -/
def firstAttempt : List WriteOp :=
  [.createTask task created, .transitionTask taskId.val .queued queued,
    .transitionTask taskId.val .planning planning,
    .assignTask taskId.val developer
      ⟨{ event 4 .agentAssigned 13 .planning with agent := developer }, by decide⟩,
    .transitionTask taskId.val .blocked ⟨event 5 .taskBlocked 14 .blocked, by decide⟩,
    .transitionTask taskId.val .queued ⟨event 6 .taskQueued 15 .queued, by decide⟩]

def secondAttempt : OneCall := { oneCall with store := Store.empty.perform firstAttempt }

/-- A call up to the workspace, which is locked. -/
def findsLocked : List (OrchestratorLabel Unit Unit) :=
  processSteps 6 ++ [.process () (locked 6), .process () (choice 7), .process () (choice 8),
    .process () (choice 9), .process () (choice 10)]

theorem firstQueued : orchestrator.Queued Sample.taskId oneCall where
  idle := ⟨store_coherent, rfl, fun _ => rfl, fun _ => rfl⟩
  queued := by decide +kernel

theorem secondQueued : orchestrator.Queued Sample.taskId secondAttempt where
  idle := ⟨writeSystem_coherent (reachable_perform firstAttempt), rfl, fun _ => rfl, fun _ => rfl⟩
  queued := by decide +kernel

end Sample

open Sample in
/-- A first attempt that finds the project locked blocks its task. -/
theorem ends_at_rest_sample :
    let next := System.guardNext (fun s a => ¬ Strands orchestrator Sample.taskId s a)
      (System.guardNext Alone (orchestrator.next Sample.taskId))
    let s : OneCall := System.execD next oneCall findsLocked
    s.store.Rests Sample.taskId := by
  intro next s
  have hM : orchestrator.handled Sample.taskId =
      System.ofNext (orchestrator.Queued Sample.taskId) next := by
    rw [Orchestrator.handled, Orchestrator.alone, System.ofNext_guard, System.ofNext_guard]
  have hr : (orchestrator.handled Sample.taskId).Run oneCall findsLocked s := by
    rw [hM]
    exact System.run_execD (by decide +kernel)
  exact (ends_at_rest firstQueued hr.of_guard (by decide +kernel)).2 hr

open Sample in
/-- The developer is still assigned to the task, and the second attempt leaves it in planning. -/
theorem left_planning : ¬ ∀ (o : Orchestrator) (taskId : TaskId) (s s' : OneCall)
    (as : List (OrchestratorLabel Unit Unit)), o.Queued taskId s →
    (o.alone taskId).Run s as s' → (s'.processes ()).isDone = true → s'.store.Rests taskId := by
  intro h
  let next := System.guardNext Alone (orchestrator.next Sample.taskId : OneCall → _)
  have hM : orchestrator.alone Sample.taskId =
      System.ofNext (orchestrator.Queued Sample.taskId) next := System.ofNext_guard
  have hr : (orchestrator.alone Sample.taskId).Run secondAttempt (processSteps 6)
      (System.execD next secondAttempt (processSteps 6)) := by
    rw [hM]
    exact System.run_execD (by decide +kernel)
  have hwork : (System.execD next secondAttempt (processSteps 6)).store.InWork Sample.taskId :=
    .inl (by decide +kernel)
  exact hwork.not_rests
    (h orchestrator Sample.taskId secondAttempt _ _ secondQueued hr (by decide +kernel))

end AIHub
