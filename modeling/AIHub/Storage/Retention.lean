import AIHub.Storage.History
import AIHub.Storage.Writes

/-!
# What the store never loses

Two properties of every later state of a store.

* `nothing_lost`: events, artifacts, routes, remembered responses, delivered receipts and finished
  runs stay as they are, and no task or run disappears.
* `terminal_final`: as long as no agent is assigned to it any more, a terminal task stays as it is
  and gets no further atomic event. `assigned_when_completed` is the exception: `assign_task` does
  not look at the status.
-/

namespace AIHub

open Transition

/-! ## Durable records -/

/-- The two rows are about the same task. -/
structure TaskRow.SameTask (row' row : TaskRow) : Prop where
  taskId : row'.taskId = row.taskId
  project : row'.project = row.project
  team : row'.team = row.team

namespace Store

/-- `s'` still has everything of `s` that is durable. -/
structure Keeps (s s' : Store) : Prop where
  events : ∀ e ∈ s.events, e ∈ s'.events
  artifacts : ∀ a ∈ s.artifacts, a ∈ s'.artifacts
  taskRoutes : ∀ r ∈ s.taskRoutes, r ∈ s'.taskRoutes
  responses : ∀ r ∈ s.gatewayRequests, r.responseJson.isSome = true → r ∈ s'.gatewayRequests
  delivered : ∀ r ∈ s.deliveryReceipts, r.state = .delivered → r ∈ s'.deliveryReceipts
  finished : ∀ r ∈ s.runs, r.status.isTerminal = true → r ∈ s'.runs
  tasks : ∀ r ∈ s.tasks, ∃ r' ∈ s'.tasks, r'.SameTask r
  runs : ∀ r ∈ s.runs, ∃ r' ∈ s'.runs, r'.runId = r.runId

variable {s s' s'' : Store}

theorem Keeps.refl (s : Store) : s.Keeps s where
  events _ h := h
  artifacts _ h := h
  taskRoutes _ h := h
  responses _ h _ := h
  delivered _ h _ := h
  finished _ h _ := h
  tasks r h := ⟨r, h, rfl, rfl, rfl⟩
  runs r h := ⟨r, h, rfl⟩

theorem Keeps.trans (h : s.Keeps s') (h' : s'.Keeps s'') : s.Keeps s'' where
  events e he := h'.events e (h.events e he)
  artifacts a ha := h'.artifacts a (h.artifacts a ha)
  taskRoutes r hr := h'.taskRoutes r (h.taskRoutes r hr)
  responses r hr hresponse := h'.responses r (h.responses r hr hresponse) hresponse
  delivered r hr hstate := h'.delivered r (h.delivered r hr hstate) hstate
  finished r hr hstatus := h'.finished r (h.finished r hr hstatus) hstatus
  tasks r hr := by
    obtain ⟨r₁, hr₁, hsame⟩ := h.tasks r hr
    obtain ⟨r₂, hr₂, hsame'⟩ := h'.tasks r₁ hr₁
    exact ⟨r₂, hr₂, hsame'.taskId.trans hsame.taskId, hsame'.project.trans hsame.project,
      hsame'.team.trans hsame.team⟩
  runs r hr := by
    obtain ⟨r₁, hr₁, hsame⟩ := h.runs r hr
    obtain ⟨r₂, hr₂, hsame'⟩ := h'.runs r₁ hr₁
    exact ⟨r₂, hr₂, hsame'.trans hsame⟩

/-- Rewriting the row of a task keeps a row of this task. -/
theorem updateTask_sameTask {row r : TaskRow} {f : TaskRow → TaskRow}
    {hf : ∀ r, (f r).key = r.key} (hfound : s.tasks.get? row.key = some row)
    (hsame : (f row).SameTask row) (hr : r ∈ s.tasks) :
    ∃ r' ∈ (s.updateTask row.key row.version f hf).tasks, r'.SameTask r := by
  by_cases hkey : r.key = row.key
  · have hrow : r = row := Table.eq_of_key_eq hr (Table.get?_eq_some.1 hfound).1 hkey
    subst hrow
    exact ⟨f r, (mem_updateTask hfound).2 (.inr rfl), hsame⟩
  · exact ⟨r, (mem_updateTask hfound).2 (.inl ⟨hr, hkey⟩), rfl, rfl, rfl⟩

/-- A single write loses nothing durable. -/
theorem Write.keeps (h : s.Write s') : s.Keeps s' := by
  have hrefl := Keeps.refl s
  cases h with
  | createTask task time pending free =>
    refine { hrefl with tasks := fun r hr => ⟨r, ?_, rfl, rfl, rfl⟩ }
    exact (Table.mem_insert (h := free)).2 (.inl hr)
  | moveTask row target updated time f hf found moved write =>
    exact { hrefl with
      tasks := fun r hr => updateTask_sameTask found (by rw [write]; exact ⟨rfl, rfl, rfl⟩) hr }
  | assignTask row agent updated time f hf found assigned write =>
    exact { hrefl with
      tasks := fun r hr => updateTask_sameTask found (by rw [write]; exact ⟨rfl, rfl, rfl⟩) hr }
  | storeEvent event free known =>
    exact { hrefl with events := fun e he => (Table.mem_insert (h := free)).2 (.inl he) }
  | createRun run free =>
    exact { hrefl with
      finished := fun r hr _ => (Table.mem_insert (h := free)).2 (.inl hr)
      runs := fun r hr => ⟨r, (Table.mem_insert (h := free)).2 (.inl hr), rfl⟩ }
  | rewriteRun row run found active runId taskId createdAt =>
    have hkept : ∀ r ∈ s.runs, r.key ≠ row.key → r ∈ (s.writeRunLocked run).runs :=
      fun r hr hne => (mem_writeRunLocked found runId).2 (.inl ⟨hr, hne⟩)
    have hrow : ∀ r ∈ s.runs, r.key = row.key → r = row := fun r hr hkey =>
      Table.eq_of_key_eq hr (Table.get?_eq_some.1 found).1 hkey
    refine { hrefl with finished := fun r hr hstatus => hkept r hr fun hkey => ?_, runs := ?_ }
    · rw [hrow r hr hkey, active] at hstatus
      cases hstatus
    · intro r hr
      by_cases hkey : r.key = row.key
      · rw [hrow r hr hkey]
        exact ⟨_, (mem_writeRunLocked found runId).2 (.inr rfl), rfl⟩
      · exact ⟨r, hkept r hr hkey, rfl⟩
  | createArtifact artifact free =>
    exact { hrefl with artifacts := fun a ha => (Table.mem_insert (h := free)).2 (.inl ha) }
  | reserveRequest key time free =>
    exact { hrefl with responses := fun r hr _ => (Table.mem_insert (h := free)).2 (.inl hr) }
  | rememberResponse key response =>
    refine { hrefl with responses := fun r hr hresponse => ?_ }
    refine List.mem_map.2 ⟨r, hr, if_neg ?_⟩
    simp [Option.isNone_eq_false_iff.2 hresponse]
  | dropRequests p incomplete =>
    refine { hrefl with responses := fun r hr hresponse => Table.mem_delete.2 ⟨hr, ?_⟩ }
    cases hp : p r with
    | false => rfl
    | true =>
      rw [incomplete r hr hp] at hresponse
      cases hresponse
  | saveRoute route free =>
    exact { hrefl with taskRoutes := fun r hr => (Table.mem_insert (h := free)).2 (.inl hr) }
  | reserveReceipt id time free =>
    exact { hrefl with delivered := fun r hr _ => (Table.mem_insert (h := free)).2 (.inl hr) }
  | deliverReceipt row time found reserved =>
    refine { hrefl with delivered := fun r hr hstate => ?_ }
    refine List.mem_map.2 ⟨r, hr, if_neg ?_⟩
    intro hkey
    have hrow : r = row := Table.eq_of_key_eq hr (Table.get?_eq_some.1 found).1
      (of_decide_eq_true hkey)
    rw [hrow, reserved] at hstate
    cases hstate
  | dropReceipts p reserved =>
    refine { hrefl with delivered := fun r hr hstate => Table.mem_delete.2 ⟨hr, ?_⟩ }
    cases hp : p r with
    | false => rfl
    | true =>
      rw [reserved r hr hp] at hstate
      cases hstate

theorem Writes.keeps (h : s.Writes s') : s.Keeps s' := by
  induction h with
  | refl => exact .refl s
  | tail _ hwrite ih => exact ih.trans hwrite.keeps

end Store

/-- No sequence of write operations, whether they commit or raise, loses or alters a stored event,
an artifact, a task route, a remembered response, a delivered receipt or a finished run, or removes
a task or a run. -/
theorem nothing_lost {s s' : Store} {ops : List WriteOp} (h : writeSystem.Reachable s)
    (hr : writeSystem.Run s ops s') : s.Keeps s' :=
  (run_writes h hr).keeps

namespace Sample

def running : EventEnvelope := ⟨event 3 .taskStarted 12 .running, by decide⟩
def completed : EventEnvelope := ⟨event 4 .taskCompleted 13 .completed, by decide⟩

/-- An assignment of an agent to the completed task. -/
def assignment : EventEnvelope :=
  ⟨{ event 5 .agentAssigned 14 .completed with agent := some developer }, by decide⟩

/-- The task is created, queued, run and completed. -/
def history : List WriteOp :=
  [.createTask task created, .transitionTask taskId.val .queued queued,
    .transitionTask taskId.val .running running, .transitionTask taskId.val .completed completed]

/-- A move that is refused, and a restart. -/
def afterwards : List WriteOp :=
  [.cancelTask taskId.val ⟨event 6 .taskCancelled 15 .cancelled, by decide⟩,
    .reconcileInterruptedRunning ⟨16, 0⟩ fun _ => 7]

def done : Store := Store.empty.perform history

end Sample

open Sample in
theorem nothing_lost_sample : done.Keeps (done.perform afterwards) :=
  nothing_lost (reachable_perform Sample.history) (run_perform done afterwards)

/-! ## Terminal tasks -/

namespace History

variable {id : TaskId} {write : TaskWrite} {event : EventEnvelope} {row : TaskRow}
  {events : List EventEnvelope} {h' : History}

/-- What a step can do to a terminal task: append an event of another type, or assign an agent. -/
theorem Step.of_terminal (h : History.Step id event write ⟨some row, events⟩ h')
    (hterm : row.taskJson.status.isTerminal = true) :
    (h'.row = some row ∧ h'.atomicEvents = (History.mk (some row) events).atomicEvents) ∨
      ∃ agent, write = .assign agent := by
  cases h with
  | append _ _ _ type =>
    refine .inl ⟨rfl, ?_⟩
    rw [atomicEvents_append, if_neg type, List.append_nil]
  | move _ _ _ _ _ _ moved =>
    exact absurd (transitionTask_ok moved).1 (not_canTransition_of_terminal hterm)
  | assign _ _ agent => exact .inr ⟨agent, rfl⟩

end History

/-- The call assigns an agent to the task, and the stored task is terminal. -/
def AssignsTerminal (id : TaskId) (s : Store) : WriteOp → Prop
  | .assignTask taskId agent event => taskId = id.val ∧
    (WriteOp.assignTask taskId agent event).Commits s ∧ s.events.get? event.eventId = none ∧
    ((s.tasks.get? taskId).any fun row => row.status.isTerminal) = true
  | _ => False

instance (id : TaskId) (s : Store) : (op : WriteOp) → Decidable (AssignsTerminal id s op)
  | .assignTask _ _ _ => inferInstanceAs (Decidable (_ ∧ _ ∧ _ ∧ _))
  | .createTask .. | .createQueuedTask .. | .transitionTask .. | .cancelTask .. | .appendEvent ..
  | .createRun .. | .startRun .. | .finishRun .. | .createArtifact ..
  | .reserveGatewayRequest .. | .rememberGatewayResponse .. | .releaseGatewayRequest ..
  | .reconcileIncompleteGatewayRequests | .saveTaskRoute .. | .reserveDelivery ..
  | .markDeliveryDelivered .. | .releaseDelivery .. | .reconcileReservedDeliveries
  | .reconcileInterruptedRunning .. => inferInstanceAs (Decidable False)

section

variable {s s' : Store} {id : TaskId} {row : TaskRow} {op : WriteOp}

/-- The row of a task, and its atomic events, are as they were. -/
structure Store.SameTask (id : TaskId) (s s' : Store) : Prop where
  row : (s'.history id).row = (s.history id).row
  events : (s'.history id).atomicEvents = (s.history id).atomicEvents

theorem Store.SameTask.of_history (h : s'.history id = s.history id) : s.SameTask id s' :=
  ⟨congrArg History.row h, congrArg History.atomicEvents h⟩

/-- Only an assignment to `id` writes an assignment event for it. -/
theorem assignsTerminal_of_writes {agent : Identifier} {event : EventEnvelope} (hm : s.Mirrored)
    (hrow : s.tasks.get? id.val = some row) (hterm : row.status.isTerminal = true)
    (h : op.exec s = .ok s') (hmem : (.assign agent, event.toEventFields) ∈ op.writes s)
    (hfree : s.events.get? event.eventId = none) (hid : event.taskId = some id) :
    AssignsTerminal id s op := by
  cases op with
  | assignTask taskId agent' event' =>
    simp only [WriteOp.writes, List.mem_singleton, Prod.mk.injEq] at hmem
    have hevent : event = event' := EventEnvelope.ext hmem.2
    subst hevent
    have hcommits : (WriteOp.assignTask taskId agent' event).Commits s := ⟨s', h⟩
    rw [WriteOp.exec, map_eq_ok] at h
    obtain ⟨⟨_, _⟩, hcall, rfl⟩ := h
    obtain ⟨row', hrow', _, htask, _⟩ := Store.assignTask_ok hcall
    have hkey : taskId = id.val := by
      have hjson := (hm.tasks row' (Table.get?_eq_some.1 hrow').1).taskId
      rw [← Table.key_of_get? hrow', ← Option.some.inj (htask.symm.trans hid), hjson]
      rfl
    refine ⟨hkey, hcommits, hfree, ?_⟩
    rw [hkey, hrow]
    exact hterm
  | _ => simp [WriteOp.writes] at hmem

/-- Restart reconciliation leaves the tasks alone that are neither planning nor running. -/
theorem reconcileInterruptedRunning_other {time : Timestamp} {uuid4 : TaskId → Uuid}
    {result : Store.ReconciliationResult} (hm : s.Mirrored) (hrow : s.tasks.get? id.val = some row)
    (hother : row.status ≠ .planning ∧ row.status ≠ .running)
    (h : Store.reconcileInterruptedRunning time uuid4 s = .ok (result, s')) :
    s'.history id = s.history id := by
  simp only [Store.reconcileInterruptedRunning, bind_eq_ok, Prod.exists, pure_eq_ok] at h
  obtain ⟨runs, s₁, hruns, out, s₂, htasks, h⟩ := h
  cases h
  have hsame : s.SameTasks s₁ := Store.forEach_rel Store.SameTasks.refl
    (fun _ _ _ => Store.SameTasks.trans) (fun _ _ _ _ => Store.interruptRun_sameTasks) hruns
  obtain ⟨hm₁, _⟩ := Store.forEach_rows RunRow.key Store.Mirrored Store.FoundRun (fun _ _ => True)
    (fun _ => trivial) (fun _ _ _ _ _ => trivial)
    (fun row b s s' hm hfound hbody =>
      have hwrites := Store.interruptRun_writes hm hfound hbody
      ⟨hwrites.1, trivial, hwrites.2.2⟩)
    hm (fun row hrow => Store.activeRuns_found hrow) s.activeRuns_nodup hruns
  rw [← hsame.history id]
  -- The loop finds other rows only, and each turn leaves the row and the events of `id` alone.
  refine (Store.forEach_rows TaskRow.key
    (fun s => s.Mirrored ∧ s.tasks.get? id.val = some row)
    (fun s r => s.FoundTask r ∧ (r.status = .planning ∨ r.status = .running))
    (fun s s' => s'.history id = s.history id) (fun _ => rfl)
    (fun _ _ _ h h' => h'.trans h) ?_ ⟨hm₁, hsame.tasks ▸ hrow⟩
    (fun r hr => Store.interruptedTasks_mem hr) s₁.interruptedTasks_nodup htasks).2
  intro r out s s' hs hfound hbody
  obtain ⟨hm, hrow⟩ := hs
  obtain ⟨hm', _, hkept⟩ := Store.blockInterruptedTask_writes hm hfound.1 hbody
  have hne : r.key ≠ id.val := by
    intro heq
    have hr : r = row := Option.some.inj (hfound.1.symm.trans (heq ▸ hrow))
    rcases hfound.2 with hstatus | hstatus
    · exact hother.1 (hr ▸ hstatus)
    · exact hother.2 (hr ▸ hstatus)
  have hhistory := Store.blockInterruptedTask_other hm hfound.1 hne hbody
  have hrow' : s'.tasks.get? id.val = some row :=
    (congrArg History.row hhistory).trans hrow
  exact ⟨⟨hm', hrow'⟩, hhistory, fun x hx hfoundx => ⟨hkept x hx hfoundx.1, hfoundx.2⟩⟩

/-- No committed call changes a terminal task, unless it assigns an agent to it. -/
theorem exec_sameTask (hm : s.Mirrored) (hc : s.Coherent)
    (hrow : s.tasks.get? id.val = some row) (hterm : row.status.isTerminal = true)
    (hassign : ¬ AssignsTerminal id s op) (h : op.exec s = .ok s') : s.SameTask id s' := by
  have hjson : row.taskJson.status.isTerminal = true := by
    rw [(hm.tasks row (Table.get?_eq_some.1 hrow).1).status]
    exact hterm
  have hhistory : s.history id = ⟨some row, s.taskEvents id⟩ := by rw [Store.history, hrow]
  by_cases hreconcile : ∃ time uuid4, op = .reconcileInterruptedRunning time uuid4
  · obtain ⟨time, uuid4, rfl⟩ := hreconcile
    rw [WriteOp.exec, map_eq_ok] at h
    obtain ⟨⟨_, _⟩, hcall, rfl⟩ := h
    refine .of_history (reconcileInterruptedRunning_other hm hrow ⟨?_, ?_⟩ hcall) <;>
      · intro hstatus
        rw [hstatus] at hterm
        cases hterm
  · have hfresh : op.FreshUuids s := by
      cases op with
      | reconcileInterruptedRunning time uuid4 => exact absurd ⟨time, uuid4, rfl⟩ hreconcile
      | _ => trivial
    cases (WriteOp.exec_history hc hfresh h).2 id with
    | same hsame => exact .of_history hsame
    | one write event hmem hfree hstep =>
      rw [hhistory] at hstep
      rcases hstep.of_terminal hjson with ⟨hrow', hevents⟩ | ⟨agent, rfl⟩
      · exact ⟨hrow'.trans (congrArg History.row hhistory).symm, by rw [hevents, hhistory]⟩
      · exact absurd (assignsTerminal_of_writes hm hrow hterm h hmem hfree hstep.taskId) hassign
    | queued task createdEvent queuedEvent hmem hfree horder hdistinct hlife hfirst hsecond =>
      rw [hhistory] at hfirst
      cases hfirst

/-- As long as no agent is assigned to it, a terminal task stays as it is and gets no further
atomic event. -/
theorem terminal_final {ops : List WriteOp} (h : writeSystem.Reachable s)
    (hrow : s.tasks.get? id.val = some row) (hterm : row.status.isTerminal = true)
    (hr : (writeSystem.guard fun s op => ¬ AssignsTerminal id s op).Run s ops s') :
    s'.tasks.get? id.val = some row ∧
      (s'.history id).atomicEvents = (s.history id).atomicEvents := by
  induction hr with
  | nil => exact ⟨hrow, rfl⟩
  | @cons s t u op ops hstep _ ih =>
    obtain ⟨hassign, hafter⟩ := hstep
    have hsame : s.SameTask id t := by
      rcases WriteOp.after_eq hafter with hexec | rfl
      · exact exec_sameTask (writeSystem_mirrored h) (writeSystem_coherent h) hrow hterm hassign
          hexec
      · exact ⟨rfl, rfl⟩
    obtain ⟨hrow', hevents⟩ := ih (h.step hafter) (hsame.row.trans hrow)
    exact ⟨hrow', hevents.trans hsame.events⟩

end

/-! ## An agent for a completed task -/

namespace Sample

/-- The row of the completed task. -/
def doneRow : TaskRow := (done.tasks.get? taskId.val).getD (.created task ⟨10, 0⟩)

theorem done_row : done.tasks.get? taskId.val = some doneRow := by decide +kernel

end Sample

open Sample in
theorem terminal_final_sample :
    (done.perform afterwards).tasks.get? taskId.val = some doneRow ∧
      ((done.perform afterwards).history taskId).atomicEvents =
        (done.history taskId).atomicEvents := by
  have hr : (writeSystem.guard fun s op => ¬ AssignsTerminal taskId s op).Run done afterwards
      (done.perform afterwards) := by
    rw [afterwards]
    exact .cons ⟨id, rfl⟩ (.cons ⟨id, rfl⟩ (.nil _))
  exact terminal_final (reachable_perform Sample.history) done_row (by decide +kernel) hr

open Sample in
/-- `assign_task` accepts a completed task: its row changes, and an assignment event is stored. -/
theorem assigned_when_completed : ¬ ∀ (s s' : Store) (id : TaskId) (row : TaskRow)
    (ops : List WriteOp), writeSystem.Reachable s → s.tasks.get? id.val = some row →
    row.status.isTerminal = true → writeSystem.Run s ops s' →
    s'.tasks.get? id.val = some row ∧
      (s'.history id).atomicEvents = (s.history id).atomicEvents := by
  intro h
  let ops : List WriteOp := [.assignTask taskId.val developer assignment]
  have hfinal := h done (done.perform ops) taskId doneRow ops (reachable_perform Sample.history)
    done_row (by decide +kernel) (run_perform done ops)
  have hchanged : (done.perform ops).tasks.get? taskId.val ≠ some doneRow := by decide +kernel
  exact hchanged hfinal.1

end AIHub
