import AIHub.Orchestrator.Steps

/-!
# What the calls of the orchestrator write

The calls of `process_task` and `cancel_task` neither make nor queue tasks: `processNext_quietly`,
`cancelNext_quietly`.
-/

namespace AIHub

/-- The operation neither makes nor queues a task, saves no route, and is not about gateway
requests. -/
def WriteOp.isQuiet : WriteOp → Bool
  | createTask _ _ | createQueuedTask _ _ _ _ | saveTaskRoute _ | reserveGatewayRequest _ _
  | rememberGatewayResponse _ _ _ | releaseGatewayRequest _ _
  | reconcileIncompleteGatewayRequests => false
  | transitionTask _ target _ => target ≠ .queued
  | assignTask _ _ _ | cancelTask _ _ | appendEvent _ | createRun _ | startRun _ _
  | finishRun _ _ _ _ _ | createArtifact _ | reserveDelivery _ _ | markDeliveryDelivered _ _
  | releaseDelivery _ | reconcileReservedDeliveries | reconcileInterruptedRunning _ _ => true

theorem WriteOp.quiet_writes {op : WriteOp} (hquiet : op.isQuiet = true) {s : Store}
    {write : TaskWrite} {event : EventFields} (hmem : (write, event) ∈ op.writes s) :
    (∀ task, write ≠ .create task) ∧ write ≠ .move .queued := by
  cases op with
  | createTask | createQueuedTask => cases hquiet
  | transitionTask _ target =>
    have htarget : target ≠ .queued := of_decide_eq_true hquiet
    cases List.mem_singleton.1 hmem
    exact ⟨(fun _ h => by cases h), fun h => htarget (TaskWrite.move.inj h)⟩
  | assignTask | cancelTask | appendEvent =>
    cases List.mem_singleton.1 hmem
    exact ⟨(fun _ h => by cases h), fun h => by cases h⟩
  | reconcileInterruptedRunning time uuid4 =>
    obtain ⟨_, _, hwrite⟩ := List.mem_map.1 hmem
    cases hwrite
    exact ⟨(fun _ h => by cases h), fun h => by cases h⟩
  | _ => cases hmem

theorem coherent_after {op : WriteOp} {s : Store} (hc : s.Coherent) (hfresh : op.FreshUuids s) :
    (op.after s).Coherent := by
  rcases WriteOp.after_eq (rfl : op.after s = op.after s) with hexec | hsame
  · exact (WriteOp.exec_history hc hfresh hexec).1
  · rw [hsame]
    exact hc

/-- Nothing is written, or a quiet operation commits. -/
def Store.WritesQuietly (s s' : Store) : Prop :=
  s' = s ∨ ∃ op : WriteOp, op.isQuiet = true ∧ op.FreshUuids s ∧ op.exec s = .ok s'

section

variable {s s' : Store} {c : Choice} {o : Orchestrator} {taskId : TaskId}

theorem quietly_ok {α : Type} {call : Store → Except HubError (α × Store)} {a : α} (op : WriteOp)
    (hexec : op.exec s = (call s).map Prod.snd) (hquiet : op.isQuiet = true)
    (hfresh : op.FreshUuids s) (h : call s = .ok (a, s')) : s.WritesQuietly s' := by
  refine .inr ⟨op, hquiet, hfresh, ?_⟩
  rw [hexec, h]
  rfl

theorem quietly_transition {event : EventEnvelope} {taskId : String} {target : TaskStatus}
    {r : Option (Task × Store)} (htarget : target ≠ .queued)
    (h : commit c event (Store.transitionTask taskId target) s = some r) :
    ∀ after s', r = some (after, s') → s.WritesQuietly s' := by
  rintro after s' rfl
  obtain ⟨_, hop⟩ := commit_some h
  exact quietly_ok (.transitionTask taskId target event) rfl (decide_eq_true htarget) trivial hop

theorem processNext_quietly {pc pc' : ProcessPc}
    (h : processNext o taskId c pc s = some (pc', s')) : s.WritesQuietly s' := by
  cases pc with
  | waiting | done => simp [processNext] at h
  | planning | settingRunning =>
    simp only [processNext, Option.map_eq_some_iff] at h
    obtain ⟨_ | ⟨after, s₁⟩, hcommit, h⟩ := h <;> cases h
    · exact .inl rfl
    · exact quietly_transition (by decide) hcommit _ _ rfl
  | settling current settlement =>
    have htarget : settlement.target ≠ .queued := by cases settlement <;> simp [Settlement.target]
    simp only [processNext, Option.map_eq_some_iff] at h
    obtain ⟨_ | ⟨after, s₁⟩, hcommit, h⟩ := h <;> cases h
    · exact .inl rfl
    · exact quietly_transition htarget hcommit _ _ rfl
  | finishingTask task current result event =>
    have htarget : Orchestrator.finishTarget result.status ≠ .queued := by
      cases result.status <;> decide
    simp only [processNext, Option.map_eq_some_iff, finishTask_eq] at h
    obtain ⟨_ | ⟨after, s₁⟩, hcommit, h⟩ := h <;> cases h
    · exact .inl rfl
    · exact quietly_transition htarget hcommit _ _ rfl
  | assigning task developer event =>
    simp only [processNext, Option.map_eq_some_iff] at h
    obtain ⟨_ | ⟨after, s₁⟩, hcommit, h⟩ := h <;> cases h
    · exact .inl rfl
    · obtain ⟨_, hop⟩ := commit_some hcommit
      exact quietly_ok (.assignTask task.taskId.val developer.agentId event) rfl rfl trivial hop
  | creatingRun task workspace run =>
    simp only [processNext] at h
    split at h <;> cases h
    · exact quietly_ok (.createRun run) rfl rfl trivial (call_some ‹_›)
    · exact .inl rfl
  | startingRun task workspace runId =>
    simp only [processNext] at h
    split at h <;> cases h
    · exact quietly_ok (.startRun runId.val c.time) rfl rfl trivial (call_some ‹_›)
    · exact .inl rfl
  | finishingRun task workspace runId result =>
    simp only [processNext] at h
    split at h <;> cases h
    · exact quietly_ok (.finishRun runId.val result.status.runStatus c.time result.exitCode
        result.status.errorCode) rfl rfl trivial (call_some ‹_›)
    · exact .inl rfl
  | closingRun task runId =>
    simp only [processNext] at h
    split at h <;> cases h
    · exact quietly_ok (.finishRun runId.val .failed c.time none (some runtimeException)) rfl rfl
        trivial (call_some ‹_›)
    · exact .inl rfl
  | _ =>
    -- the other steps only read
    simp only [processNext] at h
    repeat' split at h
    all_goals
      cases h
      exact .inl rfl

theorem cancelNext_quietly {pc pc' : CancelPc}
    (h : cancelNext o taskId c pc s = some (pc', s')) : s.WritesQuietly s' := by
  obtain rfl | ⟨task, event, after, _, hcommit⟩ := cancelNext_write h
  · exact .inl rfl
  · obtain ⟨_, hop⟩ := commit_some hcommit
    exact quietly_ok (.cancelTask taskId.val event) rfl rfl trivial hop

end

end AIHub
