import AIHub.Orchestrator.Claim

/-!
# Cancelling a task before its runtime starts

Between the transition to running and the invocation of `runtime.execute` a `process_task` call
waits for the notifier, for `create_run` and for `start_run`, and it does not read the task again
before it invokes the runtime. A `cancel_task` call whose write lands in between finds no runtime
to stop: `runtime.cancel` raises a `LookupError`, which is suppressed.

* `not_invoked_once_cancelled`: as long as no cancellation lands there, a task that the store
  records as cancelled is never handed to the runtime.
* `invoked_when_cancelled`: the task is cancelled while the call notifies, and the runtime is
  invoked all the same.
-/

namespace AIHub

open Transition

variable {κ : Type} [DecidableEq κ] {o : Orchestrator} {taskId : TaskId}

/-- The task has been moved to running, and the runtime has not been invoked for it. -/
def ProcessPc.awaitsRuntime : ProcessPc → Bool
  | notifyingRunning .. | creatingRun .. | startingRun .. | runStarted .. => true
  | _ => false

def ProcessPc.isRunStarted : ProcessPc → Bool
  | runStarted .. => true
  | _ => false

def ProcessPc.isExecuting : ProcessPc → Bool
  | executing .. => true
  | _ => false

/-- The `process_task` call invokes `runtime.execute`. -/
def InvokesRuntime (s s' : OrchestratorState Unit κ) : Prop :=
  (s.processes ()).isRunStarted ∧ (s'.processes ()).isExecuting

/-- The step is the store write of a cancellation, it commits, and the `process_task` call is
about to invoke the runtime. -/
def CancelsBeforeRuntime (taskId : TaskId) (s : OrchestratorState Unit κ) :
    OrchestratorLabel Unit κ → Prop
  | .cancel j c =>
    match s.cancels j with
    | .cancelling _ event => c.fault = false ∧
      (WriteOp.cancelTask taskId.val event).Commits s.store ∧
      (s.processes ()).awaitsRuntime = true
    | _ => False
  | _ => False

instance (taskId : TaskId) (s : OrchestratorState Unit κ) (a : OrchestratorLabel Unit κ) :
    Decidable (CancelsBeforeRuntime taskId s a) := by
  unfold CancelsBeforeRuntime
  repeat' split
  all_goals infer_instance

/-- The runs of one `process_task` call and any number of `cancel_task` calls in which no
cancellation lands while the call is about to invoke the runtime. -/
def Orchestrator.cancelsInTime (o : Orchestrator) (taskId : TaskId) :
    System (OrchestratorState Unit κ) (OrchestratorLabel Unit κ) :=
  (o.calls taskId).guard fun s a => ¬ CancelsBeforeRuntime taskId s a

section

variable {s s' : OrchestratorState Unit κ} {a : OrchestratorLabel Unit κ}

theorem awaitsRuntime_handle (task : Task) (openRun : Option RunId) (e : Raised) :
    (ProcessPc.handle task openRun e).awaitsRuntime = false := by
  cases e <;> cases openRun <;> rfl

theorem awaitsRuntime_leave (task : Task) (openRun : Option RunId) (body : Body)
    (e : ExitOutcome) : (ProcessPc.leave task openRun body e).awaitsRuntime = false := by
  cases body <;> cases e <;> first | exact awaitsRuntime_handle _ _ _ | rfl

/-- A call comes to wait for the runtime by moving the task to running. -/
theorem processNext_awaitsRuntime {c : Choice} {pc pc' : ProcessPc} {s s' : Store}
    (hc : s.Coherent) (hn : pc.Named taskId) (h : processNext o taskId c pc s = some (pc', s'))
    (hpc' : pc'.awaitsRuntime = true) :
    s'.statusOf taskId = some .running ∨ (pc.awaitsRuntime = true ∧ s.SameTasks s') := by
  cases pc with
  | settingRunning task developer workspace event =>
    obtain rfl : task.taskId = taskId := hn task (by simp [ProcessPc.tasks])
    simp only [processNext, Option.map_eq_some_iff] at h
    obtain ⟨_ | ⟨after, s₁⟩, hcommit, h⟩ := h <;> cases h
    · cases hpc'
    · obtain ⟨before, hchange⟩ := commit_transition hc hcommit
      exact .inl hchange.statusOf.2
  | notifyingRunning task developer workspace =>
    simp only [processNext] at h
    split at h <;> cases h
    · exact .inr ⟨rfl, rfl, rfl, rfl⟩
    · cases hpc'
  | creatingRun task workspace run =>
    simp only [processNext] at h
    split at h <;> cases h
    · exact .inr ⟨rfl, (call_createRun ‹_›).2.1⟩
    · cases hpc'
  | startingRun task workspace runId =>
    simp only [processNext] at h
    split at h <;> cases h
    · exact .inr ⟨rfl, (call_startRun ‹_›).1⟩
    · cases hpc'
  | planning | assigning | finishingTask | settling =>
    simp only [processNext, Option.map_eq_some_iff] at h
    obtain ⟨_ | ⟨after, s₁⟩, hcommit, h⟩ := h <;> cases h <;> cases hpc'
  | entering task developer =>
    simp only [processNext] at h
    repeat' split at h
    all_goals cases h
    · rw [awaitsRuntime_handle] at hpc'
      cases hpc'
    all_goals cases hpc'
  | exiting task body openRun =>
    cases h
    rw [awaitsRuntime_leave] at hpc'
    cases hpc'
  | _ =>
    simp only [processNext] at h
    repeat' split at h
    all_goals
      cases h
      try cases hpc'

/-- A reachable call that waits for the runtime has a running task. -/
theorem running_of_awaitsRuntime (h : (o.cancelsInTime taskId).Reachable s)
    (hpc : (s.processes ()).awaitsRuntime = true) :
    s.store.statusOf taskId = some .running := by
  refine h.induct (I := fun s => (s.processes ()).awaitsRuntime = true →
    s.store.statusOf taskId = some .running) ?_ ?_ hpc
  · rintro s ⟨_, _, hwaiting, _⟩ hpc
    rw [hwaiting] at hpc
    cases hpc
  · rintro s a s' hs ih ⟨hnot, hcall, hstep⟩ hpc
    obtain ⟨hc, hn⟩ := system_named hs.of_guard.of_guard
    cases a with
    | process i c =>
      obtain ⟨_, _, pc', hprocesses, ⟨_, rfl, _⟩ | hnext⟩ := next_process hstep
      · rw [hprocesses] at hpc
        cases hpc
      · rw [hprocesses] at hpc
        rcases processNext_awaitsRuntime hc (hn ()) hnext hpc with hrunning | ⟨hpc, hsame⟩
        · exact hrunning
        · rw [hsame.statusOf, ih hpc]
    | cancel j c =>
      obtain ⟨_, hprocesses, pc', _, hnext⟩ := next_cancel hstep
      rw [hprocesses] at hpc
      obtain hstore | ⟨task, event, after, hcancelling, hcommit⟩ := cancelNext_write hnext
      · rw [hstore, ih hpc]
      · refine absurd ?_ hnot
        rw [CancelsBeforeRuntime, hcancelling]
        refine ⟨commit_fault hcommit, ⟨s'.store, ?_⟩, hpc⟩
        rw [WriteOp.exec, (commit_some hcommit).2]
        rfl
    | other op => cases hcall

/-- A step of the calls keeps the status of a task that has ended. -/
theorem calls_terminal {status : TaskStatus} (hs : (o.calls taskId).Reachable s)
    (hstep : (o.calls taskId).step s a s') (hstatus : s.store.statusOf taskId = some status)
    (hterminal : status.isTerminal = true) : s'.store.statusOf taskId = some status := by
  obtain ⟨hcall, hstep⟩ := hstep
  obtain ⟨hc, hn⟩ := system_named hs.of_guard
  cases a with
  | process i c =>
    obtain ⟨_, _, pc', _, ⟨_, _, hstore⟩ | hnext⟩ := next_process hstep
    · rw [hstore, hstatus]
    · exact (processNext_task hc (hn i) hnext).1.terminal hstatus hterminal
  | cancel j c =>
    obtain ⟨_, _, pc', _, hnext⟩ := next_cancel hstep
    exact (cancelNext_task hc hnext).terminal hstatus hterminal
  | other op => cases hcall

end

/-- In the runs in which no cancellation lands while the call is about to invoke the runtime, a
task that is recorded as cancelled is never handed to the runtime. -/
theorem not_invoked_once_cancelled {s u v : OrchestratorState Unit κ}
    {as : List (OrchestratorLabel Unit κ)} {b : OrchestratorLabel Unit κ}
    (hs : (o.cancelsInTime taskId).Reachable s)
    (hcancelled : s.store.statusOf taskId = some .cancelled)
    (hr : (o.cancelsInTime taskId).Run s as u) (_hb : (o.cancelsInTime taskId).step u b v) :
    ¬ InvokesRuntime u v := by
  rintro ⟨hpc, _⟩
  have hkept : u.store.statusOf taskId = some .cancelled :=
    hr.keeps_from (I := fun s => s.store.statusOf taskId = some .cancelled)
      (fun s a t hs hstatus hstep => calls_terminal hs.of_guard hstep.2 hstatus rfl) hs hcancelled
  have hawaits : (u.processes ()).awaitsRuntime = true := by
    cases hp : u.processes () <;> simp_all [ProcessPc.isRunStarted, ProcessPc.awaitsRuntime]
  have hrunning := running_of_awaitsRuntime (hs.run hr) hawaits
  rw [hkept] at hrunning
  cases hrunning

/-! ## A cancellation in between -/

namespace Sample

abbrev OneCall := OrchestratorState Unit Unit

def oneCall : OneCall where
  store := store
  clock := ⟨20, 0⟩
  permits := 2
  processes _ := .waiting
  cancels _ := .gettingTask

/-- The first steps of the `process_task` call: at the eighth the task is running. -/
def processSteps (n : Nat) : List (OrchestratorLabel Unit Unit) :=
  (List.range n).map fun k => .process () (choice k)

/-- Steps of the `cancel_task` call; `runtime.cancel` knows no such task. -/
def cancelSteps (n : Nat) : List (OrchestratorLabel Unit Unit) :=
  (List.range n).map fun k => .cancel () (choice (10 + k))

/-- The `process_task` call goes on, up to the invocation of the runtime. -/
def resumed : List (OrchestratorLabel Unit Unit) :=
  [.process () (choice 20), .process () (choice 21), .process () (choice 22)]

end Sample

open Sample in
/-- The task is cancelled when the call has read it, and the call's claim is refused. -/
theorem not_invoked_once_cancelled_sample :
    let next := System.guardNext (fun s a => ¬ CancelsBeforeRuntime Sample.taskId s a)
      (System.guardNext (fun _ a => a.isCall = true) (orchestrator.next Sample.taskId))
    let u : OneCall := System.execD next oneCall
      (processSteps 2 ++ cancelSteps 3 ++ [.process () (choice 20), .process () (choice 21)])
    ¬ InvokesRuntime u (System.execD next u [.cancel () (choice 22)]) := by
  intro next u
  have hM : orchestrator.cancelsInTime Sample.taskId = System.ofNext orchestrator.Idle next := by
    rw [Orchestrator.cancelsInTime, Orchestrator.calls, Orchestrator.system, System.ofNext_guard,
      System.ofNext_guard]
  let s : OneCall := System.execD next oneCall (processSteps 2 ++ cancelSteps 3)
  have hs : (orchestrator.cancelsInTime Sample.taskId).Reachable s := by
    rw [hM]
    exact ⟨oneCall, _, ⟨store_coherent, rfl, fun _ => rfl, fun _ => rfl⟩,
      System.run_execD (by decide +kernel)⟩
  have hr : (orchestrator.cancelsInTime Sample.taskId).Run s
      [.process () (choice 20), .process () (choice 21)] u := by
    rw [hM]
    exact System.run_execD (by decide +kernel)
  have hb : (orchestrator.cancelsInTime Sample.taskId).step u (.cancel () (choice 22))
      (System.execD next u [.cancel () (choice 22)]) := by
    rw [hM]
    exact System.step_execD (by decide +kernel)
  exact not_invoked_once_cancelled hs (by decide +kernel) hr hb

open Sample in
/-- The task is cancelled while the call notifies that it is running, and the call goes on to
invoke the runtime. -/
theorem invoked_when_cancelled : ¬ ∀ (o : Orchestrator) (taskId : TaskId) (s u v : OneCall)
    (as : List (OrchestratorLabel Unit Unit)) (b : OrchestratorLabel Unit Unit),
    (o.calls taskId).Reachable s → s.store.statusOf taskId = some .cancelled →
    (o.calls taskId).Run s as u → (o.calls taskId).step u b v → ¬ InvokesRuntime u v := by
  intro h
  let next := System.guardNext (fun _ a => a.isCall = true)
    (orchestrator.next Sample.taskId : OneCall → _)
  have hM : orchestrator.calls Sample.taskId = System.ofNext _ next := System.ofNext_guard
  let s := System.execD next oneCall (processSteps 8 ++ cancelSteps 4)
  let u := System.execD next s resumed
  let v := System.execD next u [.process () (choice 23)]
  refine h orchestrator Sample.taskId s u v resumed (.process () (choice 23)) ?_
    (by decide +kernel) ?_ ?_ ?_
  · rw [hM]
    exact ⟨oneCall, _, ⟨store_coherent, rfl, fun _ => rfl, fun _ => rfl⟩,
      System.run_execD (by decide +kernel)⟩
  · rw [hM]
    exact System.run_execD (by decide +kernel)
  · rw [hM]
    exact System.step_execD (by decide +kernel)
  · exact ⟨by decide +kernel, by decide +kernel⟩

end AIHub
