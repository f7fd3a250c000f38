import AIHub.Orchestrator.Claim

/-!
# What a call moves, it announces

A `process_task` call that has blocked, completed, failed or cancelled its task hands the task to
the notifier before it ends: `_block` and `_fail` do it at once, and what `_finish_task` returned
is announced after the workspace has been left. In between, the call *owes* the notice.

* `moves_notified`: whenever a call brings the stored task into such a status, it has invoked the
  notifier with the task in that status by the time it ends, as long as no workspace context
  raises when it is left after the final transition.
* `completed_unannounced`: the lock is released with an error after the task has been completed.
  The handler reads that the task has ended, and the call returns without a notice.
-/

namespace AIHub

open Transition

/-! ## Notices -/

def ExitOutcome.isRaise : ExitOutcome → Bool
  | raises _ => true
  | leaves | suppresses => false

namespace ProcessPc

/-- The task, and its status, that the call has just given to the notifier. -/
def notified : ProcessPc → Option (TaskId × TaskStatus)
  | notifyingRunning task _ _ | notifyingCancelled _ task => some (task.taskId, task.status)
  | notifying result => some (result.taskId, result.status)
  | _ => none

/-- The task, and its status, that the call will announce once it has left the workspace. -/
def owes : ProcessPc → Option (TaskId × TaskStatus)
  | exiting _ (.completed final) _ => some (final.taskId, final.status)
  | _ => none

/-- The final transition has been stored, and leaving the workspace raises. -/
def LosesNotice (c : Choice) : ProcessPc → Prop
  | exiting _ (.completed _) _ => c.exited.isRaise = true
  | _ => False

end ProcessPc

section

variable {s s' : Store} {c : Choice} {taskId : TaskId} {o : Orchestrator} {pc pc' : ProcessPc}
  {status : TaskStatus}

/-- A status in which nothing more is done on a task by itself. -/
def TaskStatus.isFinal (status : TaskStatus) : Bool := status == .blocked || status.isTerminal

/-- A step that brings the task into such a status leaves a call that announces it. -/
theorem processNext_moves (hc : s.Coherent) (hn : pc.Named taskId)
    (h : processNext o taskId c pc s = some (pc', s')) (hbefore : s.statusOf taskId ≠ some status)
    (hafter : s'.statusOf taskId = some status) (hfinal : status.isFinal = true) :
    pc'.owes = some (taskId, status) ∨ pc'.notified = some (taskId, status) := by
  have hsame : s'.statusOf taskId ≠ s.statusOf taskId := fun heq => hbefore (heq ▸ hafter)
  have hmoved : ∀ {target : TaskStatus} {event : EventEnvelope} {before after : Task},
      StatusChange taskId target event s before after s' →
      after.taskId = taskId ∧ after.status = status := by
    intro target event before after hchange
    have htarget := hchange.statusOf.2.symm.trans hafter
    exact ⟨hchange.taskId_eq, hchange.status_eq.trans (Option.some.inj htarget)⟩
  cases pc with
  | waiting | done => simp [processNext] at h
  | planning task _ | settingRunning task _ _ _ =>
    obtain rfl : task.taskId = taskId := hn task (by simp [ProcessPc.tasks])
    simp only [processNext, Option.map_eq_some_iff] at h
    obtain ⟨_ | ⟨after, s₁⟩, hcommit, h⟩ := h <;> cases h
    · exact absurd rfl hsame
    · obtain ⟨before, hchange⟩ := commit_transition hc hcommit
      cases hchange.statusOf.2.symm.trans hafter
      cases hfinal
  | assigning task developer event =>
    obtain rfl : task.taskId = taskId := hn task (by simp [ProcessPc.tasks])
    simp only [processNext, Option.map_eq_some_iff] at h
    obtain ⟨_ | ⟨after, s₁⟩, hcommit, h⟩ := h <;> cases h
    · exact absurd rfl hsame
    · obtain ⟨before, hassigned⟩ := commit_assign hc hcommit
      exact absurd hassigned.statusOf hsame
  | finishingTask task current result event =>
    obtain rfl : current.taskId = taskId := hn current (by simp [ProcessPc.tasks])
    simp only [processNext, Option.map_eq_some_iff, finishTask_eq] at h
    obtain ⟨_ | ⟨after, s₁⟩, hcommit, h⟩ := h <;> cases h
    · exact absurd rfl hsame
    · obtain ⟨before, hchange⟩ := commit_transition hc hcommit
      obtain ⟨hid, hstatus⟩ := hmoved hchange
      exact .inl (by rw [ProcessPc.owes, hid, hstatus])
  | settling current settlement event =>
    obtain rfl : current.taskId = taskId := hn current (by simp [ProcessPc.tasks])
    simp only [processNext, Option.map_eq_some_iff] at h
    obtain ⟨_ | ⟨after, s₁⟩, hcommit, h⟩ := h <;> cases h
    · exact absurd rfl hsame
    · obtain ⟨before, hchange⟩ := commit_transition hc hcommit
      obtain ⟨hid, hstatus⟩ := hmoved hchange
      exact .inr (by rw [ProcessPc.notified, ProcessPc.result, hid, hstatus])
  | creatingRun task workspace run =>
    simp only [processNext] at h
    split at h <;> cases h
    · obtain ⟨_, htasks, _⟩ := call_createRun ‹_›
      exact absurd (htasks.statusOf taskId) hsame
    · exact absurd rfl hsame
  | startingRun task workspace runId =>
    simp only [processNext] at h
    split at h <;> cases h
    · obtain ⟨htasks, _⟩ := call_startRun ‹_›
      exact absurd (htasks.statusOf taskId) hsame
    · exact absurd rfl hsame
  | finishingRun task workspace runId result | closingRun task runId =>
    simp only [processNext] at h
    split at h <;> cases h
    · obtain ⟨htasks, _⟩ := call_finishRun ‹_›
      exact absurd (htasks.statusOf taskId) hsame
    · exact absurd rfl hsame
  | _ =>
    -- The remaining positions do not write to the store.
    simp only [processNext] at h
    repeat' split at h
    all_goals
      cases h
      exact absurd rfl hsame

/-- A call that owes a notice gives it at its next step, unless that loses it. -/
theorem processNext_owes {notice : TaskId × TaskStatus} (howes : pc.owes = some notice)
    (hkeeps : ¬ pc.LosesNotice c) (h : processNext o taskId c pc s = some (pc', s')) :
    pc'.notified = some notice := by
  cases pc with
  | exiting task body openRun =>
    cases body with
    | completed final =>
      cases howes
      cases h
      cases hexited : c.exited with
      | raises e => exact absurd (by rw [ProcessPc.LosesNotice, hexited]; rfl) hkeeps
      | leaves | suppresses => rfl
    | returned result | raised e => cases howes
  | _ => cases howes

end

/-! ## Every run -/

section

variable {ι κ : Type} {o : Orchestrator} {taskId : TaskId} {i : ι} {status : TaskStatus}

/-- The step is one of call `i`, and brings the stored task into `status`. -/
structure Moves (taskId : TaskId) (i : ι) (status : TaskStatus) (s : OrchestratorState ι κ)
    (a : OrchestratorLabel ι κ) (s' : OrchestratorState ι κ) : Prop where
  own : ∃ c, a = .process i c
  before : s.store.statusOf taskId ≠ some status
  after : s'.store.statusOf taskId = some status

/-- A run on which call `i` gives the task in `status` to the notifier. -/
def Notifies (M : System (OrchestratorState ι κ) (OrchestratorLabel ι κ)) (taskId : TaskId) (i : ι)
    (status : TaskStatus) (s : OrchestratorState ι κ) (as : List (OrchestratorLabel ι κ))
    (s' : OrchestratorState ι κ) : Prop :=
  ∃ bs cs u, as = bs ++ cs ∧ M.Run s bs u ∧ M.Run u cs s' ∧
    (u.processes i).notified = some (taskId, status)

/-- The step leaves a workspace by an exception, after the final transition has been stored. -/
def LosesNotice (s : OrchestratorState ι κ) : OrchestratorLabel ι κ → Prop
  | .process i c => (s.processes i).LosesNotice c
  | .cancel .. | .other _ => False

instance (c : Choice) (pc : ProcessPc) : Decidable (pc.LosesNotice c) := by
  unfold ProcessPc.LosesNotice
  split <;> infer_instance

instance (s : OrchestratorState ι κ) :
    (a : OrchestratorLabel ι κ) → Decidable (LosesNotice s a)
  | .process i c => inferInstanceAs (Decidable ((s.processes i).LosesNotice c))
  | .cancel .. | .other _ => inferInstanceAs (Decidable False)

variable [DecidableEq ι] [DecidableEq κ] {s u v : OrchestratorState ι κ}
  {a : OrchestratorLabel ι κ} {as : List (OrchestratorLabel ι κ)}

/-- The runs in which no workspace raises when it is left after the final transition. -/
def Orchestrator.leavesCleanly (o : Orchestrator) (taskId : TaskId) :
    System (OrchestratorState ι κ) (OrchestratorLabel ι κ) :=
  (o.system taskId).guard fun s a => ¬ LosesNotice s a

/-- Until it has given the notice it owes, a call owes it. -/
theorem leavesCleanly_owes {notice : TaskId × TaskStatus}
    (howes : (s.processes i).owes = some notice) (h : (o.leavesCleanly taskId).step s a u) :
    (u.processes i).owes = some notice ∨ (u.processes i).notified = some notice := by
  obtain ⟨hkeeps, hnext⟩ := h
  by_cases hown : u.processes i = s.processes i
  · exact .inl (hown ▸ howes)
  · obtain ⟨c, rfl⟩ := next_processes_ne hnext hown
    obtain ⟨_, _, pc', hprocesses, ⟨hwaiting, _⟩ | hstep⟩ := next_process hnext
    · rw [hwaiting] at howes
      cases howes
    · rw [hprocesses, Function.update_self]
      exact .inr (processNext_owes howes hkeeps hstep)

/-- Whenever a call brings the stored task into blocked, completed, failed or cancelled, it has
given the task in that status to the notifier by the time it ends. -/
theorem moves_notified (hs : (o.leavesCleanly taskId).Reachable s)
    (ha : (o.leavesCleanly taskId).step s a u) (hmoves : Moves taskId i status s a u)
    (hfinal : status.isFinal = true) (hr : (o.leavesCleanly taskId).Run u as v)
    (hdone : (v.processes i).isDone = true) :
    Notifies (o.leavesCleanly taskId) taskId i status u as v := by
  obtain ⟨c, rfl⟩ := hmoves.own
  obtain ⟨hc, hn⟩ := system_named hs.of_guard
  obtain ⟨_, _, pc', hprocesses, ⟨_, _, hstore⟩ | hnext⟩ := next_process ha.2
  · exact absurd (hstore ▸ hmoves.after) hmoves.before
  have howes : (u.processes i).owes = some (taskId, status) ∨
      (u.processes i).notified = some (taskId, status) := by
    rw [hprocesses, Function.update_self]
    exact processNext_moves hc (hn i) hnext hmoves.before hmoves.after hfinal
  refine hr.exists_unless (fun x b y hx hstep => leavesCleanly_owes hx hstep) howes ?_
  cases hpc : v.processes i with
  | done outcome => simp [ProcessPc.owes]
  | _ =>
    rw [hpc] at hdone
    cases hdone

end

/-! ## A notice that is lost -/

namespace Sample

/-- The first call, up to the store call of `_finish_task`. -/
def beforeFinish : List (OrchestratorLabel (Fin 2) (Fin 0)) :=
  (List.range 16).map fun n => .process first (choice n)

/-- The first call leaves the workspace and announces the task. -/
def announces : List (OrchestratorLabel (Fin 2) (Fin 0)) :=
  [.process first (choice 17), .process first (choice 18)]

/-- The lock cannot be released. -/
def lockLost : List (OrchestratorLabel (Fin 2) (Fin 0)) :=
  [.process first { choice 17 with exited := .raises .other }, .process first (choice 18)]

end Sample

open Sample in
/-- A call completes its task, leaves the workspace and announces the task. -/
theorem moves_notified_sample :
    let next := System.guardNext (fun s a => ¬ LosesNotice s a) (orchestrator.next Sample.taskId)
    let s : TwoCalls := System.execD next twoCalls beforeFinish
    let u := System.execD next s [.process first (choice 16)]
    Notifies (orchestrator.leavesCleanly Sample.taskId) Sample.taskId first .completed u announces
      (System.execD next u announces) := by
  intro next s u
  have hM : orchestrator.leavesCleanly Sample.taskId = System.ofNext _ next :=
    System.ofNext_guard
  have hs : (orchestrator.leavesCleanly Sample.taskId).Reachable s := by
    rw [hM]
    exact ⟨twoCalls, beforeFinish, ⟨store_coherent, rfl, fun _ => rfl, fun _ => rfl⟩,
      System.run_execD (by decide +kernel)⟩
  have ha : (orchestrator.leavesCleanly Sample.taskId).step s (.process first (choice 16)) u := by
    rw [hM]
    exact System.step_execD (by decide +kernel)
  have hr : (orchestrator.leavesCleanly Sample.taskId).Run u announces
      (System.execD next u announces) := by
    rw [hM]
    exact System.run_execD (by decide +kernel)
  exact moves_notified hs ha ⟨⟨_, rfl⟩, by decide +kernel, by decide +kernel⟩ rfl hr
    (by decide +kernel)

open Sample in
/-- The first call completes its task, and the release of the lock raises. The call returns, and
it has not announced the task. -/
theorem completed_unannounced : ¬ ∀ (o : Orchestrator) (taskId : TaskId) (s u v : TwoCalls)
    (a : OrchestratorLabel (Fin 2) (Fin 0)) (as : List (OrchestratorLabel (Fin 2) (Fin 0)))
    (i : Fin 2) (status : TaskStatus), (o.system taskId).Reachable s →
    (o.system taskId).step s a u → Moves taskId i status s a u → status.isFinal = true →
    (o.system taskId).Run u as v → (v.processes i).isDone = true →
    Notifies (o.system taskId) taskId i status u as v := by
  intro h
  let next := (orchestrator.next Sample.taskId : TwoCalls → _)
  let s := System.execD next twoCalls beforeFinish
  let u := System.execD next s [.process first (choice 16)]
  obtain ⟨bs, cs, x, has, hr, -, hx⟩ := h orchestrator Sample.taskId s u
    (System.execD next u lockLost) _ lockLost first .completed
    ⟨twoCalls, beforeFinish, ⟨store_coherent, rfl, fun _ => rfl, fun _ => rfl⟩,
      System.run_execD (by decide +kernel)⟩
    (System.step_execD (by decide +kernel)) ⟨⟨_, rfl⟩, by decide +kernel, by decide +kernel⟩ rfl
    (System.run_execD (by decide +kernel)) (by decide +kernel)
  have hmem : x ∈ System.states next u lockLost := has ▸ System.mem_states hr
  have hnever : ∀ z ∈ System.states next u lockLost,
      (z.processes first).notified ≠ some (Sample.taskId, .completed) := by decide +kernel
  exact hnever x hmem hx

end AIHub
