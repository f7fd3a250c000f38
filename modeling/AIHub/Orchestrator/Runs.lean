import AIHub.Orchestrator.Phases

/-!
# Runs and the task they belong to

`process_task` writes the run and the task by separate store calls. As long as no call loses the
run it has opened, the calls for a task refine its ledger (`ledger_simulation`): at most one call
has claimed the task, its steps are the steps of the ledger, and the others change nothing.

* `runs_settled`: when all calls have ended, no run is left open, a completed task has a succeeded
  run and a failed task has none.
* `run_left_open`: the runtime raises, leaving the workspace raises `ProjectPreparationBlocked`,
  whose handler blocks the task, and the run stays running.
-/

namespace AIHub

open Transition

variable {ι κ : Type} {o : Orchestrator} {taskId : TaskId}

/-! ## The runs that are looked at -/

/-- The step is one of a call, the store does not fail, and the clock does not run backwards. -/
def Steady (s : OrchestratorState ι κ) : OrchestratorLabel ι κ → Prop
  | .process _ c | .cancel _ c => c.fault = false ∧ s.clock ≤ c.time
  | .other _ => False

/-- A call leaves the workspace and its run stays open. -/
def LosesRun (s : OrchestratorState ι κ) : OrchestratorLabel ι κ → Prop
  | .process i c => (s.processes i).LosesRun c
  | _ => False

instance (s : OrchestratorState ι κ) : ∀ a : OrchestratorLabel ι κ, Decidable (Steady s a)
  | .process _ c | .cancel _ c => inferInstanceAs (Decidable (c.fault = false ∧ s.clock ≤ c.time))
  | .other _ => inferInstanceAs (Decidable False)

instance (s : OrchestratorState ι κ) : ∀ a : OrchestratorLabel ι κ, Decidable (LosesRun s a)
  | .process i c => inferInstanceAs (Decidable ((s.processes i).LosesRun c))
  | .cancel .. | .other _ => inferInstanceAs (Decidable False)

/-- No call has begun, and the records of the task are settled. -/
structure Orchestrator.Ready (o : Orchestrator) (taskId : TaskId) (s : OrchestratorState ι κ) :
    Prop where
  idle : o.Idle s
  settled : Ledger.Settled (s.store.statusOf taskId) (s.store.runStatus taskId)
  inTime : InTime taskId s.clock s.store

section

variable [DecidableEq ι] [DecidableEq κ]

/-- The interleavings of the calls for a task whose records are settled. -/
def Orchestrator.steady (o : Orchestrator) (taskId : TaskId) :
    System (OrchestratorState ι κ) (OrchestratorLabel ι κ) :=
  (System.ofNext (o.Ready taskId) (o.next taskId)).guard Steady

/-- Those in which no call loses the run it has opened. -/
def Orchestrator.keepsRuns (o : Orchestrator) (taskId : TaskId) :
    System (OrchestratorState ι κ) (OrchestratorLabel ι κ) :=
  (o.steady taskId).guard fun s a => ¬ LosesRun s a

theorem keepsRuns_system {s : OrchestratorState ι κ} (h : (o.keepsRuns taskId).Reachable s) :
    (o.system taskId).Reachable s :=
  System.Reachable.mono (M := System.ofNext (o.Ready taskId) (o.next taskId))
    (fun _ hs => hs.idle) (fun _ _ _ hst => hst) h.of_guard.of_guard

end

def ProcessPc.hasEnded : ProcessPc → Bool
  | waiting | done _ => true
  | _ => false

def CancelPc.hasEnded : CancelPc → Bool
  | gettingTask | done _ => true
  | _ => false

/-- Every call has ended, or has never begun. -/
structure OrchestratorState.Ended (s : OrchestratorState ι κ) : Prop where
  processes : ∀ i, (s.processes i).hasEnded = true
  cancels : ∀ j, (s.cancels j).hasEnded = true

/-- The runs of a task agree with its status. -/
structure Store.RunsAgree (s : Store) (taskId : TaskId) : Prop where
  ended : ∀ runId run, s.run? runId = some run → run.taskId = taskId → run.status.isTerminal = true
  completed : s.statusOf taskId = some .completed →
    ∃ runId run, s.run? runId = some run ∧ run.taskId = taskId ∧ run.status = .succeeded
  failed : s.statusOf taskId = some .failed →
    ∀ runId run, s.run? runId = some run → run.taskId = taskId → run.status ≠ .succeeded

theorem Store.runStatus_eq {s : Store} {runId : RunId} {st : RunStatus} :
    s.runStatus taskId runId = some st ↔
      ∃ run, s.run? runId = some run ∧ run.taskId = taskId ∧ run.status = st := by
  simp [Store.runStatus, Option.bind_eq_some_iff]

theorem Store.runsAgree {s : Store}
    (h : Ledger.Settled (s.statusOf taskId) (s.runStatus taskId)) : s.RunsAgree taskId where
  ended runId run hrun htask := h.ended runId run.status (runStatus_eq.2 ⟨run, hrun, htask, rfl⟩)
  completed hst := by
    obtain ⟨runId, hrun⟩ := h.completed hst
    exact ⟨runId, runStatus_eq.1 hrun⟩
  failed hst runId run hrun htask hsucc := by
    refine h.unfinished ?_ ?_ runId (runStatus_eq.2 ⟨run, hrun, htask, hsucc⟩) <;> rw [hst] <;>
      decide

/-! ## Refinement -/

/-- The call `i` may stand in the phase of the ledger; no other call has claimed the task. -/
def Holds (s : OrchestratorState ι κ) (l : Ledger) (i : ι) : Prop :=
  (s.processes i).phase = l.phase ∧ ∀ j, j ≠ i → (s.processes j).phase = .idle

/-- The state that a ledger stands for. -/
structure Refines (taskId : TaskId) (s : OrchestratorState ι κ) (l : Ledger) : Prop where
  ledger : s.store.ledger taskId l.phase = l
  holder : (l.phase = .idle ∧ ∀ i, (s.processes i).phase = .idle) ∨ ∃ i, Holds s l i
  facts : ∀ i, (s.processes i).Facts taskId s.clock s.store
  cancels : ∀ j, (s.cancels j).Facts s.clock
  inTime : InTime taskId s.clock s.store

theorem Refines.init {s : OrchestratorState ι κ} (h : o.Ready taskId s) :
    Refines taskId s (s.store.ledger taskId .idle) where
  ledger := rfl
  holder := .inl ⟨rfl, fun i => by rw [h.idle.2.2.1 i]; rfl⟩
  facts i := by
    rw [h.idle.2.2.1 i]
    trivial
  cancels j := by
    rw [h.idle.2.2.2 j]
    trivial
  inTime := h.inTime

/-- Either a given call may stand in the phase of the ledger, or another one has claimed the
task. -/
theorem Refines.holds [DecidableEq ι] {s : OrchestratorState ι κ} {l : Ledger}
    (h : Refines taskId s l) (i : ι) :
    Holds s l i ∨ ∃ k, k ≠ i ∧ Holds s l k ∧ l.phase ≠ .idle := by
  rcases h.holder with ⟨hl, hidle⟩ | ⟨k, hk⟩
  · exact .inl ⟨(hidle i).trans hl.symm, fun j _ => hidle j⟩
  · by_cases hki : k = i
    · exact .inl (hki ▸ hk)
    · by_cases hl : l.phase = .idle
      · refine .inl ⟨(hk.2 i (Ne.symm hki)).trans hl.symm, fun j _ => ?_⟩
        by_cases hjk : j = k
        · exact hjk ▸ hk.1.trans hl
        · exact hk.2 j hjk
      · exact .inr ⟨k, hki, hk, hl⟩

section

variable [DecidableEq ι] [DecidableEq κ]

/-- A step of a call is one of the ledger if the call may stand in its phase, and changes nothing
if another call has claimed the task. -/
theorem Refines.process {s s' : OrchestratorState ι κ} {l : Ledger} {i : ι} {c : Choice}
    (hc : s.store.Coherent) (hn : ∀ i, (s.processes i).Named taskId) (h : Refines taskId s l)
    (hl : l.Sound) (hsteady : Steady s (.process i c)) (hkeeps : ¬ LosesRun s (.process i c))
    (hstep : o.next taskId s (.process i c) = some s') :
    ∃ l', Ledger.Work l l' ∧ Refines taskId s' l' := by
  obtain ⟨hfault, hclock⟩ := hsteady
  obtain ⟨htime, hcancels, pc', hprocesses, hmove⟩ := next_process hstep
  have hadvance : ((s.processes i).phase.isBusy = true → s.store.IsBusy taskId) →
      Advance taskId c.time s.store (s.processes i) s'.store pc' := by
    intro hbusy
    rcases hmove with ⟨hwaiting, rfl, hstore⟩ | hnext
    · rw [hwaiting, hstore]
      exact ⟨.stay _, trivial, h.inTime.mono hclock rfl⟩
    · exact processNext_advance hc (hn i) hfault hclock h.inTime (h.facts i) hbusy hkeeps hnext
  have hcancels' : ∀ j, (s'.cancels j).Facts s'.clock := by
    intro j
    rw [hcancels, htime]
    exact (h.cancels j).mono hclock
  rcases h.holds i with ⟨hphase, hothers⟩ | ⟨k, hki, hk, hne⟩
  · have hadv := hadvance fun hbusy => by
      have hst := hl.busy (hphase ▸ hbusy)
      rwa [← h.ledger] at hst
    refine ⟨s'.store.ledger taskId pc'.phase, ?_, rfl, .inr ⟨i, ?_, ?_⟩, ?_, hcancels', ?_⟩
    · rw [← h.ledger, ← hphase]
      exact hadv.work
    · rw [hprocesses, Function.update_self]
      rfl
    · intro j hj
      rw [hprocesses, Function.update_of_ne hj]
      exact hothers j hj
    · intro j
      rw [hprocesses, htime]
      by_cases hj : j = i
      · subst hj
        rw [Function.update_self]
        exact hadv.facts
      · rw [Function.update_of_ne hj]
        exact (h.facts j).idle hclock (hothers j hj)
    · exact htime ▸ hadv.inTime
  · have hidle : (s.processes i).phase = .idle := hk.2 i (Ne.symm hki)
    have hadv := hadvance fun hbusy => by rw [hidle] at hbusy; cases hbusy
    have hquiet : pc'.phase = .idle ∧ s'.store = s.store := by
      rcases hmove with ⟨_, rfl, hstore⟩ | hnext
      · exact ⟨rfl, hstore⟩
      · rcases processNext_idle hc (hn i) hidle hnext with hquiet | ⟨_, before, _, hchange⟩
        · exact hquiet
        · have hst : l.status = some before.status := by
            rw [← h.ledger]
            exact hchange.statusOf.1
          obtain ⟨hq, hb⟩ := hl.claimed hne
          rcases canTransition_planning.1 hchange.legal with hbefore | hbefore
          · exact absurd (hbefore ▸ hst) hq
          · exact absurd (hbefore ▸ hst) hb
    refine ⟨l, .stay l, ?_, .inr ⟨k, ?_, ?_⟩, ?_, hcancels', ?_⟩
    · rw [hquiet.2]
      exact h.ledger
    · rw [hprocesses, Function.update_of_ne hki]
      exact hk.1
    · intro j hj
      rw [hprocesses]
      by_cases hji : j = i
      · subst hji
        rw [Function.update_self]
        exact hquiet.1
      · rw [Function.update_of_ne hji]
        exact hk.2 j hj
    · intro j
      rw [hprocesses, htime]
      by_cases hji : j = i
      · subst hji
        rw [Function.update_self]
        exact hadv.facts
      · rw [Function.update_of_ne hji, hquiet.2]
        exact (h.facts j).mono hclock rfl fun _ hcur => hcur
    · exact htime ▸ hadv.inTime

/-- A step of a `cancel_task` call cancels the task, or changes nothing. -/
theorem Refines.cancel {s s' : OrchestratorState ι κ} {l : Ledger} {j : κ} {c : Choice}
    (hc : s.store.Coherent) (h : Refines taskId s l) (hsteady : Steady s (.cancel j c))
    (hstep : o.next taskId s (.cancel j c) = some s') :
    ∃ l', Ledger.Step l l' ∧ Refines taskId s' l' := by
  obtain ⟨_, hclock⟩ := hsteady
  obtain ⟨htime, hprocesses, pc', hcancels, hnext⟩ := next_cancel hstep
  have hcancels' : ∀ j, (s'.cancels j).Facts s'.clock := by
    intro k
    rw [hcancels, htime]
    by_cases hk : k = j
    · subst hk
      rw [Function.update_self]
      exact cancelNext_facts hnext
    · rw [Function.update_of_ne hk]
      exact (h.cancels k).mono hclock
  rcases cancelNext_write hnext with hstore | ⟨task, event, after, hpc, hcommit⟩
  · refine ⟨l, .work (.stay l), ?_, ?_, ?_, hcancels', ?_⟩
    · rw [hstore]
      exact h.ledger
    · simpa only [Holds, hprocesses] using h.holder
    · intro i
      rw [hprocesses, htime, hstore]
      exact (h.facts i).mono hclock rfl fun _ hcur => hcur
    · rw [htime, hstore]
      exact h.inTime.mono hclock rfl
  · obtain ⟨before, hchange⟩ := commit_transition hc hcommit
    have hst : l.status = some before.status := by
      rw [← h.ledger]
      exact hchange.statusOf.1
    refine ⟨{ l with status := some .cancelled }, .cancel hst hchange.legal, ?_, ?_, ?_,
      hcancels', ?_⟩
    · show s'.store.ledger taskId l.phase = _
      rw [ledger_moved l.phase _ hchange, h.ledger]
    · simpa only [Holds, hprocesses] using h.holder
    · intro i
      rw [hprocesses, htime]
      exact (h.facts i).mono hclock hchange.runs fun _ _ => .inl hchange.statusOf.2
    · have hevent : event.timestamp ≤ s.clock := by
        have hfacts := h.cancels j
        rwa [hpc] at hfacts
      rw [htime]
      exact hchange.inTime (hevent.trans hclock)

/-- The calls that do not lose their runs refine the ledger. -/
theorem ledger_simulation : System.Simulation (o.keepsRuns taskId) Ledger.system
    (Refines taskId : OrchestratorState ι κ → Ledger → Prop) where
  init s hs := ⟨s.store.ledger taskId .idle, ⟨hs.settled, rfl⟩, .init hs⟩
  step := by
    rintro s a s' l hs hl h ⟨hkeeps, hsteady, hstep⟩
    obtain ⟨hc, hn⟩ := system_named (keepsRuns_system hs)
    have hrun : ∀ l', Ledger.Step l l' → Refines taskId s' l' →
        ∃ bs l', Ledger.system.Run l bs l' ∧ Refines taskId s' l' :=
      fun l' hl' h' => ⟨[()], l', .single hl', h'⟩
    cases a with
    | process i c =>
      obtain ⟨l', hwork, h'⟩ :=
        h.process hc hn (Ledger.reachable_sound hl) hsteady hkeeps hstep
      exact hrun l' (.work hwork) h'
    | cancel j c =>
      obtain ⟨l', hl', h'⟩ := h.cancel hc hsteady hstep
      exact hrun l' hl' h'
    | other op => exact hsteady.elim

/-- In the runs in which no call loses the run it has opened, the runs of the task agree with its
status when all calls have ended. -/
theorem runs_settled {s : OrchestratorState ι κ} (h : (o.keepsRuns taskId).Reachable s)
    (hended : s.Ended) : s.store.RunsAgree taskId := by
  obtain ⟨l, hl, href⟩ := ledger_simulation.reachable h
  have hidle : ∀ i, (s.processes i).phase = .idle := by
    intro i
    have hi := hended.processes i
    cases hpc : s.processes i <;> simp_all [ProcessPc.hasEnded, ProcessPc.phase]
  have hphase : l.phase = .idle := by
    rcases href.holder with ⟨hphase, _⟩ | ⟨i, hi, _⟩
    · exact hphase
    · rw [← hi, hidle i]
  refine Store.runsAgree ?_
  have hsettled := (Ledger.reachable_sound hl).idle hphase
  rwa [← href.ledger] at hsettled

end

/-! ## A run that is lost -/

namespace Sample

theorem inTime_of_all {s : Store} {clock : Timestamp} {taskId : TaskId}
    (h : (s.task? taskId).all (fun task => decide (task.createdAt ≤ clock ∧
      ∀ t ∈ task.startedAt, t ≤ clock)) = true) : InTime taskId clock s := by
  intro task htask
  simpa [htask] using h

theorem ready : orchestrator.Ready Sample.taskId oneCall where
  idle := ⟨store_coherent, rfl, fun _ => rfl, fun _ => rfl⟩
  settled := by
    have hruns : store.runs = Table.empty _ := by decide +kernel
    have hnone : ∀ runId, store.runStatus Sample.taskId runId = none := by
      intro runId
      simp [Store.runStatus, Store.run?, hruns]
    have hstatus : store.statusOf Sample.taskId = some .queued := by decide +kernel
    constructor
    · intro runId st hst
      cases (hnone runId).symm.trans hst
    · intro hst
      cases hstatus.symm.trans hst
    · intro _ _ runId hst
      cases (hnone runId).symm.trans hst
  inTime := inTime_of_all (by decide +kernel)

/-- The runtime raises, and the workspace is left by a `ProjectPreparationBlocked`. -/
def loses : List (OrchestratorLabel Unit Unit) :=
  [.process () { choice 12 with executed := .error .other },
    .process () { choice 13 with exited := .raises .preparationBlocked },
    .process () (choice 14), .process () (choice 15), .process () (choice 16),
    .process () (choice 17)]

end Sample

open Sample in
/-- A call claims the task, runs it and completes it. -/
theorem runs_settled_sample :
    let next := System.guardNext (fun s a => ¬ LosesRun s a)
      (System.guardNext Steady (orchestrator.next Sample.taskId))
    let s : OneCall := System.execD next oneCall (processSteps 19)
    s.store.RunsAgree Sample.taskId := by
  intro next s
  have hM : orchestrator.keepsRuns Sample.taskId =
      System.ofNext (orchestrator.Ready Sample.taskId) next := by
    rw [Orchestrator.keepsRuns, Orchestrator.steady, System.ofNext_guard, System.ofNext_guard]
  have hs : (orchestrator.keepsRuns Sample.taskId).Reachable s := by
    rw [hM]
    exact ⟨oneCall, _, ready, System.run_execD (by decide +kernel)⟩
  exact runs_settled hs ⟨fun () => by decide +kernel, fun () => by decide +kernel⟩

open Sample in
/-- The task is blocked, and its run stays running. -/
theorem run_left_open : ¬ ∀ (o : Orchestrator) (taskId : TaskId) (s : OneCall),
    (o.steady taskId).Reachable s → s.Ended → s.store.RunsAgree taskId := by
  intro h
  let next := System.guardNext Steady (orchestrator.next Sample.taskId : OneCall → _)
  let s := System.execD next oneCall (processSteps 12 ++ loses)
  have hM : orchestrator.steady Sample.taskId =
      System.ofNext (orchestrator.Ready Sample.taskId) next := System.ofNext_guard
  have hs : (orchestrator.steady Sample.taskId).Reachable s := by
    rw [hM]
    exact ⟨oneCall, _, ready, System.run_execD (by decide +kernel)⟩
  have hagree := h orchestrator Sample.taskId s hs
    ⟨fun () => by decide +kernel, fun () => by decide +kernel⟩
  have hrun : s.store.runStatus Sample.taskId (choice 0).runId = some .running := by
    decide +kernel
  obtain ⟨run, hrun, htask, hstatus⟩ := Store.runStatus_eq.1 hrun
  have hended := hagree.ended _ run hrun htask
  rw [hstatus] at hended
  cases hended

end AIHub
