import AIHub.Orchestrator.Service

/-!
# The ledger of a task

What working on a task comes to, without times, events and snapshots: the status of the task, the
statuses of its runs, and the *phase* of the call that has claimed it. A call claims a task that is
queued or blocked, moves it to running, opens one run, finishes it, and moves the task to where the
outcome puts it; on any trouble it settles the task as blocked or failed. A cancellation may land
between any two steps.

`Ledger.reachable_sound`: as long as the one who claims closes the run it has opened, no run is left
open, a completed task has a succeeded run and a failed task has none.
-/

namespace AIHub

open Transition

/-- What the call that has claimed the task is up to. -/
inductive Phase where
  /-- No call has claimed the task. -/
  | idle
  /-- The task is claimed, and no run is open. -/
  | held
  /-- The task was moved to running, and no run is open yet. -/
  | running
  | opened (runId : RunId)
  /-- The run ended with this result. -/
  | finished (result : RuntimeStatus)
  deriving DecidableEq

namespace Phase

/-- The task was moved to running and not further. -/
def isBusy : Phase → Bool
  | idle | held => false
  | running | opened _ | finished _ => true

end Phase

/-- A task, its runs, and the phase of the call that has claimed it. -/
@[ext] structure Ledger where
  status : Option TaskStatus
  runs : RunId → Option RunStatus
  phase : Phase

namespace Ledger

/-- A run of the task has succeeded. -/
def Succeeded (l : Ledger) : Prop := ∃ runId, l.runs runId = some .succeeded

def setRun (l : Ledger) (runId : RunId) (status : RunStatus) : Ledger :=
  { l with runs := Function.update l.runs runId (some status) }

/-- A step of a call. -/
inductive Work : Ledger → Ledger → Prop
  | stay (l : Ledger) : Work l l
  | claim {l : Ledger} (hphase : l.phase = .idle)
    (hstatus : l.status = some .queued ∨ l.status = some .blocked) :
    Work l { l with status := some .planning, phase := .held }
  | start {l : Ledger} {status : TaskStatus} (hphase : l.phase = .held)
    (hstatus : l.status = some status) (hlegal : canTransition status .running) :
    Work l { l with status := some .running, phase := .running }
  | giveUp {l : Ledger} (hphase : l.phase = .running) : Work l { l with phase := .held }
  | openRun {l : Ledger} {runId : RunId} (hphase : l.phase = .running)
    (hfree : l.runs runId = none) :
    Work l { l.setRun runId .queued with phase := .opened runId }
  | startRun {l : Ledger} {runId : RunId} (hphase : l.phase = .opened runId) :
    Work l (l.setRun runId .running)
  | finishRun {l : Ledger} {runId : RunId} (result : RuntimeStatus)
    (hphase : l.phase = .opened runId) :
    Work l { l.setRun runId result.runStatus with phase := .finished result }
  | closeRun {l : Ledger} {runId : RunId} (hphase : l.phase = .opened runId) :
    Work l { l.setRun runId .failed with phase := .held }
  | seeCancelled {l : Ledger} {result : RuntimeStatus} (hphase : l.phase = .finished result)
    (hstatus : l.status = some .cancelled) : Work l { l with phase := .held }
  | finish {l : Ledger} {result : RuntimeStatus} {status : TaskStatus}
    (hphase : l.phase = .finished result) (hstatus : l.status = some status)
    (hlegal : canTransition status (Orchestrator.finishTarget result)) :
    Work l { l with status := some (Orchestrator.finishTarget result), phase := .held }
  | settle {l : Ledger} {status target : TaskStatus} (hphase : l.phase = .held)
    (hstatus : l.status = some status) (hlegal : canTransition status target)
    (htarget : target = .blocked ∨ target = .failed) :
    Work l { l with status := some target, phase := .idle }
  | release {l : Ledger} (hphase : l.phase = .held) : Work l { l with phase := .idle }

/-- A step of a call, or a cancellation. -/
inductive Step : Ledger → Ledger → Prop
  | work {l l' : Ledger} (h : Work l l') : Step l l'
  | cancel {l : Ledger} {status : TaskStatus} (hstatus : l.status = some status)
    (hlegal : canTransition status .cancelled) : Step l { l with status := some .cancelled }

/-- The records are settled: every run has ended, a completed task has a succeeded run, and only
a completed or cancelled task has one. -/
structure Settled (status : Option TaskStatus) (runs : RunId → Option RunStatus) : Prop where
  ended : ∀ runId st, runs runId = some st → st.isTerminal = true
  completed : status = some .completed → ∃ runId, runs runId = some .succeeded
  unfinished : status ≠ some .completed → status ≠ some .cancelled →
    ∀ runId, runs runId ≠ some .succeeded

def system : System Ledger Unit where
  init l := Settled l.status l.runs ∧ l.phase = .idle
  step l _ l' := Step l l'

/-- What holds at every moment. -/
structure Sound (l : Ledger) : Prop where
  claimed : l.phase ≠ .idle → l.status ≠ some .queued ∧ l.status ≠ some .blocked
  busy : l.phase.isBusy = true → l.status = some .running ∨ l.status = some .cancelled
  ended : ∀ runId st, l.runs runId = some st → st.isTerminal = false → l.phase = .opened runId
  completed : l.status = some .completed → l.Succeeded
  finished : l.phase = .finished .succeeded → l.Succeeded
  unfinished : l.status ≠ some .completed → l.status ≠ some .cancelled → l.Succeeded →
    l.phase = .finished .succeeded

/-- A task whose call has not finished a run with success has a succeeded run only if it is
completed or cancelled. -/
theorem Sound.not_succeeded {l : Ledger} {status target : TaskStatus} (h : l.Sound)
    (hphase : l.phase ≠ .finished .succeeded) (hstatus : l.status = some status)
    (hlegal : canTransition status target) : ¬ l.Succeeded := by
  have hne : ∀ st : TaskStatus, st.isTerminal = true → l.status ≠ some st := by
    rintro st hterminal hst
    cases hstatus.symm.trans hst
    exact not_canTransition_of_terminal hterminal hlegal
  exact fun hs => hphase (h.unfinished (hne _ rfl) (hne _ rfl) hs)

theorem succeeded_setRun {l : Ledger} {runId : RunId} {status : RunStatus}
    (hstatus : status ≠ .succeeded) (h : (l.setRun runId status).Succeeded) : l.Succeeded := by
  obtain ⟨r, hr⟩ := h
  by_cases hrun : r = runId
  · subst hrun
    exact absurd (by simpa [setRun] using hr) hstatus
  · exact ⟨r, by simpa [setRun, hrun] using hr⟩

/-- Only the run that is set may be open afterwards, and only if it is set to be. -/
theorem ended_setRun {l : Ledger} {runId r : RunId} {status st : RunStatus}
    (hended : ∀ r st, l.runs r = some st → st.isTerminal = false → r = runId)
    (hr : (l.setRun runId status).runs r = some st) (hst : st.isTerminal = false) :
    r = runId ∧ status.isTerminal = false := by
  by_cases hrun : r = runId
  · subst hrun
    have hst' : status = st := by simpa [setRun] using hr
    exact ⟨rfl, hst' ▸ hst⟩
  · exact absurd (hended r st (by simpa [setRun, hrun] using hr) hst) hrun

theorem Sound.of_settled {l : Ledger} (h : Settled l.status l.runs) (hphase : l.phase = .idle) :
    l.Sound where
  claimed hne := absurd hphase hne
  busy hbusy := by rw [hphase] at hbusy; cases hbusy
  ended r st hr hst := by rw [h.ended r st hr] at hst; cases hst
  completed := h.completed
  finished hfin := by rw [hphase] at hfin; cases hfin
  unfinished hc hx := fun ⟨r, hr⟩ => absurd hr (h.unfinished hc hx r)

/-- Steps that set a run of a busy call. -/
theorem Sound.setRun {l : Ledger} {runId : RunId} {status : RunStatus} {phase : Phase}
    (h : l.Sound) (hbusy : l.phase.isBusy = true) (hne : l.phase ≠ .finished .succeeded)
    (hopen : ∀ r st, l.runs r = some st → st.isTerminal = false → r = runId)
    (hended : status.isTerminal = false → phase = .opened runId)
    (hfinished : phase = .finished .succeeded ↔ status = .succeeded) :
    ({ l.setRun runId status with phase := phase } : Ledger).Sound where
  claimed _ := by
    rcases h.busy hbusy with hst | hst <;> simp [Ledger.setRun, hst]
  busy _ := h.busy hbusy
  ended r st hr hst := by
    obtain ⟨rfl, hstatus⟩ := ended_setRun hopen hr hst
    exact hended hstatus
  completed hst := by
    rcases h.busy hbusy with hst' | hst' <;> cases hst.symm.trans hst'
  finished hphase := ⟨runId, by simp [Ledger.setRun, hfinished.1 hphase]⟩
  unfinished hc hx hs := by
    by_cases hstatus : status = .succeeded
    · exact hfinished.2 hstatus
    · exact absurd (h.unfinished hc hx (succeeded_setRun hstatus hs)) hne

theorem Sound.work {l l' : Ledger} (h : l.Sound) (hwork : Work l l') : l'.Sound := by
  cases hwork with
  | stay => exact h
  | claim hphase hstatus =>
    refine ⟨by simp, by simp [Phase.isBusy], ?_, by simp, by simp, ?_⟩
    · intro r st hr hst
      cases hphase.symm.trans (h.ended r st hr hst)
    · intro _ _ hs
      have hlegal : ∃ status, l.status = some status ∧ canTransition status .planning := by
        rcases hstatus with hst | hst <;> exact ⟨_, hst, by decide⟩
      obtain ⟨status, hst, hlegal⟩ := hlegal
      exact absurd hs (h.not_succeeded (by rw [hphase]; simp) hst hlegal)
  | start hphase hstatus hlegal =>
    refine ⟨by simp, by simp, ?_, by simp, by simp, ?_⟩
    · intro r st hr hst
      cases hphase.symm.trans (h.ended r st hr hst)
    · intro _ _ hs
      exact absurd hs (h.not_succeeded (by rw [hphase]; simp) hstatus hlegal)
  | giveUp hphase =>
    refine ⟨fun _ => h.claimed (by rw [hphase]; simp), by simp [Phase.isBusy], ?_, h.completed,
      by simp, ?_⟩
    · intro r st hr hst
      cases hphase.symm.trans (h.ended r st hr hst)
    · intro hc hx hs
      cases hphase.symm.trans (h.unfinished hc hx hs)
  | openRun hphase hfree =>
    refine h.setRun (by rw [hphase]; rfl) (by rw [hphase]; simp) ?_ (fun _ => rfl) (by simp)
    intro r st hr hst
    cases hphase.symm.trans (h.ended r st hr hst)
  | @startRun runId hphase =>
    have hset : l.setRun runId .running = { l.setRun runId .running with phase := .opened runId } :=
      Ledger.ext rfl rfl hphase
    rw [hset]
    refine h.setRun (by rw [hphase]; rfl) (by rw [hphase]; simp) ?_ (fun _ => rfl) (by simp)
    intro r st hr hst
    cases hphase.symm.trans (h.ended r st hr hst)
    rfl
  | finishRun result hphase =>
    refine h.setRun (by rw [hphase]; rfl) (by rw [hphase]; simp) ?_ ?_ ?_
    · intro r st hr hst
      cases hphase.symm.trans (h.ended r st hr hst)
      rfl
    · cases result <;> simp [RuntimeStatus.runStatus, RunStatus.isTerminal]
    · cases result <;> simp [RuntimeStatus.runStatus]
  | closeRun hphase =>
    refine h.setRun (by rw [hphase]; rfl) (by rw [hphase]; simp) ?_ (by simp [RunStatus.isTerminal])
      (by simp)
    intro r st hr hst
    cases hphase.symm.trans (h.ended r st hr hst)
    rfl
  | seeCancelled hphase hstatus =>
    refine ⟨fun _ => h.claimed (by rw [hphase]; simp), by simp [Phase.isBusy], ?_, h.completed,
      by simp, ?_⟩
    · intro r st hr hst
      cases hphase.symm.trans (h.ended r st hr hst)
    · intro _ hx
      exact absurd hstatus hx
  | @finish result status hphase hstatus hlegal =>
    refine ⟨?_, by simp [Phase.isBusy], ?_, ?_, by simp, ?_⟩
    · cases result <;> simp [Orchestrator.finishTarget]
    · intro r st hr hst
      cases hphase.symm.trans (h.ended r st hr hst)
    · intro htarget
      have hresult : result = .succeeded := by
        cases result <;> simp_all [Orchestrator.finishTarget]
      exact h.finished (hresult ▸ hphase)
    · intro hc hx hs
      have hresult : result ≠ .succeeded := by
        rintro rfl
        exact hc rfl
      exact absurd hs (h.not_succeeded (by rw [hphase]; simpa using hresult) hstatus hlegal)
  | settle hphase hstatus hlegal htarget =>
    refine ⟨by simp, by simp [Phase.isBusy], ?_, ?_, by simp, ?_⟩
    · intro r st hr hst
      cases hphase.symm.trans (h.ended r st hr hst)
    · rcases htarget with rfl | rfl <;> simp
    · intro _ _ hs
      exact absurd hs (h.not_succeeded (by rw [hphase]; simp) hstatus hlegal)
  | release hphase =>
    refine ⟨by simp, by simp [Phase.isBusy], ?_, h.completed, by simp, ?_⟩
    · intro r st hr hst
      cases hphase.symm.trans (h.ended r st hr hst)
    · intro hc hx hs
      cases hphase.symm.trans (h.unfinished hc hx hs)

theorem Sound.step {l l' : Ledger} (h : l.Sound) (hstep : Step l l') : l'.Sound := by
  cases hstep with
  | work hwork => exact h.work hwork
  | cancel hstatus hlegal =>
    exact ⟨by simp, fun _ => .inr rfl, h.ended, by simp, h.finished, fun _ hx => absurd rfl hx⟩

theorem reachable_sound {l : Ledger} (h : system.Reachable l) : l.Sound := by
  have hI : system.Invariant Sound := {
    init := fun _ hl => .of_settled hl.1 hl.2
    step := fun _ _ _ hl hstep => hl.step hstep }
  exact hI.reachable h

/-- When no call has claimed the task, its records are in order. -/
theorem Sound.idle {l : Ledger} (h : l.Sound) (hphase : l.phase = .idle) :
    Settled l.status l.runs where
  ended r st hr := by
    cases hst : st.isTerminal with
    | true => rfl
    | false => cases hphase.symm.trans (h.ended r st hr hst)
  completed := h.completed
  unfinished hc hx r hr := by
    cases hphase.symm.trans (h.unfinished hc hx ⟨r, hr⟩)

end Ledger

end AIHub
