import AIHub.Orchestrator.Steps

/-!
# Claiming a queued task

A `process_task` call claims the task when it moves it to planning. It has read the status some
time before, and the transition only checks that planning is legal from whatever the status is by
then: queued, or blocked.

* `queued_between_claims`: as long as no call plans a blocked task, the task enters queued between
  any two claims, so one queueing is claimed by at most one call.
* `claimed_twice`: two calls that both read queued; the first blocks the task, the second claims
  it again.
-/

namespace AIHub

open Transition

variable {ι κ : Type} [DecidableEq ι] [DecidableEq κ] {o : Orchestrator} {taskId : TaskId}

def ProcessPc.isPlanning : ProcessPc → Bool
  | planning .. => true
  | _ => false

def ProcessPc.isPlanned : ProcessPc → Bool
  | planned .. => true
  | _ => false

/-- One of the calls moves the task to planning. -/
def Claims (s s' : OrchestratorState ι κ) : Prop :=
  ∃ i, (s.processes i).isPlanning ∧ (s'.processes i).isPlanned

/-- The step is the store call of a claim, it commits, and the stored task is blocked. -/
def PlansBlocked (taskId : TaskId) (s : OrchestratorState ι κ) :
    OrchestratorLabel ι κ → Prop
  | .process i c =>
    match s.processes i with
    | .planning _ event => c.fault = false ∧
      (WriteOp.transitionTask taskId.val .planning event).Commits s.store ∧
      s.store.statusOf taskId = some .blocked
    | _ => False
  | _ => False

instance (taskId : TaskId) (s : OrchestratorState ι κ) (a : OrchestratorLabel ι κ) :
    Decidable (PlansBlocked taskId s a) := by
  unfold PlansBlocked
  repeat' split
  all_goals infer_instance

/-- The runs in which no call plans a blocked task. -/
def Orchestrator.plansQueued (o : Orchestrator) (taskId : TaskId) :
    System (OrchestratorState ι κ) (OrchestratorLabel ι κ) :=
  (o.system taskId).guard fun s a => ¬ PlansBlocked taskId s a

/-- A run has a step that brings the task into queued. -/
def EntersQueued (M : System (OrchestratorState ι κ) (OrchestratorLabel ι κ)) (taskId : TaskId)
    (u : OrchestratorState ι κ) (as : List (OrchestratorLabel ι κ))
    (v : OrchestratorState ι κ) : Prop :=
  ∃ as₁ e as₂ x y, as = as₁ ++ e :: as₂ ∧ M.Run u as₁ x ∧ M.step x e y ∧ M.Run y as₂ v ∧
    x.store.statusOf taskId ≠ some .queued ∧ y.store.statusOf taskId = some .queued

section

variable {s s' : OrchestratorState ι κ} {a : OrchestratorLabel ι κ}

/-- A step changes the position of its own call only. -/
theorem next_processes_ne (h : o.next taskId s a = some s') {i : ι}
    (hne : s'.processes i ≠ s.processes i) : ∃ c, a = .process i c := by
  cases a with
  | process k c =>
    obtain ⟨_, _, pc', hprocesses, _⟩ := next_process h
    by_cases hk : i = k
    · exact ⟨c, by rw [hk]⟩
    · rw [hprocesses, Function.update_of_ne hk] at hne
      exact absurd rfl hne
  | cancel j c => exact absurd (congrFun (next_cancel h).2.1 i) hne
  | other op => exact absurd (congrFun (next_other h).1 i) hne

/-- A claim is a status change from queued or blocked. -/
theorem claims_step (hc : s.store.Coherent) (hn : ∀ i, (s.processes i).Named taskId)
    (h : o.next taskId s a = some s') (hclaims : Claims s s') :
    ∃ i c task event before after, a = .process i c ∧ s.processes i = .planning task event ∧
      c.fault = false ∧ (WriteOp.transitionTask taskId.val .planning event).Commits s.store ∧
      StatusChange taskId .planning event s.store before after s'.store := by
  obtain ⟨i, hpc, hpc'⟩ := hclaims
  obtain ⟨task, event, hplanning⟩ : ∃ task event, s.processes i = .planning task event := by
    cases hp : s.processes i with
    | planning task event => exact ⟨task, event, rfl⟩
    | _ => simp [hp, ProcessPc.isPlanning] at hpc
  obtain ⟨c, rfl⟩ := next_processes_ne (i := i) h (by
    intro heq
    rw [heq, hplanning] at hpc'
    cases hpc')
  obtain ⟨_, _, pc', hprocesses, ⟨hwaiting, _⟩ | hnext⟩ := next_process h
  · rw [hplanning] at hwaiting
    cases hwaiting
  rw [hprocesses, Function.update_self] at hpc'
  obtain rfl : task.taskId = taskId := hn i task (by simp [hplanning, ProcessPc.tasks])
  rw [hplanning] at hnext
  simp only [processNext, Option.map_eq_some_iff] at hnext
  obtain ⟨_ | ⟨after, store⟩, hcommit, hnext⟩ := hnext <;>
    obtain ⟨rfl, hstore⟩ := Prod.mk.inj hnext
  · cases hpc'
  subst hstore
  obtain ⟨before, hchange⟩ := commit_transition hc hcommit
  refine ⟨i, c, task, event, before, after, rfl, hplanning, commit_fault hcommit,
    ⟨s'.store, ?_⟩, hchange⟩
  rw [WriteOp.exec, (commit_some hcommit).2]
  rfl

end

/-- In the runs in which no call plans a blocked task, the task enters queued between any two
claims. -/
theorem queued_between_claims {s u v w : OrchestratorState ι κ} {a b : OrchestratorLabel ι κ}
    {as : List (OrchestratorLabel ι κ)} (hs : (o.plansQueued taskId).Reachable s)
    (ha : (o.plansQueued taskId).step s a u) (hfirst : Claims s u)
    (hr : (o.plansQueued taskId).Run u as v) (hb : (o.plansQueued taskId).step v b w)
    (hsecond : Claims v w) : EntersQueued (o.plansQueued taskId) taskId u as v := by
  have hv : (o.plansQueued taskId).Reachable v := (hs.step ha).run hr
  obtain ⟨hcs, hns⟩ := system_named hs.of_guard
  obtain ⟨hcv, hnv⟩ := system_named hv.of_guard
  obtain ⟨_, _, _, _, before, after, _, _, _, _, hplanned⟩ := claims_step hcs hns ha.2 hfirst
  obtain ⟨i, c, task, event, before', after', rfl, hpc, hfault, hcommits, hplanned'⟩ :=
    claims_step hcv hnv hb.2 hsecond
  have hu : u.store.statusOf taskId ≠ some .queued := by
    rw [Store.statusOf, hplanned.left, Option.map_some, hplanned.status_eq]
    decide
  have hqueued : v.store.statusOf taskId = some .queued := by
    have hbefore : v.store.statusOf taskId = some before'.status := by
      rw [Store.statusOf, hplanned'.found, Option.map_some]
    rcases canTransition_planning.1 hplanned'.legal with hst | hst
    · rw [hbefore, hst]
    · refine absurd ?_ hb.1
      rw [PlansBlocked, hpc]
      exact ⟨hfault, hcommits, by rw [hbefore, hst]⟩
  exact hr.exists_entry (P := fun x => x.store.statusOf taskId = some .queued) hu hqueued

/-! ## Two claims of one queueing -/

namespace Sample

def orchestrator : Orchestrator where
  selectDeveloper _ := .developer ⟨developer, "codex"⟩
  runtimeName := ⟨"codex", by decide⟩
  correlationId _ := 0
  maxConcurrentTasks := 2

/-- The time and the id of a step, in an environment in which everything goes well. -/
def choice (n : Nat) : Choice where
  time := ⟨20 + n, 0⟩
  uuid := BitVec.ofNat 128 (100 + n)
  runId := runId
  entered := .ok ⟨"/work", "task-1"⟩
  executed := .ok { status := .succeeded }

/-- The project is locked by another task. -/
def locked (n : Nat) : Choice := { choice n with entered := .error .preparationBlocked }

abbrev TwoCalls := OrchestratorState (Fin 2) (Fin 0)

def twoCalls : TwoCalls where
  store := store
  clock := ⟨20, 0⟩
  permits := 2
  processes _ := .waiting
  cancels _ := .gettingTask

/-- Both calls have read that the task is queued. -/
def bothRead : List (OrchestratorLabel (Fin 2) (Fin 0)) :=
  [.process first (choice 0), .process first (choice 1), .process first (choice 2),
    .process second (choice 3), .process second (choice 4), .process second (choice 5)]

/-- The first call blocks the task it has claimed. -/
def firstBlocks : List (OrchestratorLabel (Fin 2) (Fin 0)) :=
  [.process first (choice 7), .process first (choice 8), .process first (locked 9),
    .process first (choice 10), .process first (choice 11), .process first (choice 12)]

/-- An operator queues the task again. -/
def requeued : EventEnvelope := ⟨event 3 .taskQueued 40 .queued, by decide⟩

end Sample

open Sample in
/-- The first call reads the task, claims it and blocks it; it is queued again, and the second
call claims it. -/
theorem queued_between_claims_sample :
    let next := System.guardNext (fun s a => ¬ PlansBlocked Sample.taskId s a)
      (orchestrator.next Sample.taskId)
    let s : TwoCalls := System.execD next twoCalls bothRead
    let u := System.execD next s [.process 0 (choice 6)]
    let as := firstBlocks ++ [.other (.transitionTask Sample.taskId.val .queued requeued)]
    EntersQueued (orchestrator.plansQueued Sample.taskId) Sample.taskId u as
      (System.execD next u as) := by
  intro next s u as
  have hM : orchestrator.plansQueued Sample.taskId = System.ofNext _ next := System.ofNext_guard
  have hs : (orchestrator.plansQueued Sample.taskId).Reachable s := by
    rw [hM]
    exact ⟨twoCalls, bothRead, ⟨store_coherent, rfl, fun _ => rfl, fun _ => rfl⟩,
      System.run_execD (by decide)⟩
  have ha : (orchestrator.plansQueued Sample.taskId).step s (.process 0 (choice 6)) u := by
    rw [hM]
    exact System.step_execD (by decide)
  have hr : (orchestrator.plansQueued Sample.taskId).Run u as (System.execD next u as) := by
    rw [hM]
    exact System.run_execD (by decide)
  have hb : (orchestrator.plansQueued Sample.taskId).step (System.execD next u as)
      (.process 1 (choice 13))
      (System.execD next (System.execD next u as) [.process 1 (choice 13)]) := by
    rw [hM]
    exact System.step_execD (by decide)
  exact queued_between_claims hs ha ⟨0, by decide, by decide⟩ hr hb ⟨1, by decide, by decide⟩

open Sample in
/-- Two calls have read that the task is queued. The first claims it and blocks it, and the
second claims it again. -/
theorem claimed_twice : ¬ ∀ (o : Orchestrator) (taskId : TaskId) (s u v w : TwoCalls)
    (a b : OrchestratorLabel (Fin 2) (Fin 0)) (as : List (OrchestratorLabel (Fin 2) (Fin 0))),
    (o.system taskId).Reachable s → (o.system taskId).step s a u → Claims s u →
    (o.system taskId).Run u as v → (o.system taskId).step v b w → Claims v w →
    EntersQueued (o.system taskId) taskId u as v := by
  intro h
  let next := (orchestrator.next Sample.taskId : TwoCalls → _)
  let s := System.execD next twoCalls bothRead
  let u := System.execD next s [.process 0 (choice 6)]
  let v := System.execD next u firstBlocks
  obtain ⟨as₁, e, as₂, x, y, has, hr, hstep, _, _, hy⟩ := h orchestrator Sample.taskId s u v
    (System.execD next v [.process 1 (choice 13)]) _ _ firstBlocks
    ⟨twoCalls, bothRead, ⟨store_coherent, rfl, fun _ => rfl, fun _ => rfl⟩,
      System.run_execD (by decide)⟩
    (System.step_execD (by decide)) ⟨0, by decide, by decide⟩ (System.run_execD (by decide))
    (System.step_execD (by decide)) ⟨1, by decide, by decide⟩
  have hmem : y ∈ System.states next u firstBlocks := by
    rw [has, ← List.singleton_append, ← List.append_assoc]
    exact System.mem_states (hr.snoc hstep)
  have hnever : ∀ z ∈ System.states next u firstBlocks,
      z.store.statusOf Sample.taskId ≠ some .queued := by decide
  exact hnever y hmem hy

end AIHub
