import AIHub.Orchestrator.Phases

/-!
# What a cancel call returns

A `cancel_task` call reads the task, waits for the runtime if the task is running, stamps its event
and only then writes. Whoever asks for the cancellation of a terminal task gets the task back, but
between the read and the write another call may end the task, and `process_task` may start it.

* `cancels_return`: a cancel call ends after at most five awaits, and every one that ends returns a
  terminal snapshot exactly if none writes to a task that is terminal by then, or has been created
  or started after the time of the call's event.
* `cancel_refused`: two calls read the queued task; the first cancels it, the second raises.
-/

namespace AIHub

open Transition

variable {ι κ : Type} {o : Orchestrator} {taskId : TaskId}

/-! ## The runs that are looked at -/

/-- The step is one of a call, the store does not fail, and `runtime.cancel` succeeds or raises a
`LookupError`. -/
def Serves (_ : OrchestratorState ι κ) : OrchestratorLabel ι κ → Prop
  | .process _ c => c.fault = false
  | .cancel _ c => c.fault = false ∧ c.cancelRaises = false
  | .other _ => False

instance (s : OrchestratorState ι κ) : ∀ a : OrchestratorLabel ι κ, Decidable (Serves s a)
  | .process _ c => inferInstanceAs (Decidable (c.fault = false))
  | .cancel _ c => inferInstanceAs (Decidable (c.fault = false ∧ c.cancelRaises = false))
  | .other _ => inferInstanceAs (Decidable False)

/-- The task has ended, or it has been created or started after `time`. -/
def Task.isPast (task : Task) (time : Timestamp) : Bool :=
  task.status.isTerminal || task.isAfter time

/-- The step is the store write of a cancellation, and the stored task is past the time of its
event. -/
def CancelsTooLate (taskId : TaskId) (s : OrchestratorState ι κ) : OrchestratorLabel ι κ → Prop
  | .cancel j _ =>
    match s.cancels j with
    | .cancelling _ event =>
      ((s.store.task? taskId).any fun task => task.isPast event.timestamp) = true
    | _ => False
  | _ => False

instance (taskId : TaskId) (s : OrchestratorState ι κ) (a : OrchestratorLabel ι κ) :
    Decidable (CancelsTooLate taskId s a) :=
  decidable_of_iff
    ((match a with
      | .cancel j _ =>
        match s.cancels j with
        | .cancelling _ event => (s.store.task? taskId).any fun task => task.isPast event.timestamp
        | _ => false
      | _ => false) = true)
    (by
      unfold CancelsTooLate
      repeat' split
      all_goals simp)

/-- No call has begun, and the task exists. -/
structure Orchestrator.HasTask (o : Orchestrator) (taskId : TaskId) (s : OrchestratorState ι κ) :
    Prop where
  idle : o.Idle s
  created : (s.store.task? taskId).isSome = true

section

variable [DecidableEq ι] [DecidableEq κ]

/-- The interleavings of the calls for an existing task. -/
def Orchestrator.cancellable (o : Orchestrator) (taskId : TaskId) :
    System (OrchestratorState ι κ) (OrchestratorLabel ι κ) :=
  (System.ofNext (o.HasTask taskId) (o.next taskId)).guard Serves

/-- Those in which no cancellation comes too late. -/
def Orchestrator.cancelsEarly (o : Orchestrator) (taskId : TaskId) :
    System (OrchestratorState ι κ) (OrchestratorLabel ι κ) :=
  (o.cancellable taskId).guard fun s a => ¬ CancelsTooLate taskId s a

end

/-- The call has returned a terminal snapshot of the task, if it has ended. -/
def CancelPc.Returned (taskId : TaskId) : CancelPc → Prop
  | done result => ∃ task, result = some task ∧ task.taskId = taskId ∧ task.status.isTerminal = true
  | _ => True

instance (taskId : TaskId) : (pc : CancelPc) → Decidable (pc.Returned taskId)
  | .done result => decidable_of_iff
    (result.any (fun task => decide (task.taskId = taskId) && task.status.isTerminal) = true)
    (by cases result <;> simp [CancelPc.Returned])
  | .gettingTask | .cancellingRuntime _ | .gotTask _ | .cancelling _ _ | .notifying _ =>
    inferInstanceAs (Decidable True)

/-- How many awaits a call has before it at most. -/
def CancelPc.awaitsLeft : CancelPc → Nat
  | gettingTask => 5
  | cancellingRuntime _ => 4
  | gotTask _ => 3
  | cancelling _ _ => 2
  | notifying _ => 1
  | done _ => 0

/-- The step is one of the cancel call `j`. -/
def OrchestratorLabel.isCancel [DecidableEq κ] (j : κ) : OrchestratorLabel ι κ → Bool
  | .cancel k _ => k = j
  | _ => false

/-! ## What the calls agree on -/

/-- The snapshots are of one task; no call changes what they share. -/
structure Task.SameWork (task base : Task) : Prop where
  taskId : task.taskId = base.taskId
  project : task.project = base.project
  team : task.team = base.team

theorem Task.SameWork.symm {task base : Task} (h : task.SameWork base) : base.SameWork task :=
  ⟨h.taskId.symm, h.project.symm, h.team.symm⟩

theorem TaskChange.sameWork {s s' : Store} {task base : Task} (h : TaskChange taskId s s')
    (hstored : s.task? taskId = some task) (hsame : task.SameWork base) :
    ∃ task', s'.task? taskId = some task' ∧ task'.SameWork base := by
  cases h with
  | same h => exact ⟨task, (h.task? taskId).trans hstored, hsame⟩
  | @moved target event before after h =>
    obtain rfl : before = task := Option.some.inj (h.found.symm.trans hstored)
    refine ⟨after, h.left, ?_, ?_, ?_⟩ <;> rw [h.moved]
    exacts [hsame.taskId, hsame.project, hsame.team]
  | @assigned agent before after h =>
    obtain rfl : before = task := Option.some.inj (h.found.symm.trans hstored)
    refine ⟨after, h.left, ?_, ?_, ?_⟩ <;> rw [h.assigned]
    exacts [hsame.taskId, hsame.project, hsame.team]

theorem LifecycleEvent.of_sameWork {task base : Task} {target : TaskStatus}
    {event : EventEnvelope} (h : LifecycleEvent base target event) (hsame : task.SameWork base) :
    LifecycleEvent task target event where
  type := h.type
  taskId := hsame.taskId ▸ h.taskId
  project := hsame.project ▸ h.project
  team := hsame.team ▸ h.team
  status := h.status

/-- What a call holds is of the task `base`. -/
def CancelPc.Of (base : Task) : CancelPc → Prop
  | gettingTask | done none => True
  | cancellingRuntime task | gotTask task => task.SameWork base
  | cancelling _ event => LifecycleEvent base .cancelled event
  | notifying task | done (some task) =>
    task.taskId = base.taskId ∧ task.status.isTerminal = true

theorem CancelPc.Of.returned {base : Task} {pc : CancelPc} (h : pc.Of base)
    (hbase : base.taskId = taskId) : pc.Returned taskId ↔ pc ≠ .done none := by
  cases pc with
  | done result =>
    cases result with
    | none => simp [Returned]
    | some task =>
      have hof : task.taskId = taskId ∧ task.status.isTerminal = true := hbase ▸ h
      simpa [Returned] using hof
  | _ => simp [Returned]

/-- The event of a cancellation is well formed. -/
theorem Orchestrator.cancelEvent_ok (o : Orchestrator) (c : Choice) (task : Task) :
    ∃ event, o.cancelEvent c task = .ok event ∧ LifecycleEvent task .cancelled event := by
  let reason : JsonObject := [("reason", .string "user-request")]
  let payload := reason.set "status" (.string TaskStatus.cancelled.value)
  have hpayload : payload =
      [("reason", .string "user-request"), ("status", .string TaskStatus.cancelled.value)] := by
    decide
  have hforbidden : findForbiddenPayloadKey payload = none := by decide
  obtain ⟨event, hevent, hlife, _⟩ := o.transitionEvent_ok c task none .warning hforbidden
  refine ⟨event, ?_, hlife⟩
  exact (congrArg (o.event c task .taskCancelled none .warning) hpayload.symm).trans hevent

theorem canTransition_cancelled {current : TaskStatus} (h : current.isTerminal = false) :
    canTransition current .cancelled := by
  revert h
  cases current <;> decide

section

variable {s s' : Store} {c : Choice} {event : EventEnvelope} {base stored : Task}

/-- A cancellation is refused exactly if the stored task is past the time of its event. -/
theorem commit_cancel (hc : s.Coherent) (hstored : s.task? taskId = some stored)
    (hlife : LifecycleEvent stored .cancelled event) (hfault : c.fault = false)
    {r : Option (Task × Store)}
    (h : commit c event (Store.cancelTask taskId.val) s = some r) :
    r = none ↔ stored.isPast event.timestamp = true := by
  cases r with
  | none =>
    simp only [true_iff]
    by_contra hpast
    rw [Task.isPast, Bool.or_eq_true, not_or, Bool.not_eq_true, Bool.not_eq_true,
      Task.isAfter_eq_false] at hpast
    obtain ⟨hactive, hcreated, hstarted⟩ := hpast
    exact commit_transition_legal hc hstored (canTransition_cancelled hactive) hlife hcreated
      hstarted hfault h
  | some result =>
    obtain ⟨after, s'⟩ := result
    obtain ⟨before, hchange⟩ := commit_transition hc h
    obtain rfl : before = stored := Option.some.inj (hchange.found.symm.trans hstored)
    have hterminal : before.status.isTerminal = false := by
      by_contra hterminal
      exact not_canTransition_of_terminal (by simpa using hterminal) hchange.legal
    simp [Task.isPast, hterminal, Task.isAfter_eq_false.2 ⟨hchange.created, hchange.started⟩]

/-- A cancel call keeps to its task. -/
theorem cancelNext_of {pc pc' : CancelPc} (hc : s.Coherent) (hbase : base.taskId = taskId)
    (hstored : s.task? taskId = some stored) (hsame : stored.SameWork base)
    (hof : pc.Of base) (h : cancelNext o taskId c pc s = some (pc', s')) : pc'.Of base := by
  cases pc with
  | gettingTask =>
    simp only [cancelNext] at h
    split at h
    · cases h
      trivial
    · rename_i task hread
      obtain rfl : task = stored := Option.some.inj ((readTask_some hread).symm.trans hstored)
      split_ifs at h with hterminal hrunning <;> cases h
      · exact ⟨hsame.taskId, hterminal⟩
      · exact hsame
      · exact hsame
  | cancellingRuntime task =>
    simp only [cancelNext] at h
    split_ifs at h <;> cases h
    · trivial
    · exact hof
  | gotTask task =>
    obtain ⟨event, hevent, hlife⟩ := o.cancelEvent_ok c task
    simp only [cancelNext, hevent] at h
    cases h
    exact hlife.of_sameWork (Task.SameWork.symm hof)
  | cancelling task event =>
    simp only [cancelNext, Option.map_eq_some_iff] at h
    obtain ⟨_ | ⟨after, s₁⟩, hcommit, h⟩ := h <;> cases h
    · trivial
    · obtain ⟨before, hchange⟩ := commit_transition hc hcommit
      refine ⟨hchange.taskId_eq.trans hbase.symm, ?_⟩
      rw [hchange.status_eq]
      rfl
  | notifying task =>
    cases h
    exact hof
  | done => cases h

/-- A cancel call raises exactly if it cancels too late. -/
theorem cancelNext_raises {pc pc' : CancelPc} (hc : s.Coherent)
    (hstored : s.task? taskId = some stored) (hsame : stored.SameWork base) (hof : pc.Of base)
    (hfault : c.fault = false) (hruntime : c.cancelRaises = false)
    (h : cancelNext o taskId c pc s = some (pc', s')) :
    pc' = .done none ↔
      ∃ task event, pc = .cancelling task event ∧ stored.isPast event.timestamp = true := by
  cases pc with
  | gettingTask =>
    have hread : readTask c taskId s = some stored := by rwa [readTask, hfault]
    simp only [cancelNext, hread] at h
    split_ifs at h <;> cases h <;> simp
  | cancellingRuntime task =>
    simp only [cancelNext, hruntime] at h
    cases h
    simp
  | gotTask task =>
    obtain ⟨event, hevent, _⟩ := o.cancelEvent_ok c task
    simp only [cancelNext, hevent] at h
    cases h
    simp
  | cancelling task event =>
    simp only [cancelNext, Option.map_eq_some_iff] at h
    obtain ⟨r, hcommit, h⟩ := h
    have hpast := commit_cancel hc hstored (LifecycleEvent.of_sameWork hof hsame) hfault hcommit
    cases r with
    | none =>
      cases h
      simpa using hpast
    | some result =>
      cases h
      simpa using hpast
  | notifying task =>
    cases h
    simp
  | done => cases h

theorem cancelNext_awaitsLeft {pc pc' : CancelPc}
    (h : cancelNext o taskId c pc s = some (pc', s')) : pc'.awaitsLeft < pc.awaitsLeft := by
  cases pc with
  | cancelling task event =>
    simp only [cancelNext, Option.map_eq_some_iff] at h
    obtain ⟨_ | ⟨after, s₁⟩, _, h⟩ := h <;> cases h <;> simp [CancelPc.awaitsLeft]
  | _ =>
    simp only [cancelNext] at h
    repeat' split at h
    all_goals
      cases h
      try simp [CancelPc.awaitsLeft]

end

/-! ## Interleavings of the calls -/

/-- The task is the one that `base` is a snapshot of, and so is what the cancel calls hold. -/
structure Serving (taskId : TaskId) (base : Task) (s : OrchestratorState ι κ) : Prop where
  base_taskId : base.taskId = taskId
  stored : ∃ task, s.store.task? taskId = some task ∧ task.SameWork base
  cancels : ∀ j, (s.cancels j).Of base

theorem Serving.init {s : OrchestratorState ι κ} (hs : o.HasTask taskId s) :
    ∃ base, Serving taskId base s := by
  obtain ⟨base, hbase⟩ := Option.isSome_iff_exists.1 hs.created
  refine ⟨base, hs.idle.1.taskId_eq hbase, ⟨base, hbase, rfl, rfl, rfl⟩, ?_⟩
  intro j
  rw [hs.idle.2.2.2 j]
  trivial

section

variable [DecidableEq ι] [DecidableEq κ] {s s' : OrchestratorState ι κ}
  {a : OrchestratorLabel ι κ} {as : List (OrchestratorLabel ι κ)} {base : Task}

theorem cancellable_system (h : (o.cancellable taskId).Reachable s) :
    (o.system taskId).Reachable s :=
  System.Reachable.mono (M := System.ofNext (o.HasTask taskId) (o.next taskId))
    (fun _ hs => hs.idle) (fun _ _ _ hst => hst) h.of_guard

theorem Serving.process {i : ι} {c : Choice} (h : Serving taskId base s)
    (hc : s.store.Coherent) (hn : ∀ i, (s.processes i).Named taskId)
    (hstep : o.next taskId s (.process i c) = some s') :
    Serving taskId base s' ∧ s'.cancels = s.cancels := by
  obtain ⟨_, hcancels, pc', _, hmove⟩ := next_process hstep
  have hchange : TaskChange taskId s.store s'.store := by
    rcases hmove with ⟨_, _, hstore⟩ | hnext
    · exact hstore ▸ .refl taskId s.store
    · exact (processNext_task hc (hn i) hnext).1
  obtain ⟨task, htask, hsame⟩ := h.stored
  refine ⟨⟨h.base_taskId, hchange.sameWork htask hsame, ?_⟩, hcancels⟩
  rw [hcancels]
  exact h.cancels

theorem Serving.cancel {j : κ} {c : Choice} (h : Serving taskId base s) (hc : s.store.Coherent)
    (hserves : Serves s (.cancel j c)) (hstep : o.next taskId s (.cancel j c) = some s') :
    Serving taskId base s' ∧ ((∃ k, s'.cancels k = .done none) ↔
      (∃ k, s.cancels k = .done none) ∨ CancelsTooLate taskId s (.cancel j c)) := by
  obtain ⟨hfault, hruntime⟩ := hserves
  obtain ⟨_, _, pc', hcancels, hnext⟩ := next_cancel hstep
  obtain ⟨task, htask, hsame⟩ := h.stored
  constructor
  · refine ⟨h.base_taskId, (cancelNext_task hc hnext).sameWork htask hsame, ?_⟩
    intro k
    rw [hcancels]
    by_cases hk : k = j
    · subst hk
      rw [Function.update_self]
      exact cancelNext_of hc h.base_taskId htask hsame (h.cancels k) hnext
    · rw [Function.update_of_ne hk]
      exact h.cancels k
  · have hraises := cancelNext_raises hc htask hsame (h.cancels j) hfault hruntime hnext
    have hlate : CancelsTooLate taskId s (.cancel j c) ↔ pc' = .done none := by
      rw [hraises]
      cases hpc : s.cancels j <;> simp [CancelsTooLate, hpc, htask]
    have hnotdone : s.cancels j ≠ .done none := by
      intro hdone
      rw [hdone] at hnext
      cases hnext
    rw [hlate, hcancels]
    constructor
    · intro ⟨k, hk⟩
      by_cases hkj : k = j
      · subst hkj
        exact .inr (by simpa using hk)
      · exact .inl ⟨k, by rwa [Function.update_of_ne hkj] at hk⟩
    · intro h
      rcases h with ⟨k, hk⟩ | hpc'
      · have hkj : k ≠ j := fun heq => hnotdone (heq ▸ hk)
        exact ⟨k, by rwa [Function.update_of_ne hkj]⟩
      · exact ⟨j, by rw [Function.update_self, hpc']⟩

/-- A step makes a call raise exactly if it cancels too late. -/
theorem Serving.step (hs : (o.cancellable taskId).Reachable s) (h : Serving taskId base s)
    (hstep : (o.cancellable taskId).step s a s') :
    Serving taskId base s' ∧ ((∃ k, s'.cancels k = .done none) ↔
      (∃ k, s.cancels k = .done none) ∨ CancelsTooLate taskId s a) := by
  obtain ⟨hserves, hnext⟩ := hstep
  obtain ⟨hc, hn⟩ := system_named (cancellable_system hs)
  cases a with
  | process i c =>
    obtain ⟨hserving, hcancels⟩ := h.process hc hn hnext
    exact ⟨hserving, by simp [hcancels, CancelsTooLate]⟩
  | cancel j c => exact h.cancel hc hserves hnext
  | other op => exact hserves.elim

/-- A cancel call that has ended stays where it is. -/
theorem run_done {k : κ} {result : Option Task} (hr : (o.cancellable taskId).Run s as s')
    (h : s.cancels k = .done result) : s'.cancels k = .done result := by
  refine hr.keeps (I := fun s => s.cancels k = .done result) ?_ h
  rintro s a t h ⟨hserves, hnext⟩
  cases a with
  | process i c => rwa [(next_process hnext).2.1]
  | cancel j c =>
    obtain ⟨_, _, pc', hcancels, hcancel⟩ := next_cancel hnext
    have hkj : k ≠ j := by
      intro heq
      rw [← heq, h] at hcancel
      cases hcancel
    rwa [hcancels, Function.update_of_ne hkj]
  | other op => exact hserves.elim

theorem Serving.run (hs : (o.cancellable taskId).Reachable s) (h : Serving taskId base s)
    (hr : (o.cancellable taskId).Run s as s') : Serving taskId base s' :=
  hr.keeps_from (fun _ _ _ hs h hstep => (h.step hs hstep).1) hs h

/-- No call has raised exactly if no step has cancelled too late. -/
theorem Serving.raises (hs : (o.cancellable taskId).Reachable s) (h : Serving taskId base s)
    (hnone : ∀ k, s.cancels k ≠ .done none) (hr : (o.cancellable taskId).Run s as s') :
    (∀ k, s'.cancels k ≠ .done none) ↔ (o.cancelsEarly taskId).Run s as s' := by
  induction hr with
  | nil s => simp [hnone, System.Run.nil]
  | @cons s t s' a as hstep hrest ih =>
    obtain ⟨hserving, hraises⟩ := h.step hs hstep
    by_cases hlate : CancelsTooLate taskId s a
    · obtain ⟨k, hk⟩ := hraises.2 (.inr hlate)
      constructor
      · intro hnone'
        exact absurd (run_done hrest hk) (hnone' k)
      · intro hrun
        cases hrun with
        | cons hstep' _ => exact absurd hlate hstep'.1
    · have hnone' : ∀ k, t.cancels k ≠ .done none := by
        intro k hk
        rcases hraises.1 ⟨k, hk⟩ with ⟨k, hk⟩ | hlate'
        · exact hnone k hk
        · exact hlate hlate'
      rw [ih (hs.step hstep) hserving hnone']
      constructor
      · intro hrun
        exact .cons ⟨hlate, hstep⟩ hrun
      · intro hrun
        cases hrun with
        | cons hstep' hrun =>
          cases hstep.2.symm.trans hstep'.2.2
          exact hrun

theorem run_awaitsLeft (j : κ) (hr : (o.cancellable taskId).Run s as s') :
    as.countP (·.isCancel j) + (s'.cancels j).awaitsLeft ≤ (s.cancels j).awaitsLeft := by
  induction hr with
  | nil => simp
  | @cons s t s' a as hstep hrest ih =>
    have hdecrease : (if a.isCancel j then 1 else 0) + (t.cancels j).awaitsLeft ≤
        (s.cancels j).awaitsLeft := by
      obtain ⟨hserves, hnext⟩ := hstep
      cases a with
      | process i c =>
        rw [(next_process hnext).2.1]
        simp [OrchestratorLabel.isCancel]
      | cancel k c =>
        obtain ⟨_, _, pc', hcancels, hcancel⟩ := next_cancel hnext
        rw [hcancels]
        by_cases hk : j = k
        · subst hk
          have hlt := cancelNext_awaitsLeft hcancel
          simp only [OrchestratorLabel.isCancel, decide_true, if_true, Function.update_self]
          omega
        · simp [OrchestratorLabel.isCancel, Function.update_of_ne hk, Ne.symm hk]
      | other op => exact hserves.elim
    rw [List.countP_cons]
    omega

/-- A cancel call ends after at most five awaits, and each one that ends returns the task, in a
terminal status, exactly if no call writes when the task has ended, or has been created or started
after the time of the call's event. -/
theorem cancels_return (hs : o.HasTask taskId s) (hr : (o.cancellable taskId).Run s as s') :
    ((∀ j, (s'.cancels j).Returned taskId) ↔ (o.cancelsEarly taskId).Run s as s') ∧
      ∀ j, as.countP (·.isCancel j) + (s'.cancels j).awaitsLeft ≤ 5 := by
  obtain ⟨base, hserving⟩ := Serving.init hs
  have hfirst : ∀ j, s.cancels j = .gettingTask := hs.idle.2.2.2
  have hend := hserving.run (.of_init hs) hr
  refine ⟨?_, fun j => ?_⟩
  · rw [← hserving.raises (.of_init hs) (fun k hk => by cases (hfirst k).symm.trans hk) hr]
    exact forall_congr' fun j => (hend.cancels j).returned hend.base_taskId
  · have hleft := run_awaitsLeft j hr
    rwa [hfirst j] at hleft

end

/-! ## Two cancellations of one task -/

namespace Sample

abbrev TwoCancels := OrchestratorState Unit (Fin 2)

def twoCancels : TwoCancels where
  store := store
  clock := ⟨20, 0⟩
  permits := 2
  processes _ := .waiting
  cancels _ := .gettingTask

theorem hasTask : orchestrator.HasTask Sample.taskId twoCancels where
  idle := ⟨store_coherent, rfl, fun _ => rfl, fun _ => rfl⟩
  created := by decide +kernel

/-- The process call claims the task, one call cancels it, and the other reads it afterwards. -/
def inTurn : List (OrchestratorLabel Unit (Fin 2)) :=
  (List.range 4).map (fun k => .process () (choice k)) ++
    (List.range 4).map (fun k => .cancel first (choice (10 + k))) ++ [.cancel second (choice 15)]

/-- Both calls stamp their events before either of them writes. -/
def atOnce : List (OrchestratorLabel Unit (Fin 2)) :=
  [.cancel first (choice 0), .cancel second (choice 1), .cancel first (choice 2),
    .cancel second (choice 3), .cancel first (choice 4), .cancel second (choice 5)]

end Sample

open Sample in
theorem cancels_return_sample :
    let next := System.guardNext (fun s a => ¬ CancelsTooLate Sample.taskId s a)
      (System.guardNext Serves (orchestrator.next Sample.taskId))
    let s : TwoCancels := System.execD next twoCancels inTurn
    (∀ j, (s.cancels j).Returned Sample.taskId) ∧
      ∀ j, inTurn.countP (·.isCancel j) + (s.cancels j).awaitsLeft ≤ 5 := by
  intro next s
  have hM : orchestrator.cancelsEarly Sample.taskId =
      System.ofNext (orchestrator.HasTask Sample.taskId) next := by
    rw [Orchestrator.cancelsEarly, Orchestrator.cancellable, System.ofNext_guard,
      System.ofNext_guard]
  have hr : (orchestrator.cancelsEarly Sample.taskId).Run twoCancels inTurn s := by
    rw [hM]
    exact System.run_execD (by decide +kernel)
  obtain ⟨hreturned, hawaits⟩ := cancels_return hasTask hr.of_guard
  exact ⟨hreturned.2 hr, hawaits⟩

open Sample in
/-- Both calls have read that the task is queued. The first cancels it, and the second raises. -/
theorem cancel_refused : ¬ ∀ (o : Orchestrator) (taskId : TaskId) (s s' : TwoCancels)
    (as : List (OrchestratorLabel Unit (Fin 2))), o.HasTask taskId s →
    (o.cancellable taskId).Run s as s' → ∀ j, (s'.cancels j).Returned taskId := by
  intro h
  let next := System.guardNext Serves (orchestrator.next Sample.taskId : TwoCancels → _)
  have hM : orchestrator.cancellable Sample.taskId =
      System.ofNext (orchestrator.HasTask Sample.taskId) next := System.ofNext_guard
  have hr : (orchestrator.cancellable Sample.taskId).Run twoCancels atOnce
      (System.execD next twoCancels atOnce) := by
    rw [hM]
    exact System.run_execD (by decide +kernel)
  have hraised : ¬ ((System.execD next twoCancels atOnce).cancels 1).Returned Sample.taskId := by
    decide +kernel
  exact hraised (h orchestrator Sample.taskId twoCancels _ atOnce hasTask hr 1)

end AIHub
