import AIHub.Orchestrator.Service
import Mathlib.Data.Finset.Erase
import Mathlib.Data.Finset.Insert

/-!
# The processes of the Codex runtime

`execute` and `cancel` of `CodexRuntime` as programs that stop at their awaits. They share the
process of each task, the tasks that are marked as cancelled, and a lock. Between two awaits a call
runs alone; the only await under the lock is the one of an execution that finds its task taken and
terminates its own process. Any await can be interrupted by a cancellation of the coroutine, and
what the processes do is up to the environment.

* `entries_held`: a marked task has a registered process; an execution between its registration and
  its cleanup is the one that is registered for its task; only it removes its entry; and if it
  reports `cancelled`, a `cancel` call for the task has marked it while it was registered.
-/

namespace AIHub.CodexRuntime

open Transition

/-! ## Positions -/

/-- Where a `_terminate` call stands. -/
inductive TerminatePc where
  | started
  /-- There was no such process; it is awaited. -/
  | waitingGone
  | waitingGrace
  | killed
  deriving DecidableEq

/-- Where an `execute` call stands. -/
inductive ExecutePc where
  | creating
  /-- Waits for the lock, to register the process. -/
  | created
  /-- Holds the lock; the task has a process already. -/
  | rejecting (t : TerminatePc)
  | writing
  | waiting
  | timingOut (t : TerminatePc)
  /-- Waits for the lock, to see whether the task is marked. -/
  | reading
  | failing (t : TerminatePc)
  | gathering
  /-- Waits for the lock, to remove its entries; without a status an exception is on its way. -/
  | cleaning (status : Option RuntimeStatus)
  | collecting (status : RuntimeStatus)
  | returned (status : RuntimeStatus)
  | raised
  deriving DecidableEq

/-- Where a `cancel` call stands, about the process of execution `i`. -/
inductive CancelPc (ι : Type) where
  | locking
  | terminating (i : ι) (t : TerminatePc)
  | returned
  /-- `RuntimeTaskNotRunning`. -/
  | notRunning
  | raised
  deriving DecidableEq

namespace ExecutePc

/-- From the registration of the process to the removal of the entries. -/
def isRegistered : ExecutePc → Bool
  | writing | waiting | timingOut _ | reading | failing _ | gathering | cleaning _ => true
  | creating | created | rejecting _ | collecting _ | returned _ | raised => false

/-- The status is, or will be, `cancelled`. -/
def reportsCancelled : ExecutePc → Bool
  | cleaning (some .cancelled) | collecting .cancelled | returned .cancelled => true
  | _ => false

end ExecutePc

/-! ## One await -/

/-- What the environment does at one step. -/
structure RuntimeChoice where
  /-- The coroutine is cancelled at its await. -/
  interrupted : Bool := false
  /-- What is awaited raises. -/
  raises : Bool := false
  timesOut : Bool := false
  /-- `process.terminate()` finds no process. -/
  lookupError : Bool := false

/-- What is shared: the process of each task, named after its execution, the marked tasks, who
holds the lock over an await, and the return code of each process that has one. -/
structure Shared (ι : Type) where
  processes : TaskId → Option ι
  cancelled : Finset TaskId
  lock : Option ι
  returncode : ι → Option Int

/-- Where a `_terminate` call comes to. -/
inductive Terminated where
  | on (t : TerminatePc)
  | done
  | raises

/-- Take `_terminate` past one await, or to its first one: that is a step of its own, which only
adds interleavings. -/
def terminateNext (returncode : Option Int) (c : RuntimeChoice) : TerminatePc → Option Terminated
  | .started =>
    if returncode.isSome then some .done
    else if c.lookupError then some (.on .waitingGone)
    else if c.raises then some .raises
    else some (.on .waitingGrace)
  | .waitingGone | .killed =>
    if c.interrupted then some .raises else if returncode.isSome then some .done else none
  | .waitingGrace =>
    if c.interrupted then some .raises
    else if returncode.isSome then some .done
    -- `process.kill()` raises if the process is gone by now.
    else if c.timesOut then some (if c.raises then .raises else .on .killed)
    else none

section

variable {ι : Type} [DecidableEq ι]

/-- Take execution `i`, of `task`, past one await. -/
def executeNext (task : TaskId) (i : ι) (c : RuntimeChoice) :
    ExecutePc → Shared ι → Option (ExecutePc × Shared ι)
  | .creating, s => some (if c.interrupted || c.raises then .raised else .created, s)
  | .created, s =>
    if c.interrupted then some (.raised, s)
    else if s.lock.isSome then none
    else if (s.processes task).isSome then some (.rejecting .started, { s with lock := some i })
    else some (.writing, { s with processes := Function.update s.processes task (some i) })
  | .rejecting t, s => (terminateNext (s.returncode i) c t).map fun
    | .on t => (.rejecting t, s)
    | .done | .raises => (.raised, { s with lock := none })
  | .writing, s => some (if c.interrupted || c.raises then .failing .started else .waiting, s)
  | .waiting, s =>
    if c.interrupted || c.raises then some (.failing .started, s)
    else if c.timesOut then some (.timingOut .started, s)
    else if (s.returncode i).isSome then some (.reading, s)
    else none
  | .timingOut t, s => (terminateNext (s.returncode i) c t).map fun
    | .on t => (.timingOut t, s)
    | .done => (.cleaning (some .timedOut), s)
    | .raises => (.failing .started, s)
  | .reading, s =>
    if c.interrupted then some (.failing .started, s)
    else if s.lock.isSome then none
    else if task ∈ s.cancelled then some (.cleaning (some .cancelled), s)
    else if s.returncode i = some 0 then some (.cleaning (some .succeeded), s)
    else some (.cleaning (some .failed), s)
  | .failing t, s => (terminateNext (s.returncode i) c t).map fun
    | .on t => (.failing t, s)
    | .done => (.gathering, s)
    | .raises => (.cleaning none, s)
  | .gathering, s => some (.cleaning none, s)
  | .cleaning status, s =>
    -- An interruption while the lock is awaited leaves the entries behind.
    if c.interrupted then some (.raised, s)
    else if s.lock.isSome then none
    else some (status.elim .raised .collecting, { s with
      processes := Function.update s.processes task none
      cancelled := s.cancelled.erase task })
  | .collecting status, s =>
    some (if c.interrupted || c.raises then .raised else .returned status, s)
  | .returned _, _ | .raised, _ => none

/-- Take a `cancel` call for `task` past one await. -/
def cancelNext (task : TaskId) (c : RuntimeChoice) :
    CancelPc ι → Shared ι → Option (CancelPc ι × Shared ι)
  | .locking, s =>
    if c.interrupted then some (.raised, s)
    else if s.lock.isSome then none
    else match s.processes task with
      | none => some (.notRunning, s)
      | some i => some (.terminating i .started, { s with cancelled := insert task s.cancelled })
  | .terminating i t, s => (terminateNext (s.returncode i) c t).map fun
    | .on t => (.terminating i t, s)
    | .done => (.returned, s)
    | .raises => (.raised, s)
  | .returned, _ | .notRunning, _ | .raised, _ => none

end

/-! ## Interleavings -/

/-- What is shared, and the calls. -/
structure RuntimeState (ι κ : Type) extends Shared ι where
  executions : ι → ExecutePc
  cancels : κ → CancelPc ι

/-- Who takes a step: an execution, a `cancel` call, or a process, which exits. -/
inductive RuntimeLabel (ι κ : Type) where
  | execute (i : ι) (c : RuntimeChoice)
  | cancel (j : κ) (c : RuntimeChoice)
  | exit (i : ι) (returncode : Int)

variable {ι κ : Type} [DecidableEq ι] [DecidableEq κ]

def next (tasks : ι → TaskId) (targets : κ → TaskId) (s : RuntimeState ι κ) :
    RuntimeLabel ι κ → Option (RuntimeState ι κ)
  | .execute i c => (executeNext (tasks i) i c (s.executions i) s.toShared).map fun r =>
    { toShared := r.2, executions := Function.update s.executions i r.1, cancels := s.cancels }
  | .cancel j c => (cancelNext (targets j) c (s.cancels j) s.toShared).map fun r =>
    { toShared := r.2, executions := s.executions, cancels := Function.update s.cancels j r.1 }
  | .exit i code =>
    if s.executions i = .creating ∨ (s.returncode i).isSome then none
    else some { s with returncode := Function.update s.returncode i (some code) }

/-- Nothing runs yet. -/
structure Initial (s : RuntimeState ι κ) : Prop where
  processes : ∀ task, s.processes task = none
  cancelled : s.cancelled = ∅
  lock : s.lock = none
  returncode : ∀ i, s.returncode i = none
  executions : ∀ i, s.executions i = .creating
  cancels : ∀ j, s.cancels j = .locking

/-- Any number of executions, the execution `i` of the task `tasks i`, and of `cancel` calls, the
call `j` for the task `targets j`. -/
def system (tasks : ι → TaskId) (targets : κ → TaskId) :
    System (RuntimeState ι κ) (RuntimeLabel ι κ) :=
  .ofNext Initial (next tasks targets)

/-! ## What one step does -/

section

variable {task : TaskId} {i : ι} {c : RuntimeChoice} {pc pc' : ExecutePc} {s s' : Shared ι}

/-- What a step of execution `i` does to the entries of its task. -/
inductive ExecuteEffect (task : TaskId) (i : ι) (pc : ExecutePc) (s : Shared ι) (pc' : ExecutePc)
    (s' : Shared ι) : Prop
  | keeps (processes : s'.processes = s.processes) (cancelled : s'.cancelled = s.cancelled)
      (registered : pc'.isRegistered → pc.isRegistered)
      (reports : pc'.reportsCancelled →
        pc.reportsCancelled ∨ pc.isRegistered ∧ task ∈ s.cancelled)
  | registers (free : s.processes task = none)
      (processes : s'.processes = Function.update s.processes task (some i))
      (cancelled : s'.cancelled = s.cancelled) (reports : pc'.reportsCancelled = false)
  | clears (registered : pc.isRegistered) (cleared : pc'.isRegistered = false)
      (processes : s'.processes = Function.update s.processes task none)
      (cancelled : s'.cancelled = s.cancelled.erase task)
      (reports : pc'.reportsCancelled → pc.reportsCancelled)

omit [DecidableEq ι] in
theorem executeNext_effect (h : executeNext task i c pc s = some (pc', s')) :
    ExecuteEffect task i pc s pc' s' := by
  cases pc with
  | creating | writing =>
    cases h
    cases c.interrupted || c.raises <;>
      exact .keeps rfl rfl (by simp [ExecutePc.isRegistered]) (by simp [ExecutePc.reportsCancelled])
  | gathering =>
    cases h
    exact .keeps rfl rfl (fun _ => rfl) (by simp [ExecutePc.reportsCancelled])
  | collecting status =>
    cases h
    cases c.interrupted || c.raises <;> cases status <;>
      exact .keeps rfl rfl (by simp [ExecutePc.isRegistered]) (by simp [ExecutePc.reportsCancelled])
  | created =>
    simp only [executeNext] at h
    split_ifs at h with hinterrupted hlock htaken
    · cases h
      exact .keeps rfl rfl (by simp [ExecutePc.isRegistered]) (by simp [ExecutePc.reportsCancelled])
    · cases h
      exact .keeps rfl rfl (by simp [ExecutePc.isRegistered]) (by simp [ExecutePc.reportsCancelled])
    · cases h
      exact .registers (by simpa using htaken) rfl rfl rfl
  | rejecting t | timingOut t | failing t =>
    simp only [executeNext, Option.map_eq_some_iff] at h
    obtain ⟨t' | _ | _, _, h⟩ := h <;> cases h <;>
      exact .keeps rfl rfl (by simp [ExecutePc.isRegistered]) (by simp [ExecutePc.reportsCancelled])
  | waiting =>
    simp only [executeNext] at h
    split_ifs at h <;> cases h <;>
      exact .keeps rfl rfl (by simp [ExecutePc.isRegistered]) (by simp [ExecutePc.reportsCancelled])
  | reading =>
    simp only [executeNext] at h
    split_ifs at h with hinterrupted hlock hmarked
    · cases h
      exact .keeps rfl rfl (by simp [ExecutePc.isRegistered]) (by simp [ExecutePc.reportsCancelled])
    · cases h
      exact .keeps rfl rfl (fun _ => rfl) (fun _ => .inr ⟨rfl, hmarked⟩)
    · cases h
      exact .keeps rfl rfl (fun _ => rfl) (by simp [ExecutePc.reportsCancelled])
    · cases h
      exact .keeps rfl rfl (fun _ => rfl) (by simp [ExecutePc.reportsCancelled])
  | cleaning status =>
    simp only [executeNext] at h
    split_ifs at h
    · cases h
      exact .keeps rfl rfl (by simp [ExecutePc.isRegistered]) (by simp [ExecutePc.reportsCancelled])
    · cases h
      cases status with
      | none => exact .clears rfl rfl rfl rfl (by simp [ExecutePc.reportsCancelled])
      | some status =>
        refine .clears rfl rfl rfl rfl ?_
        cases status <;> simp [ExecutePc.reportsCancelled]
  | returned status | raised => cases h

omit [DecidableEq ι] in
/-- A `cancel` call only marks its task, when that has a process. -/
theorem cancelNext_effect {pc pc' : CancelPc ι} (h : cancelNext task c pc s = some (pc', s')) :
    s'.processes = s.processes ∧ (s'.cancelled = s.cancelled ∨ ∃ i, s.processes task = some i ∧
      s'.cancelled = insert task s.cancelled ∧ pc' = .terminating i .started) := by
  cases pc with
  | locking =>
    simp only [cancelNext] at h
    split_ifs at h
    · cases h
      exact ⟨rfl, .inl rfl⟩
    · split at h <;> cases h
      · exact ⟨rfl, .inl rfl⟩
      · exact ⟨rfl, .inr ⟨_, ‹_›, rfl, rfl⟩⟩
  | terminating i t =>
    simp only [cancelNext, Option.map_eq_some_iff] at h
    obtain ⟨t' | _ | _, _, h⟩ := h <;> cases h <;> exact ⟨rfl, .inl rfl⟩
  | returned | notRunning | raised => cases h

end

/-! ## Every run -/

section

variable {tasks : ι → TaskId} {targets : κ → TaskId} {s s' : RuntimeState ι κ}
  {a : RuntimeLabel ι κ} {as : List (RuntimeLabel ι κ)}

/-- What a step does to the entries: that of execution `i`, or the mark of a `cancel` call. -/
inductive StepEffect (tasks : ι → TaskId) (targets : κ → TaskId) (s : RuntimeState ι κ) :
    RuntimeLabel ι κ → RuntimeState ι κ → Prop
  | execute {i : ι} {c : RuntimeChoice} {s' : RuntimeState ι κ}
      (effect : ExecuteEffect (tasks i) i (s.executions i) s.toShared (s'.executions i) s'.toShared)
      (others : ∀ k, k ≠ i → s'.executions k = s.executions k) :
      StepEffect tasks targets s (.execute i c) s'
  | marks {j : κ} {c : RuntimeChoice} {i : ι} {s' : RuntimeState ι κ}
      (registered : s.processes (targets j) = some i) (processes : s'.processes = s.processes)
      (cancelled : s'.cancelled = insert (targets j) s.cancelled)
      (executions : s'.executions = s.executions)
      (terminates : s'.cancels j = .terminating i .started) :
      StepEffect tasks targets s (.cancel j c) s'
  | keeps {a : RuntimeLabel ι κ} {s' : RuntimeState ι κ} (processes : s'.processes = s.processes)
      (cancelled : s'.cancelled = s.cancelled) (executions : s'.executions = s.executions) :
      StepEffect tasks targets s a s'

theorem next_effect (h : next tasks targets s a = some s') :
    StepEffect tasks targets s a s' := by
  cases a with
  | execute i c =>
    simp only [next, Option.map_eq_some_iff] at h
    obtain ⟨⟨pc', shared⟩, hnext, rfl⟩ := h
    refine .execute ?_ fun k hk => Function.update_of_ne hk _ _
    simpa only [Function.update_self] using executeNext_effect hnext
  | cancel j c =>
    simp only [next, Option.map_eq_some_iff] at h
    obtain ⟨⟨pc', shared⟩, hnext, rfl⟩ := h
    obtain ⟨hprocesses, hcancelled | ⟨i, hregistered, hcancelled, rfl⟩⟩ := cancelNext_effect hnext
    · exact .keeps hprocesses hcancelled rfl
    · exact .marks hregistered hprocesses hcancelled rfl (Function.update_self ..)
  | exit i code =>
    simp only [next] at h
    split_ifs at h
    cases h
    exact .keeps rfl rfl rfl

/-- The entries are those of the registered executions, and only their tasks are marked. -/
structure Entries (tasks : ι → TaskId) (s : RuntimeState ι κ) : Prop where
  keys : ∀ task i, s.processes task = some i → tasks i = task
  held : ∀ i, (s.executions i).isRegistered → s.processes (tasks i) = some i
  marked : ∀ task ∈ s.cancelled, (s.processes task).isSome

omit [DecidableEq ι] [DecidableEq κ] in
theorem Entries.unique (h : Entries tasks s) {i k : ι} (hi : (s.executions i).isRegistered)
    (hk : (s.executions k).isRegistered) (htask : tasks i = tasks k) : i = k := by
  have hregistered := h.held i hi
  rw [htask, h.held k hk] at hregistered
  exact (Option.some.inj hregistered).symm

omit [DecidableEq κ] in
theorem Entries.step (h : Entries tasks s) (heffect : StepEffect tasks targets s a s') :
    Entries tasks s' := by
  cases heffect with
  | @execute i c s' effect others =>
    -- The other executions of the task are not registered when `i` takes or leaves the entry.
    have hheld : ∀ k, k ≠ i → (s'.executions k).isRegistered → s.processes (tasks k) = some k :=
      fun k hk hregistered => h.held k (others k hk ▸ hregistered)
    cases effect with
    | keeps processes cancelled registered =>
      refine ⟨?_, fun k hk => ?_, ?_⟩
      · rw [processes]
        exact h.keys
      · rw [processes]
        by_cases hki : k = i
        · subst hki
          exact h.held k (registered hk)
        · exact hheld k hki hk
      · rw [processes, cancelled]
        exact h.marked
    | registers free processes cancelled =>
      refine ⟨fun task k hk => ?_, fun k hk => ?_, fun task htask => ?_⟩
      · rw [processes, Function.update_apply] at hk
        split_ifs at hk with heq
        · cases hk
          exact heq.symm
        · exact h.keys task k hk
      · rw [processes, Function.update_apply]
        split_ifs with heq
        · by_cases hki : k = i
          · rw [hki]
          · have hsome := hheld k hki hk
            rw [heq, free] at hsome
            cases hsome
        · exact hheld k (fun hki => heq (congrArg tasks hki)) hk
      · rw [cancelled] at htask
        rw [processes, Function.update_apply]
        split_ifs
        · rfl
        · exact h.marked task htask
    | clears registered cleared processes cancelled =>
      refine ⟨fun task k hk => ?_, fun k hk => ?_, fun task htask => ?_⟩
      · rw [processes, Function.update_apply] at hk
        split_ifs at hk
        exact h.keys task k hk
      · by_cases hki : k = i
        · rw [hki, cleared] at hk
          cases hk
        · have hne : tasks k ≠ tasks i :=
            fun heq => hki (h.unique (others k hki ▸ hk) registered heq)
          rw [processes, Function.update_of_ne hne]
          exact hheld k hki hk
      · rw [cancelled, Finset.mem_erase] at htask
        rw [processes, Function.update_of_ne htask.1]
        exact h.marked task htask.2
  | @marks j c i s' registered processes cancelled executions =>
    refine ⟨?_, ?_, fun task htask => ?_⟩
    · rw [processes]
      exact h.keys
    · rw [processes, executions]
      exact h.held
    · rw [processes]
      rw [cancelled, Finset.mem_insert] at htask
      rcases htask with rfl | htask
      · rw [registered]
        rfl
      · exact h.marked task htask
  | keeps processes cancelled executions =>
    refine ⟨?_, ?_, ?_⟩
    · rw [processes]
      exact h.keys
    · rw [processes, executions]
      exact h.held
    · rw [processes, cancelled]
      exact h.marked

theorem entries_invariant : (system tasks targets).Invariant (Entries (κ := κ) tasks) where
  init s h := by
    refine ⟨fun task i hi => ?_, fun i hi => ?_, fun task htask => ?_⟩
    · rw [h.processes] at hi
      cases hi
    · rw [h.executions] at hi
      cases hi
    · rw [h.cancelled] at htask
      cases htask
  step s a s' hs hst := hs.step (next_effect hst)

/-- A `cancel` call for the task of execution `i` marks it. -/
structure Marks (tasks : ι → TaskId) (targets : κ → TaskId) (i : ι) (j : κ)
    (s s' : RuntimeState ι κ) : Prop where
  target : targets j = tasks i
  registered : (s.executions i).isRegistered
  held : s.processes (tasks i) = some i
  unmarked : tasks i ∉ s.cancelled
  marked : tasks i ∈ s'.cancelled
  terminates : s'.cancels j = .terminating i .started

/-- What an execution needs to report `cancelled`. -/
def Doomed (tasks : ι → TaskId) (i : ι) (s : RuntimeState ι κ) : Prop :=
  (s.executions i).reportsCancelled ∨ (s.executions i).isRegistered ∧ tasks i ∈ s.cancelled

omit [DecidableEq κ] in
/-- Only a mark dooms an execution. -/
theorem Doomed.entry {i : ι} (h : Entries tasks s) (heffect : StepEffect tasks targets s a s')
    (hbefore : ¬ Doomed tasks i s) (hafter : Doomed tasks i s') :
    ∃ j c, a = .cancel j c ∧ Marks tasks targets i j s s' := by
  cases heffect with
  | @execute k c s' effect others =>
    have hcancelled : ∀ task ∈ s'.cancelled, task ∈ s.cancelled := by
      cases effect with
      | keeps processes cancelled | registers free processes cancelled =>
        rw [cancelled]
        exact fun _ htask => htask
      | clears registered cleared processes cancelled =>
        rw [cancelled]
        exact fun _ htask => Finset.mem_of_mem_erase htask
    by_cases hik : i = k
    · subst hik
      cases effect with
      | keeps processes cancelled registered reports =>
        rcases hafter with hreports | ⟨hregistered, hmarked⟩
        · exact absurd (reports hreports) hbefore
        · exact absurd (.inr ⟨registered hregistered, hcancelled _ hmarked⟩) hbefore
      | registers free processes cancelled reports =>
        rcases hafter with hreports | ⟨_, hmarked⟩
        · rw [reports] at hreports
          cases hreports
        · have hsome := h.marked _ (hcancelled _ hmarked)
          rw [free] at hsome
          cases hsome
      | clears registered cleared processes cancelled reports =>
        rcases hafter with hreports | ⟨hregistered, _⟩
        · exact absurd (.inl (reports hreports)) hbefore
        · rw [cleared] at hregistered
          cases hregistered
    · rw [Doomed, others i hik] at hafter
      exact absurd (hafter.imp_right fun hmarked => ⟨hmarked.1, hcancelled _ hmarked.2⟩) hbefore
  | @marks j c k s' registered processes cancelled executions terminates =>
    rw [Doomed, executions] at hafter
    rcases hafter with hreports | ⟨hregistered, hmarked⟩
    · exact absurd (.inl hreports) hbefore
    have hunmarked : tasks i ∉ s.cancelled := fun hmem => hbefore (.inr ⟨hregistered, hmem⟩)
    have htarget : targets j = tasks i := by
      rw [cancelled, Finset.mem_insert] at hmarked
      exact (hmarked.resolve_right hunmarked).symm
    have hheld := h.held i hregistered
    obtain rfl : k = i := by
      rw [htarget, hheld] at registered
      exact (Option.some.inj registered).symm
    exact ⟨j, c, rfl, htarget, hregistered, hheld, hunmarked, hmarked, terminates⟩
  | keeps processes cancelled executions =>
    rw [Doomed, executions, cancelled] at hafter
    exact absurd hafter hbefore

omit [DecidableEq ι] [DecidableEq κ] in
/-- A step changes an entry only to register the execution that takes it, or to remove the execution
that takes it. -/
theorem StepEffect.processes_or (h : Entries tasks s) (heffect : StepEffect tasks targets s a s')
    (task : TaskId) : s'.processes task = s.processes task ∨ ∃ i c, a = .execute i c ∧
      tasks i = task ∧ (s.processes task = none ∧ s'.processes task = some i ∨
        s.processes task = some i ∧ s'.processes task = none) := by
  cases heffect with
  | @execute i c s' effect =>
    by_cases htask : tasks i = task
    · subst htask
      cases effect with
      | keeps processes => exact .inl (congrFun processes _)
      | registers free processes =>
        have hafter := congrFun processes (tasks i)
        rw [Function.update_self] at hafter
        exact .inr ⟨i, c, rfl, rfl, .inl ⟨free, hafter⟩⟩
      | clears registered cleared processes =>
        have hafter := congrFun processes (tasks i)
        rw [Function.update_self] at hafter
        exact .inr ⟨i, c, rfl, rfl, .inr ⟨h.held i registered, hafter⟩⟩
    · refine .inl ?_
      cases effect with
      | keeps processes => exact congrFun processes _
      | registers free processes | clears registered cleared processes =>
        rw [processes, Function.update_of_ne (Ne.symm htask)]
  | marks registered processes | keeps processes => exact .inl (congrFun processes _)

/-- At every moment the marked tasks have a process, the executions between registration and cleanup
hold the entries of their tasks, and the next step only takes or leaves an entry for the execution
that makes it. An execution that reports `cancelled` was marked while it held the entry. -/
theorem entries_held {s₀ : RuntimeState ι κ} (hinit : Initial s₀)
    (hr : (system tasks targets).Run s₀ as s) :
    (∀ task ∈ s.cancelled, (s.processes task).isSome) ∧
    (∀ i, (s.executions i).isRegistered → s.processes (tasks i) = some i) ∧
    (∀ i k, (s.executions i).isRegistered → (s.executions k).isRegistered → tasks i = tasks k →
      i = k) ∧
    (∀ a s', (system tasks targets).step s a s' → ∀ task, s'.processes task = s.processes task ∨
      ∃ i c, a = .execute i c ∧ tasks i = task ∧
        (s.processes task = none ∧ s'.processes task = some i ∨
          s.processes task = some i ∧ s'.processes task = none)) ∧
    ∀ i, (s.executions i).reportsCancelled → ∃ as₁ j c as₂ u v, as = as₁ ++ .cancel j c :: as₂ ∧
      (system tasks targets).Run s₀ as₁ u ∧ (system tasks targets).step u (.cancel j c) v ∧
      (system tasks targets).Run v as₂ s ∧ Marks tasks targets i j u v := by
  have hentries : ∀ {bs : List (RuntimeLabel ι κ)} {u : RuntimeState ι κ},
      (system tasks targets).Run s₀ bs u → Entries tasks u :=
    fun hrun => entries_invariant.reachable ⟨s₀, _, hinit, hrun⟩
  have hs := hentries hr
  refine ⟨hs.marked, hs.held, fun i k => hs.unique,
    fun a s' hst => (next_effect hst).processes_or hs, fun i hreports => ?_⟩
  have hbefore : ¬ Doomed tasks i s₀ := by
    rw [Doomed, hinit.executions]
    simp [ExecutePc.reportsCancelled, ExecutePc.isRegistered]
  obtain ⟨as₁, a, as₂, u, v, rfl, hbs, hst, hcs, hu, hv⟩ :=
    hr.exists_entry hbefore (.inl hreports)
  obtain ⟨j, c, rfl, hmarks⟩ := Doomed.entry (hentries hbs) (next_effect hst) hu hv
  exact ⟨as₁, j, c, as₂, u, v, rfl, hbs, hst, hcs, hmarks⟩

end

/-! ## A cancelled execution -/

namespace Sample

/-- Nothing runs yet. -/
def idle : RuntimeState Bool Unit where
  processes := fun _ => none
  cancelled := ∅
  lock := none
  returncode := fun _ => none
  executions := fun _ => .creating
  cancels := fun _ => .locking

/-- Two executions of one task, of which the second is rejected, and a `cancel` call. -/
def duplicateCancelled : List (RuntimeLabel Bool Unit) :=
  [.execute false {}, .execute true {}, .execute false {}, .execute true {}, .execute true {},
    .exit true (-15), .execute true {}, .execute false {}, .cancel () {}, .cancel () {},
    .exit false (-15), .cancel () {}, .execute false {}, .execute false {}, .execute false {},
    .execute false {}]

/-- All of them are about one task. -/
def sameTask (ι : Type) : ι → TaskId := fun _ => AIHub.Sample.taskId

def afterCancel : RuntimeState Bool Unit :=
  System.execD (next (sameTask Bool) (sameTask Unit)) idle duplicateCancelled

end Sample

open Sample in
theorem entries_held_sample :
    let M := system (sameTask Bool) (sameTask Unit)
    ∃ as₁ j c as₂ u v, duplicateCancelled = as₁ ++ .cancel j c :: as₂ ∧ M.Run idle as₁ u ∧
      M.step u (.cancel j c) v ∧ M.Run v as₂ afterCancel ∧
      Marks (sameTask Bool) (sameTask Unit) false j u v := by
  intro M
  have hinit : Initial idle :=
    ⟨fun _ => rfl, rfl, rfl, fun _ => rfl, fun _ => rfl, fun _ => rfl⟩
  have hr : M.Run idle duplicateCancelled afterCancel := System.run_execD (by decide +kernel)
  exact (entries_held hinit hr).2.2.2.2 false (by decide +kernel)

end AIHub.CodexRuntime
