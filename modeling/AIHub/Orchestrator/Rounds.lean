import AIHub.Orchestrator.Attempts
import AIHub.Orchestrator.Quiet
import AIHub.Storage.ListingOrder
import Mathlib.Algebra.Order.BigOperators.Group.List
import Mathlib.Data.Finset.Card

/-!
# Rounds of the queue

`run_once` lists the first tasks of the queue and gathers a call of `process_task` for each of them.
The calls run side by side, at most as many at a time as the semaphore has places. The first
exception of a call ends `run_once`, and the other calls go on by themselves, beside those of the
next rounds; so a task may have several calls. Meanwhile others write to the store, and the process
may crash and start again.

Tasks are listed by their keys, the texts of their creation times and their ids. What matters to a
task are the queued tasks up to its own key (`ahead`). A round that is completed takes away as many
of them as there are places, or all.

* `leaves_queue`: a task with `p` queued tasks up to its key has left the queue when
  `p / max_concurrent_tasks` rounds, rounded up, are completed, whatever is queued behind it. There
  are two conditions: nobody else queues a task up to its key, and the steps in which a call reads
  and plans its task do not fail, by an error of the store or a clock behind the task's times.
* `calls_end`: the calls end after a bounded number of steps, and as long as one has not ended,
  one can take a step; so no call waits for the semaphore forever.
-/

namespace AIHub

open Transition

/-! ## The rounds -/

/-- A call of `process_task`. -/
structure ProcessCall where
  taskId : TaskId
  pc : ProcessPc

structure RoundsState where
  store : Store
  /-- The free places of the semaphore. -/
  permits : Nat
  /-- The calls of all rounds, in the order in which they were made. -/
  calls : List ProcessCall
  /-- Inside `run_once`, the number of calls that were made before. -/
  round : Option Nat
  /-- The calls of `run_once` that have returned. -/
  completed : Nat

inductive RoundsLabel where
  | lists
  | processes (n : Nat) (c : Choice)
  | returns
  | raises
  /-- Another writer of the store. -/
  | writes (op : WriteOp)
  /-- A crash, and the start of the next process. -/
  | restarts

def ProcessPc.hasReturned : ProcessPc → Bool
  | .done (.returned _) => true
  | _ => false

def ProcessPc.hasRaised : ProcessPc → Bool
  | .done .raised => true
  | _ => false

namespace Orchestrator

variable (o : Orchestrator)

/-- Take the call past one await, `async with self._semaphore` among them. -/
def callNext (c : Choice) (call : ProcessCall) (s : RoundsState) :
    Option (ProcessPc × Nat × Store) :=
  match call.pc with
  | .waiting => if s.permits = 0 then none else some (.gettingTask, s.permits - 1, s.store)
  | pc => (processNext o call.taskId c pc s.store).map fun r =>
    (r.1, if r.1.isDone then s.permits + 1 else s.permits, r.2)

def roundsNext (s : RoundsState) : RoundsLabel → Option RoundsState
  | .lists =>
    match s.round, s.store.listQueuedTasks o.maxConcurrentTasks with
    | none, .ok tasks => some { s with
        calls := s.calls ++ tasks.map fun task => ⟨task.taskId, .waiting⟩
        round := some s.calls.length }
    | _, _ => none
  | .processes n c => s.calls[n]?.bind fun call => (o.callNext c call s).map fun r => { s with
      store := r.2.2
      permits := r.2.1
      calls := s.calls.set n ⟨call.taskId, r.1⟩ }
  | .returns => s.round.bind fun start =>
    if ∀ call ∈ s.calls.drop start, call.pc.hasReturned = true then
      some { s with round := none, completed := s.completed + 1 }
    else none
  | .raises => s.round.bind fun start =>
    -- `gather` does not wait for the other calls
    if ∃ call ∈ s.calls.drop start, call.pc.hasRaised = true then some { s with round := none }
    else none
  | .writes op =>
    if op.FreshUuids s.store then some { s with store := op.after s.store } else none
  | .restarts => some { s with permits := o.maxConcurrentTasks, calls := [], round := none }

/-- Rounds on any store that write operations have made. -/
def rounds : System RoundsState RoundsLabel :=
  .ofNext (fun s => storeSystem.Reachable s.store ∧ s.permits = o.maxConcurrentTasks ∧
    s.calls = [] ∧ s.round = none) o.roundsNext

end Orchestrator

/-! ## Tasks and their identities -/

/-- What no operation changes of a task, as far as its place in the queue and its events go. -/
def Task.identity (task : Task) : TaskId × Timestamp × Identifier × Identifier :=
  (task.taskId, task.createdAt, task.project, task.team)

theorem Task.listingKey_of_identity {a b : Task} (h : a.identity = b.identity) :
    a.listingKey = b.listingKey := by
  simp only [identity, Prod.mk.injEq] at h
  rw [listingKey, listingKey, h.1, h.2.1]

theorem LifecycleEvent.of_identity {a b : Task} {target : TaskStatus} {event : EventEnvelope}
    (h : LifecycleEvent a target event) (hsame : a.identity = b.identity) :
    LifecycleEvent b target event := by
  simp only [Task.identity, Prod.mk.injEq] at hsame
  obtain ⟨hid, -, hproject, hteam⟩ := hsame
  exact ⟨h.type, hid ▸ h.taskId, hproject ▸ h.project, hteam ▸ h.team, h.status⟩

theorem History.Step.identity {id : TaskId} {event : EventEnvelope} {write : TaskWrite}
    {h h' : History} (hstep : History.Step id event write h h') {row : TaskRow}
    (hrow : h.row = some row) :
    ∃ row', h'.row = some row' ∧ row'.taskJson.identity = row.taskJson.identity ∧
      (row'.taskJson.status = row.taskJson.status ∨ write = .move row'.taskJson.status) := by
  cases hstep with
  | append row events =>
    cases hrow
    exact ⟨row, rfl, rfl, .inl rfl⟩
  | create => cases hrow
  | move row events target updated _ _ hmoved =>
    cases hrow
    have hfields := (transitionTask_ok hmoved).2.2.2
    refine ⟨_, rfl, ?_, .inr ?_⟩
    · simp [Task.identity, TaskRow.moved, hfields, TaskFields.moved]
    · simp [TaskRow.moved, hfields, TaskFields.moved]
  | assign row events agent updated _ _ _ _ _ _ _ _ hassigned =>
    cases hrow
    refine ⟨_, rfl, ?_, .inl ?_⟩
    · simp [Task.identity, TaskRow.assigned, hassigned]
    · simp [TaskRow.assigned, hassigned]

section

variable {s s' : Store} {op : WriteOp} {taskId : TaskId} {key : Lex (String × String)}

theorem Store.task?_history (s : Store) (taskId : TaskId) :
    s.task? taskId = (s.history taskId).row.map TaskRow.taskJson := s.task?_eq taskId

/-- A task stays what it is, and is queued only by an operation that queues tasks. -/
theorem task_after (hc : s.Coherent) (hfresh : op.FreshUuids s) {task : Task}
    (htask : s.task? taskId = some task) :
    ∃ task', (op.after s).task? taskId = some task' ∧ task'.identity = task.identity ∧
      (op.isQuiet = true → task'.status = .queued → task.status = .queued) := by
  rw [Store.task?_history] at htask
  obtain ⟨row, hrow, rfl⟩ := Option.map_eq_some_iff.1 htask
  rcases WriteOp.after_eq (rfl : op.after s = op.after s) with hexec | hsame
  swap
  · rw [hsame, Store.task?_history]
    exact ⟨row.taskJson, by rw [hrow]; rfl, rfl, fun _ h => h⟩
  have hstep : ∃ row', ((op.after s).history taskId).row = some row' ∧
      row'.taskJson.identity = row.taskJson.identity ∧
      (op.isQuiet = true → row'.taskJson.status = .queued → row.taskJson.status = .queued) := by
    cases (WriteOp.exec_history hc hfresh hexec).2 taskId with
    | same hsame => exact ⟨row, by rw [hsame, hrow], rfl, fun _ h => h⟩
    | one write event hmem _ hstep =>
      obtain ⟨row', hrow', hidentity, hstatus⟩ := hstep.identity hrow
      refine ⟨row', hrow', hidentity, fun hquiet hqueued => ?_⟩
      obtain hsame | hmove := hstatus
      · rw [← hsame, hqueued]
      · rw [hqueued] at hmove
        exact absurd hmove (WriteOp.quiet_writes hquiet hmem).2
    | queued task created queued _ _ _ _ _ hfirst =>
      -- there was no task before
      generalize s.history taskId = h at hfirst hrow
      cases hfirst
      cases hrow
  obtain ⟨row', hrow', hidentity, hquiet⟩ := hstep
  refine ⟨row'.taskJson, ?_, hidentity, hquiet⟩
  rw [Store.task?_history, hrow']
  rfl

/-! ## The tasks ahead -/

/-- The queued tasks up to a key. -/
def Store.ahead (s : Store) (key : Lex (String × String)) : Finset TaskId :=
  ((s.queuedTasks.filter fun task => task.listingKey ≤ key).map fun task =>
    task.taskId).toFinset

theorem Store.task?_of_mem (hc : s.Coherent) {row : TaskRow} (hrow : row ∈ s.tasks) :
    s.task? row.taskJson.taskId = some row.taskJson := by
  have hget : s.tasks.get? row.key = some row := Table.get?_of_mem hrow
  rw [Store.task?_eq, ← hc.key_eq hget, hget]
  rfl

theorem Store.mem_ahead (hc : s.Coherent) : taskId ∈ s.ahead key ↔
    ∃ task, s.task? taskId = some task ∧ task.status = .queued ∧ task.listingKey ≤ key := by
  rw [ahead, List.mem_toFinset, List.mem_map]
  constructor
  · rintro ⟨task, htask, rfl⟩
    obtain ⟨hqueued, hkey⟩ := List.mem_filter.1 htask
    obtain ⟨row, hrow, rfl⟩ := mem_queuedTasks hqueued
    exact ⟨_, task?_of_mem hc hrow, of_decide_eq_true (List.mem_filter.1 hqueued).2,
      of_decide_eq_true hkey⟩
  · rintro ⟨task, htask, hqueued, hkey⟩
    refine ⟨task, List.mem_filter.2 ⟨List.mem_filter.2 ⟨?_, decide_eq_true hqueued⟩,
      decide_eq_true hkey⟩, hc.taskId_eq htask⟩
    rw [Store.task?_eq] at htask
    obtain ⟨row, hrow, rfl⟩ := Option.map_eq_some_iff.1 htask
    exact List.mem_map.2 ⟨row, (Table.get?_eq_some.1 hrow).1, rfl⟩

/-- The tasks of `s` are in `s'`, and no task is queued up to the key that was not. -/
structure Store.Follows (key : Lex (String × String)) (s s' : Store) : Prop where
  found : ∀ taskId task, s.task? taskId = some task →
    ∃ task', s'.task? taskId = some task' ∧ task'.identity = task.identity
  ahead : s'.ahead key ⊆ s.ahead key

theorem Store.Follows.refl (key : Lex (String × String)) (s : Store) : s.Follows key s :=
  ⟨fun _ task htask => ⟨task, htask, rfl⟩, fun _ h => h⟩

/-- The tasks after a quiet operation were there before. -/
theorem task_before (hc : s.Coherent) (hfresh : op.FreshUuids s) (hquiet : op.isQuiet = true)
    {task' : Task} (htask' : (op.after s).task? taskId = some task') :
    ∃ task, s.task? taskId = some task := by
  rcases WriteOp.after_eq (rfl : op.after s = op.after s) with hexec | hsame
  swap
  · exact ⟨task', hsame ▸ htask'⟩
  have hrow : ∃ row, (s.history taskId).row = some row := by
    rw [Store.task?_history] at htask'
    obtain ⟨row', hrow', -⟩ := Option.map_eq_some_iff.1 htask'
    cases (WriteOp.exec_history hc hfresh hexec).2 taskId with
    | same hsame => exact ⟨row', hsame ▸ hrow'⟩
    | one write event hmem _ hstep =>
      generalize s.history taskId = before at hstep
      generalize (op.after s).history taskId = after at hstep
      cases hstep with
      | append row | move row | assign row => exact ⟨row, rfl⟩
      | create task => exact absurd rfl ((WriteOp.quiet_writes hquiet hmem).1 task)
    | queued task created queued hmem =>
      exact absurd rfl ((WriteOp.quiet_writes hquiet hmem).1 task)
  obtain ⟨row, hrow⟩ := hrow
  exact ⟨row.taskJson, by rw [Store.task?_history, hrow]; rfl⟩

theorem follows_quiet (hc : s.Coherent) (hfresh : op.FreshUuids s) (hquiet : op.isQuiet = true) :
    s.Follows key (op.after s) where
  found taskId task htask := by
    obtain ⟨task', htask', hidentity, -⟩ := task_after hc hfresh htask
    exact ⟨task', htask', hidentity⟩
  ahead taskId h := by
    obtain ⟨task', htask', hqueued, hkey⟩ := (Store.mem_ahead (coherent_after hc hfresh)).1 h
    obtain ⟨task, htask⟩ := task_before hc hfresh hquiet htask'
    obtain ⟨_, hafter, hidentity, hsame⟩ := task_after hc hfresh htask
    obtain rfl := Option.some.inj (htask'.symm.trans hafter)
    exact (Store.mem_ahead hc).2 ⟨task, htask, hsame hquiet hqueued,
      Task.listingKey_of_identity hidentity ▸ hkey⟩

theorem follows_processNext {o : Orchestrator} {c : Choice} {pc pc' : ProcessPc} (hc : s.Coherent)
    (h : processNext o taskId c pc s = some (pc', s')) : s.Follows key s' := by
  obtain rfl | ⟨op, hquiet, hfresh, hexec⟩ := processNext_quietly h
  · exact .refl key _
  · have hafter : op.after s = s' := by rw [WriteOp.after, hexec]
    exact hafter ▸ follows_quiet hc hfresh hquiet

/-- Nobody else queues tasks up to the key. -/
def WriteOp.QueuesBehind (key : Lex (String × String)) (s : Store) (op : WriteOp) : Prop :=
  (op.after s).ahead key ⊆ s.ahead key

theorem WriteOp.QueuesBehind.follows (h : op.QueuesBehind key s) (hc : s.Coherent)
    (hfresh : op.FreshUuids s) : s.Follows key (op.after s) where
  found taskId task htask := by
    obtain ⟨task', htask', hidentity, -⟩ := task_after hc hfresh htask
    exact ⟨task', htask', hidentity⟩
  ahead := h

/-! ## Calls that are due -/

/-- Where a call stands whose task is still queued. -/
def ProcessPc.Due (taskId : TaskId) (s : Store) : ProcessPc → Prop
  | waiting | gettingTask => True
  | gotTask task => task.status = .queued ∧
    ∃ stored, s.task? taskId = some stored ∧ task.identity = stored.identity
  | planning _ event => s.Accepts taskId .planning event
  | _ => False

/-- The call fails to read or to plan its task. -/
def ProcessPc.Misses (taskId : TaskId) (c : Choice) (s : Store) : ProcessPc → Prop
  | gettingTask => c.fault = true
  | planning _ event => c.fault = true ∨ s.isAfter taskId event = true
  | _ => False

instance (taskId : TaskId) (c : Choice) (s : Store) (pc : ProcessPc) :
    Decidable (pc.Misses taskId c s) := by
  induction pc using ProcessPc.casesOn with
  | gettingTask => exact inferInstanceAs (Decidable (c.fault = true))
  | planning task event => exact inferInstanceAs (Decidable (_ ∨ _))
  | _ => exact instDecidableFalse

/-- A call stays due as long as its task is queued. -/
theorem ProcessPc.Due.follows {pc : ProcessPc} (h : pc.Due taskId s) (hfollows : s.Follows key s')
    (hc' : s'.Coherent) (hahead : taskId ∈ s'.ahead key) : pc.Due taskId s' := by
  cases pc with
  | waiting | gettingTask => trivial
  | gotTask task =>
    obtain ⟨hqueued, stored, hstored, hidentity⟩ := h
    obtain ⟨stored', hstored', hidentity'⟩ := hfollows.found taskId stored hstored
    exact ⟨hqueued, stored', hstored', hidentity.trans hidentity'.symm⟩
  | planning task event =>
    obtain ⟨stored, hstored, -, hlife⟩ := h
    obtain ⟨stored', hstored', hidentity⟩ := hfollows.found taskId stored hstored
    obtain ⟨queued, hfound, hqueued, -⟩ := (Store.mem_ahead hc').1 hahead
    obtain rfl := Option.some.inj (hstored'.symm.trans hfound)
    refine ⟨stored', hstored', ?_, hlife.of_identity hidentity.symm⟩
    rw [hqueued]
    decide
  | _ => exact h.elim

/-- A step of a call that is due leaves it due, or its task is not queued any more. -/
theorem due_processNext {o : Orchestrator} {c : Choice} {pc pc' : ProcessPc} (hc : s.Coherent)
    (hn : pc.Named taskId) (hdue : taskId ∈ s.ahead key → pc.Due taskId s)
    (hserved : ¬ pc.Misses taskId c s)
    (h : processNext o taskId c pc s = some (pc', s')) (hc' : s'.Coherent)
    (hahead : taskId ∈ s'.ahead key) : pc'.Due taskId s' := by
  have hbefore : taskId ∈ s.ahead key := (follows_processNext hc h).ahead hahead
  have hdue := hdue hbefore
  obtain ⟨stored, hstored, hqueued, -⟩ := (Store.mem_ahead hc).1 hbefore
  cases pc with
  | waiting | done => simp [processNext] at h
  | gettingTask =>
    have hfault : c.fault = false := Bool.eq_false_iff.2 hserved
    simp only [processNext, readTask_stored hstored hfault] at h
    cases h
    exact ⟨hqueued, stored, hstored, rfl⟩
  | gotTask task =>
    obtain ⟨hsnapshot, stored, hstored, hidentity⟩ := hdue
    have hpayload : findForbiddenPayloadKey
        (JsonObject.set "status" (.string TaskStatus.planning.value) []) = none := by decide
    obtain ⟨event, hevent, hlife, -⟩ := o.transitionEvent_ok c task none .info hpayload
    simp only [processNext, hsnapshot, hevent] at h
    cases h
    refine ⟨stored, hstored, ?_, hlife.of_identity hidentity⟩
    obtain ⟨queued, hfound, hqueued, -⟩ := (Store.mem_ahead hc).1 hbefore
    obtain rfl := Option.some.inj (hstored.symm.trans hfound)
    rw [hqueued]
    decide
  | planning task event =>
    obtain ⟨hfault, hafter⟩ := not_or.1 hserved
    obtain rfl : task.taskId = taskId := hn task (by simp [ProcessPc.tasks])
    simp only [processNext, Option.map_eq_some_iff] at h
    obtain ⟨_ | ⟨after, s₁⟩, hcommit, h⟩ := h <;> cases h
    · exact absurd ((hdue.refused hc (Bool.eq_false_iff.2 hfault) hcommit).1 rfl) hafter
    · -- the task is being planned
      obtain ⟨before, hchange⟩ := commit_transition hc hcommit
      obtain ⟨queued, hfound, hqueued, -⟩ := (Store.mem_ahead hc').1 hahead
      obtain rfl := Option.some.inj (hchange.left.symm.trans hfound)
      rw [hchange.status_eq] at hqueued
      cases hqueued
  | _ => exact hdue.elim

/-! ## What a listing takes -/

/-- A listing leaves as many tasks less up to the key as it has places, or none. -/
theorem listed_ahead (key : Lex (String × String)) (hm : s.Mirrored) {limit : Nat}
    {tasks : List Task}
    (h : s.listQueuedTasks limit = .ok tasks) : ∃ rest : Finset TaskId,
      rest.card ≤ (s.ahead key).card - limit ∧
      ∀ taskId ∈ s.ahead key, taskId ∈ rest ∨ ∃ task ∈ tasks, task.taskId = taskId := by
  have hlimit : 1 ≤ (limit : Int) ∧ (limit : Int) ≤ 1000 := by
    simp only [Store.listQueuedTasks, bind_eq_ok, raiseIf_eq_ok, not_not] at h
    exact h.choose_spec.1
  rw [Store.listQueuedTasks_eq hm hlimit, Except.ok.injEq, Int.toNat_natCast] at h
  have hids := List.pairwise_map.1 (Store.nodup_queuedTasks hm)
  have hkeys : (s.queuedTasks.map Task.listingKey).Nodup := List.pairwise_map.2
    (hids.imp fun hne heq => hne (congrArg (fun key => (ofLex key).2) heq))
  let sorted := s.queuedTasks.sortedBy Task.listingKey
  have hperm : (sorted.filter fun task => task.listingKey ≤ key).Perm
      (s.queuedTasks.filter fun task => task.listingKey ≤ key) :=
    (s.queuedTasks.sortedBy_perm Task.listingKey).filter _
  have hcard : (s.ahead key).card =
      (sorted.filter fun task => task.listingKey ≤ key).length := by
    rw [Store.ahead, List.toFinset_card_of_nodup, List.length_map, hperm.length_eq]
    exact List.pairwise_map.2 ((hids.sublist List.filter_sublist).imp
      fun hne heq => hne (congrArg Constrained.val heq))
  refine ⟨(((sorted.drop limit).filter fun task => task.listingKey ≤ key).map fun task =>
    task.taskId).toFinset, ?_, fun taskId htaskId => ?_⟩
  · refine (List.toFinset_card_le _).trans ?_
    rw [List.length_map, hcard]
    exact List.length_filter_drop_le (List.sortedBy_pairwise hkeys) key limit
  · rw [Store.ahead, List.mem_toFinset, List.mem_map] at htaskId
    obtain ⟨task, htask, rfl⟩ := htaskId
    obtain ⟨hmem, hkey⟩ := List.mem_filter.1 (hperm.mem_iff.2 htask)
    rw [← List.take_append_drop limit sorted, List.mem_append] at hmem
    obtain hfirst | hlater := hmem
    · exact .inr ⟨task, h ▸ hfirst, rfl⟩
    · refine .inl (List.mem_toFinset.2 (List.mem_map.2 ⟨task, ?_, rfl⟩))
      exact List.mem_filter.2 ⟨hlater, hkey⟩

end

/-! ## One step of the rounds -/

section

variable {o : Orchestrator} {key : Lex (String × String)} {s t first : RoundsState}
  {a : RoundsLabel}

/-- A call enters the semaphore or passes one await. -/
theorem callNext_some {c : Choice} {call : ProcessCall} {pc : ProcessPc} {permits : Nat}
    {store : Store} (h : o.callNext c call s = some (pc, permits, store)) :
    (call.pc = .waiting ∧ pc = .gettingTask ∧ store = s.store) ∨
      processNext o call.taskId c call.pc s.store = some (pc, store) := by
  unfold Orchestrator.callNext at h
  split at h
  · split_ifs at h
    cases h
    exact .inl ⟨‹_›, rfl, rfl⟩
  · obtain ⟨⟨pc', store'⟩, hnext, hr⟩ := Option.map_eq_some_iff.1 h
    cases hr
    exact .inr hnext

theorem processes_some {n : Nat} {c : Choice} (h : o.roundsNext s (.processes n c) = some t) :
    ∃ call pc permits store, s.calls[n]? = some call ∧
      o.callNext c call s = some (pc, permits, store) ∧
      t = { s with store, permits, calls := s.calls.set n ⟨call.taskId, pc⟩ } := by
  obtain ⟨call, hcall, h⟩ := Option.bind_eq_some_iff.1 h
  obtain ⟨⟨pc, permits, store⟩, hnext, rfl⟩ := Option.map_eq_some_iff.1 h
  exact ⟨call, pc, permits, store, hcall, hnext, rfl⟩

/-- The store is one that write operations make, and the calls hold their own tasks. -/
structure RoundsState.Sound (s : RoundsState) : Prop where
  store : storeSystem.Reachable s.store
  named : ∀ call ∈ s.calls, call.pc.Named call.taskId

theorem RoundsState.Sound.coherent (hs : s.Sound) : s.store.Coherent :=
  storeSystem_coherent hs.store

theorem RoundsState.Sound.mirrored (hs : s.Sound) : s.store.Mirrored :=
  writeSystem_mirrored (writeSystem_of_storeSystem hs.store)

theorem quietly_reachable {before store : Store} (hs : storeSystem.Reachable before)
    (h : before.WritesQuietly store) : storeSystem.Reachable store := by
  obtain rfl | ⟨op, -, hfresh, hexec⟩ := h
  · exact hs
  · have hafter : op.after before = store := by rw [WriteOp.after, hexec]
    exact hafter ▸ storeSystem_after hs hfresh

theorem RoundsState.Sound.step (hs : s.Sound) (h : o.roundsNext s a = some t) : t.Sound := by
  cases a with
  | lists =>
    simp only [Orchestrator.roundsNext] at h
    split at h <;> cases h
    refine ⟨hs.store, fun call hcall => ?_⟩
    rcases List.mem_append.1 hcall with hold | hnew
    · exact hs.named call hold
    · obtain ⟨task, -, rfl⟩ := List.mem_map.1 hnew
      exact named_of_nil rfl
  | processes n c =>
    obtain ⟨call, pc, permits, store, hcall, hnext, rfl⟩ := processes_some h
    have hn := hs.named call (List.mem_of_getElem? hcall)
    have hstep : storeSystem.Reachable store ∧ pc.Named call.taskId := by
      obtain ⟨-, rfl, rfl⟩ | hnext := callNext_some hnext
      · exact ⟨hs.store, named_of_nil rfl⟩
      · exact ⟨quietly_reachable hs.store (processNext_quietly hnext),
          (processNext_task hs.coherent hn hnext).2⟩
    refine ⟨hstep.1, fun other hother => ?_⟩
    rcases List.mem_or_eq_of_mem_set hother with hold | rfl
    · exact hs.named other hold
    · exact hstep.2
  | returns | raises =>
    obtain ⟨start, -, h⟩ := Option.bind_eq_some_iff.1 h
    split_ifs at h
    cases h
    exact ⟨hs.store, hs.named⟩
  | writes op =>
    simp only [Orchestrator.roundsNext] at h
    split_ifs at h with hfresh
    cases h
    exact ⟨storeSystem_after hs.store hfresh, hs.named⟩
  | restarts =>
    cases h
    exact ⟨hs.store, fun call hcall => by cases hcall⟩

theorem rounds_sound (h : o.rounds.Reachable s) : s.Sound := by
  have hI : o.rounds.Invariant RoundsState.Sound := {
    init := fun s hs => ⟨hs.1, fun call hcall => by rw [hs.2.2.1] at hcall; cases hcall⟩
    step := fun s a t hs hst => hs.step hst }
  exact hI.reachable h

/-! ## What a round takes -/

/-- Calls do not fail to read or to plan their tasks, and nobody else queues tasks up to the
key. -/
def ServesQueue (key : Lex (String × String)) (s : RoundsState) : RoundsLabel → Prop
  | .processes n c => ∀ call ∈ s.calls[n]?, ¬ call.pc.Misses call.taskId c s.store
  | .writes op => op.QueuesBehind key s.store
  | .lists | .returns | .raises | .restarts => True

instance (key : Lex (String × String)) (s : RoundsState) (a : RoundsLabel) :
    Decidable (ServesQueue key s a) := by
  unfold ServesQueue WriteOp.QueuesBehind
  split <;> infer_instance

/-- Of the queued tasks up to the key, at most `left` have no call of the round, and the calls whose
tasks are still queued are due. -/
structure Round (key : Lex (String × String)) (left start : Nat) (s : RoundsState) : Prop where
  rest : ∃ rest : Finset TaskId, rest.card ≤ left ∧ ∀ taskId ∈ s.store.ahead key,
    taskId ∈ rest ∨ taskId ∈ (s.calls.drop start).map ProcessCall.taskId
  due : ∀ call ∈ s.calls.drop start, call.taskId ∈ s.store.ahead key →
    call.pc.Due call.taskId s.store

theorem Round.mono {left left' start : Nat} (h : Round key left start s) (hle : left ≤ left') :
    Round key left' start s where
  rest := by
    obtain ⟨rest, hcard, hrest⟩ := h.rest
    exact ⟨rest, hcard.trans hle, hrest⟩
  due := h.due

theorem Round.writes {left start : Nat} {store : Store} (h : Round key left start s)
    (hfollows : s.store.Follows key store) (hc : store.Coherent) :
    Round key left start { s with store } := by
  refine ⟨?_, fun call hcall hahead => ?_⟩
  · obtain ⟨rest, hcard, hrest⟩ := h.rest
    exact ⟨rest, hcard, fun taskId hahead => hrest taskId (hfollows.ahead hahead)⟩
  · exact (h.due call hcall (hfollows.ahead hahead)).follows hfollows hc hahead

theorem map_taskId_set {calls : List ProcessCall} {n : Nat} {call : ProcessCall}
    (hcall : calls[n]? = some call) (pc : ProcessPc) :
    (calls.set n ⟨call.taskId, pc⟩).map ProcessCall.taskId = calls.map ProcessCall.taskId := by
  refine List.ext_getElem? fun m => ?_
  rw [List.getElem?_map, List.getElem?_map, List.getElem?_set]
  split_ifs with hm hlength
  · rw [← hm, hcall]
    rfl
  · rw [← hm, List.getElem?_eq_none (Nat.not_lt.1 hlength)]
  · rfl

theorem Round.processes {left start n permits : Nat} {c : Choice} {call : ProcessCall}
    {pc : ProcessPc} {store : Store} (h : Round key left start s) (hs : s.Sound)
    (hcall : s.calls[n]? = some call) (hserved : ¬ call.pc.Misses call.taskId c s.store)
    (hnext : o.callNext c call s = some (pc, permits, store)) (hc : store.Coherent)
    (hfollows : s.store.Follows key store) :
    Round key left start { s with store, permits, calls := s.calls.set n ⟨call.taskId, pc⟩ } := by
  have hwritten := h.writes hfollows hc
  refine ⟨?_, fun other hother hahead => ?_⟩
  · obtain ⟨rest, hcard, hrest⟩ := hwritten.rest
    refine ⟨rest, hcard, fun taskId hahead => ?_⟩
    rw [List.map_drop, map_taskId_set hcall, ← List.map_drop]
    exact hrest taskId hahead
  · rw [List.drop_set] at hother
    split_ifs at hother with hstart
    · exact hwritten.due other hother hahead
    rcases List.mem_or_eq_of_mem_set hother with hold | rfl
    · exact hwritten.due other hold hahead
    -- the call is one of the round
    have hmem : call ∈ s.calls.drop start := by
      refine List.mem_of_getElem? (i := n - start) ?_
      rw [List.getElem?_drop, Nat.add_sub_cancel' (Nat.not_lt.1 hstart), hcall]
    obtain ⟨-, rfl, rfl⟩ | hnext := callNext_some hnext
    · trivial
    · exact due_processNext hs.coherent (hs.named call (List.mem_of_getElem? hcall))
        (h.due call hmem) hserved hnext hc hahead

/-- When a round begins, it has calls for the first tasks of the queue. -/
theorem Round.lists (hs : s.Sound) {tasks : List Task}
    (h : s.store.listQueuedTasks o.maxConcurrentTasks = .ok tasks) :
    Round key ((s.store.ahead key).card - o.maxConcurrentTasks) s.calls.length { s with
      calls := s.calls ++ tasks.map fun task => ⟨task.taskId, .waiting⟩
      round := some s.calls.length } := by
  have hnew : (s.calls ++ tasks.map fun task => (⟨task.taskId, .waiting⟩ : ProcessCall)).drop
      s.calls.length = tasks.map fun task => ⟨task.taskId, .waiting⟩ := List.drop_left
  obtain ⟨rest, hcard, hrest⟩ := listed_ahead key hs.mirrored h
  refine ⟨⟨rest, hcard, fun taskId hahead => (hrest taskId hahead).imp_right ?_⟩, ?_⟩
  · rintro ⟨task, htask, rfl⟩
    rw [hnew, List.map_map]
    exact List.mem_map.2 ⟨task, htask, rfl⟩
  · intro call hcall _
    rw [hnew] at hcall
    obtain ⟨task, -, rfl⟩ := List.mem_map.1 hcall
    trivial

/-- When all calls of a round have ended, the tasks that they were for are not queued. -/
theorem Round.ended {left start : Nat} (h : Round key left start s)
    (hended : ∀ call ∈ s.calls.drop start, call.pc.hasReturned = true) :
    (s.store.ahead key).card ≤ left := by
  obtain ⟨rest, hcard, hrest⟩ := h.rest
  refine (Finset.card_le_card fun taskId hahead => ?_).trans hcard
  refine (hrest taskId hahead).resolve_right fun hcalled => ?_
  obtain ⟨call, hcall, rfl⟩ := List.mem_map.1 hcalled
  have hdue := h.due call hcall hahead
  have hreturned := hended call hcall
  cases hpc : call.pc <;> rw [hpc] at hdue hreturned <;> first | exact hdue | cases hreturned

/-! ## Rounds that are completed -/

theorem Store.Follows.trans {s s' s'' : Store} (h : s.Follows key s') (h' : s'.Follows key s'') :
    s.Follows key s'' where
  found taskId task htask := by
    obtain ⟨task', htask', hidentity⟩ := h.found taskId task htask
    obtain ⟨task'', htask'', hidentity'⟩ := h'.found taskId task' htask'
    exact ⟨task'', htask'', hidentity'.trans hidentity⟩
  ahead := h'.ahead.trans h.ahead

/-- Since `first`, each round that was completed has taken its part. -/
structure Taken (o : Orchestrator) (key : Lex (String × String)) (first s : RoundsState) :
    Prop where
  sound : s.Sound
  follows : first.store.Follows key s.store
  since : first.completed ≤ s.completed
  left : (s.store.ahead key).card ≤
    (first.store.ahead key).card - o.maxConcurrentTasks * (s.completed - first.completed)
  round : ∀ start, s.round = some start → Round key ((first.store.ahead key).card -
    o.maxConcurrentTasks * (s.completed + 1 - first.completed)) start s

theorem Taken.step (h : Taken o key first s) (hserves : ServesQueue key s a)
    (hstep : o.roundsNext s a = some t) : Taken o key first t := by
  have hsound : t.Sound := h.sound.step hstep
  have hleft := h.left
  have hnext : o.maxConcurrentTasks * (s.completed + 1 - first.completed) =
      o.maxConcurrentTasks * (s.completed - first.completed) + o.maxConcurrentTasks := by
    rw [Nat.sub_add_comm h.since, Nat.mul_succ]
  cases a with
  | lists =>
    simp only [Orchestrator.roundsNext] at hstep
    split at hstep <;> cases hstep
    refine ⟨hsound, h.follows, h.since, hleft, fun start hstart => ?_⟩
    cases hstart
    exact (Round.lists h.sound ‹_›).mono (by dsimp only; omega)
  | processes n c =>
    obtain ⟨call, pc, permits, store, hcall, hcalled, rfl⟩ := processes_some hstep
    have hfollows : s.store.Follows key store := by
      obtain ⟨-, -, rfl⟩ | hcalled := callNext_some hcalled
      · exact .refl key _
      · exact follows_processNext h.sound.coherent hcalled
    exact ⟨hsound, h.follows.trans hfollows, h.since,
      (Finset.card_le_card hfollows.ahead).trans hleft, fun start hstart =>
      (h.round start hstart).processes h.sound hcall (hserves call hcall) hcalled hsound.coherent
        hfollows⟩
  | returns =>
    obtain ⟨start, hround, hstep⟩ := Option.bind_eq_some_iff.1 hstep
    split_ifs at hstep with hended
    cases hstep
    exact ⟨hsound, h.follows, h.since.trans (Nat.le_succ _), (h.round start hround).ended hended,
      fun start hstart => by cases hstart⟩
  | raises =>
    obtain ⟨start, -, hstep⟩ := Option.bind_eq_some_iff.1 hstep
    split_ifs at hstep
    cases hstep
    exact ⟨hsound, h.follows, h.since, hleft, fun start hstart => by cases hstart⟩
  | writes op =>
    simp only [Orchestrator.roundsNext] at hstep
    split_ifs at hstep with hfresh
    cases hstep
    have hfollows := WriteOp.QueuesBehind.follows hserves h.sound.coherent hfresh
    exact ⟨hsound, h.follows.trans hfollows, h.since,
      (Finset.card_le_card hfollows.ahead).trans hleft, fun start hstart =>
      (h.round start hstart).writes hfollows hsound.coherent⟩
  | restarts =>
    cases hstep
    exact ⟨hsound, h.follows, h.since, hleft, fun start hstart => by cases hstart⟩

theorem taken_run {as : List RoundsLabel} (hs : o.rounds.Reachable s) (hround : s.round = none)
    (hrun : (o.rounds.guard (ServesQueue key)).Run s as t) : Taken o key s t := by
  refine hrun.keeps (I := Taken o key s) (fun u a v h hstep => ?_) ?_
  · obtain ⟨hserves, hstep⟩ := hstep
    exact h.step hserves hstep
  refine ⟨rounds_sound hs, .refl key _, le_rfl, ?_, fun start hstart => ?_⟩
  · rw [Nat.sub_self, Nat.mul_zero, Nat.sub_zero]
  · rw [hround] at hstart
    cases hstart

/-- A task has left the queue when as many rounds are completed as it takes for the queued tasks up
to its key, whatever is queued behind it. -/
theorem leaves_queue {taskId : TaskId} {task : Task} {as : List RoundsLabel}
    (hs : o.rounds.Reachable s) (hround : s.round = none)
    (htask : s.store.task? taskId = some task)
    (hrun : (o.rounds.guard (ServesQueue task.listingKey)).Run s as t)
    (hmany : (s.store.ahead task.listingKey).card ≤
      o.maxConcurrentTasks * (t.completed - s.completed)) :
    t.store.statusOf taskId ≠ some .queued := by
  have htaken := taken_run hs hround hrun
  have hnone : t.store.ahead task.listingKey = ∅ := by
    rw [← Finset.card_eq_zero]
    exact Nat.le_zero.1 (htaken.left.trans (Nat.sub_eq_zero_of_le hmany).le)
  obtain ⟨task', htask', hidentity⟩ := htaken.follows.found taskId task htask
  intro hstatus
  rw [Store.statusOf, htask', Option.map_some, Option.some.injEq] at hstatus
  have hahead : taskId ∈ t.store.ahead task.listingKey :=
    (Store.mem_ahead htaken.sound.coherent).2
      ⟨task', htask', hstatus, (Task.listingKey_of_identity hidentity).le⟩
  rw [hnone] at hahead
  cases hahead

end

namespace Sample

/-- One task at a time, for which no developer is found. -/
def oneAtATime : Orchestrator :=
  { orchestrator with selectDeveloper := fun _ => .selectionError, maxConcurrentTasks := 1 }

def laterId : TaskId := ⟨"TASK-9", by decide⟩

def laterTask : Task := ⟨{ taskFields with taskId := laterId }, by decide⟩

/-- The task when it is queued. -/
def laterQueued : Task :=
  ⟨{ laterTask.toTaskFields with status := .queued }, by decide⟩

def twoQueued : List WriteOp :=
  [.createTask task created, .transitionTask taskId.val .queued queued,
    .createTask laterTask
      ⟨{ event 3 .taskCreated 10 .pending with taskId := some laterId }, by decide⟩,
    .transitionTask laterId.val .queued
      ⟨{ event 4 .taskQueued 11 .queued with taskId := some laterId }, by decide⟩]

theorem twoQueued_reachable : storeSystem.Reachable (Store.empty.perform twoQueued) :=
  ⟨.empty, twoQueued, rfl, .cons ⟨trivial, rfl⟩ (.cons ⟨trivial, rfl⟩ (.cons ⟨trivial, rfl⟩
    (.cons ⟨trivial, rfl⟩ (.nil _))))⟩

def twoTasks : RoundsState where
  store := Store.empty.perform twoQueued
  permits := 1
  calls := []
  round := none
  completed := 0

def callSteps (n first : Nat) : List RoundsLabel :=
  (List.range 9).map fun m => .processes n (choice (first + m))

def twoRounds : List RoundsLabel :=
  [.lists] ++ callSteps 0 0 ++ [.returns, .lists] ++ callSteps 1 10 ++ [.returns]

end Sample

open Sample in
theorem leaves_queue_sample :
    let next := System.guardNext (ServesQueue laterQueued.listingKey) oneAtATime.roundsNext
    (System.execD next twoTasks twoRounds).store.statusOf laterId ≠ some .queued := by
  intro next
  have hrun : (oneAtATime.rounds.guard (ServesQueue laterQueued.listingKey)).Run twoTasks twoRounds
      (System.execD next twoTasks twoRounds) := by
    rw [Orchestrator.rounds, System.ofNext_guard]
    exact System.run_execD (by decide +kernel)
  have hs : oneAtATime.rounds.Reachable twoTasks :=
    .of_init ⟨twoQueued_reachable, rfl, rfl, rfl⟩
  have htask : twoTasks.store.task? laterId = some laterQueued := by decide +kernel
  exact leaves_queue hs rfl htask hrun (by decide +kernel)

/-! ## Calls end -/

namespace ProcessPc

/-- How many awaits a call has before it at most. -/
def rank : ProcessPc → Nat
  | waiting => 25
  | gettingTask => 24
  | gotTask _ => 23
  | planning _ _ => 22
  | planned _ => 21
  | assigning _ _ _ => 20
  | entering _ _ => 19
  | settingRunning _ _ _ _ => 18
  | notifyingRunning _ _ _ => 17
  | creatingRun _ _ _ => 16
  | startingRun _ _ _ => 15
  | runStarted _ _ _ => 14
  | executing _ _ _ => 13
  | finishingRun _ _ _ _ => 12
  | gettingCurrent _ _ _ => 11
  | gotCurrent _ _ _ _ => 10
  | finishingTask _ _ _ _ | notifyingCancelled _ _ => 9
  | exiting _ _ _ => 8
  | closingRun _ _ => 7
  | gettingFailed _ => 6
  | gettingSettled _ _ => 5
  | gotSettled _ _ => 4
  | settling _ _ _ => 3
  | notifying _ => 1
  | done _ => 0

/-- The event that the call is about to store. -/
def event? : ProcessPc → Option EventEnvelope
  | planning _ event | assigning _ _ event | settingRunning _ _ _ event
  | finishingTask _ _ _ event | settling _ _ event => some event
  | _ => none

/-- The call has a place of the semaphore. -/
def holds : ProcessPc → Bool
  | waiting | done _ => false
  | _ => true

theorem rank_le (pc : ProcessPc) : pc.rank ≤ 25 := by
  cases pc <;> simp [rank]

theorem rank_handle (task : Task) (openRun : Option RunId) (e : Raised) :
    (handle task openRun e).rank < 8 := by
  cases e <;> cases openRun <;> simp [handle, rank]

theorem rank_leave (task : Task) (openRun : Option RunId) (body : Body) (e : ExitOutcome) :
    (leave task openRun body e).rank < 8 := by
  cases body <;> cases e <;> first | exact rank_handle _ _ _ | simp [leave, rank]

end ProcessPc

section

variable {o : Orchestrator} {c : Choice} {taskId : TaskId} {store store' : Store}
  {pc pc' : ProcessPc}

/-- A call gets closer to its end. -/
theorem processNext_rank (h : processNext o taskId c pc store = some (pc', store')) :
    pc'.rank < pc.rank := by
  cases pc with
  | waiting | done => simp [processNext] at h
  | planning | assigning | settingRunning | finishingTask | settling =>
    simp only [processNext, Option.map_eq_some_iff] at h
    obtain ⟨_ | ⟨_, _⟩, _, h⟩ := h <;> cases h <;> simp [ProcessPc.rank]
  | entering task developer =>
    simp only [processNext] at h
    repeat' split at h
    all_goals cases h
    · exact (ProcessPc.rank_handle _ _ _).trans (by simp [ProcessPc.rank])
    · simp [ProcessPc.rank]
    · simp [ProcessPc.rank]
  | exiting task body openRun =>
    cases h
    exact ProcessPc.rank_leave _ _ _ _
  | _ =>
    simp only [processNext] at h
    repeat' split at h
    all_goals
      cases h
      simp [ProcessPc.rank]

/-- A call with a place of the semaphore can take a step, whatever its await comes to. -/
theorem processNext_isSome (o : Orchestrator) (c : Choice) (taskId : TaskId)
    (hholds : pc.holds = true)
    (hfresh : ∀ event ∈ pc.event?, store.events.get? event.eventId = none) :
    ∃ r, processNext o taskId c pc store = some r := by
  have hcommit : ∀ {α : Type} {event : EventEnvelope}
      {op : EventEnvelope → Store → Except HubError (α × Store)}, pc.event? = some event →
      ∃ r, commit c event op store = some r := by
    intro α event op hevent
    rw [commit, hfresh event hevent]
    exact ⟨_, rfl⟩
  cases pc with
  | waiting | done => cases hholds
  | planning | assigning | settingRunning | finishingTask | settling =>
    obtain ⟨r, hr⟩ := hcommit rfl
    exact ⟨_, by rw [processNext, hr]; rfl⟩
  | _ =>
    simp only [processNext]
    repeat' split
    all_goals exact ⟨_, rfl⟩

end

/-- What a sum becomes when one element is replaced. -/
theorem sum_map_set {α : Type} (f : α → Nat) {l : List α} {n : Nat} {a : α} (h : l[n]? = some a)
    (b : α) : ((l.set n b).map f).sum + f a = (l.map f).sum + f b := by
  induction l generalizing n with
  | nil => cases h
  | cons x l ih =>
    cases n with
    | zero =>
      cases h
      simp only [List.set_cons_zero, List.map_cons, List.sum_cons]
      omega
    | succ n =>
      have hrest := ih (n := n) h
      simp only [List.set_cons_succ, List.map_cons, List.sum_cons]
      omega

section

variable {o : Orchestrator} {s t : RoundsState} {a : RoundsLabel} {c : Choice}
  {call : ProcessCall} {pc : ProcessPc} {permits : Nat} {store : Store}

/-- A call takes a place of the semaphore, keeps it, or gives it back. -/
theorem callNext_permits (h : o.callNext c call s = some (pc, permits, store)) :
    permits + pc.holds.toNat = s.permits + call.pc.holds.toNat := by
  unfold Orchestrator.callNext at h
  split at h
  · rename_i hwaiting
    split_ifs at h with hfree
    cases h
    rw [hwaiting]
    simp only [ProcessPc.holds, Bool.toNat_true, Bool.toNat_false]
    omega
  · rename_i hwaiting
    obtain ⟨⟨pc', store'⟩, hnext, hr⟩ := Option.map_eq_some_iff.1 h
    cases hr
    have hrank := processNext_rank hnext
    have hbefore : call.pc.holds = true := by
      cases hpc : call.pc with
      | waiting => exact absurd hpc hwaiting
      | done => rw [hpc] at hrank; exact absurd hrank (Nat.not_lt_zero _)
      | _ => rfl
    have hafter : pc'.holds = !pc'.isDone := by
      have hle : call.pc.rank ≤ 25 := call.pc.rank_le
      cases pc' with
      | waiting => exact absurd (hrank.trans_le hle) (lt_irrefl _)
      | _ => rfl
    dsimp only
    rw [hbefore, hafter]
    cases pc'.isDone <;> rfl

theorem callNext_rank (h : o.callNext c call s = some (pc, permits, store)) :
    pc.rank < call.pc.rank := by
  obtain ⟨hwaiting, rfl, -⟩ | hnext := callNext_some h
  · rw [hwaiting]
    simp [ProcessPc.rank]
  · exact processNext_rank hnext

/-- The places of the semaphore that calls have. -/
def RoundsState.held (s : RoundsState) : Nat :=
  (s.calls.map fun call => call.pc.holds.toNat).sum

/-- Each place of the semaphore is free, or a call has it. -/
theorem permits_held (h : o.rounds.Reachable s) :
    s.permits + s.held = o.maxConcurrentTasks := by
  have hI : o.rounds.Invariant fun s => s.permits + s.held = o.maxConcurrentTasks := {
    init := fun s hs => by simp [RoundsState.held, hs.2.1, hs.2.2.1]
    step := by
      intro s a t hs hstep
      replace hstep : o.roundsNext s a = some t := hstep
      cases a with
      | lists =>
        simp only [Orchestrator.roundsNext] at hstep
        split at hstep <;> cases hstep
        have hnone : ∀ tasks : List Task, ((tasks.map fun task =>
            (⟨task.taskId, .waiting⟩ : ProcessCall)).map fun call =>
              call.pc.holds.toNat).sum = 0 := fun tasks => by
          rw [List.map_map]
          refine List.sum_eq_zero fun n hn => ?_
          obtain ⟨_, -, rfl⟩ := List.mem_map.1 hn
          rfl
        simp only [RoundsState.held] at hs ⊢
        rw [List.map_append, List.sum_append, hnone, Nat.add_zero, hs]
      | processes n c =>
        obtain ⟨call, pc, permits, store, hcall, hnext, rfl⟩ := processes_some hstep
        have hpermits := callNext_permits hnext
        have hsum := sum_map_set (fun call => call.pc.holds.toNat) hcall ⟨call.taskId, pc⟩
        simp only [RoundsState.held] at hs hsum ⊢
        omega
      | returns | raises =>
        obtain ⟨start, -, hstep⟩ := Option.bind_eq_some_iff.1 hstep
        split_ifs at hstep
        cases hstep
        exact hs
      | writes op =>
        simp only [Orchestrator.roundsNext] at hstep
        split_ifs at hstep
        cases hstep
        exact hs
      | restarts =>
        cases hstep
        rfl }
  exact hI.reachable h

theorem processes_step {n : Nat} (hcall : s.calls[n]? = some call)
    (h : ∃ r, o.callNext c call s = some r) : ∃ t, o.rounds.step s (.processes n c) t := by
  obtain ⟨r, hr⟩ := h
  have hnext : ∃ t, o.roundsNext s (.processes n c) = some t := by
    rw [Orchestrator.roundsNext, hcall, Option.bind_some, hr]
    exact ⟨_, rfl⟩
  exact hnext

def RoundsLabel.isCall : RoundsLabel → Bool
  | processes _ _ => true
  | _ => false

/-- The calls take at most 25 steps each, and while one has not ended, one of them can take a step,
whatever its await comes to. -/
theorem calls_end (hs : o.rounds.Reachable s) (hplaces : 0 < o.maxConcurrentTasks) :
    (∀ as t, (o.rounds.guard fun _ a => a.isCall = true).Run s as t →
        as.length ≤ 25 * s.calls.length) ∧
      ((∀ call ∈ s.calls, ∀ event ∈ call.pc.event?,
          s.store.events.get? event.eventId = none) →
        (∃ call ∈ s.calls, call.pc.isDone = false) →
        ∃ n, ∀ c, ∃ t, o.rounds.step s (.processes n c) t) := by
  constructor
  · intro as t hrun
    have hlength := hrun.length_le (μ := fun s => (s.calls.map fun call => call.pc.rank).sum) ?_
    · have hle : (s.calls.map fun call => call.pc.rank).sum ≤ s.calls.length * 25 := by
        have h := List.sum_le_card_nsmul (s.calls.map fun call => call.pc.rank) 25 fun r hr => by
          obtain ⟨call, -, rfl⟩ := List.mem_map.1 hr
          exact call.pc.rank_le
        simpa using h
      omega
    · rintro s a t ⟨hcall, hstep⟩
      cases a with
      | processes n c =>
        obtain ⟨call, pc, permits, store, hcall, hnext, rfl⟩ := processes_some hstep
        have hrank := callNext_rank hnext
        have hsum := sum_map_set (fun call => call.pc.rank) hcall ⟨call.taskId, pc⟩
        dsimp only at hsum ⊢
        omega
      | _ => cases hcall
  · intro hfresh hopen
    by_cases hheld : ∃ call ∈ s.calls, call.pc.holds = true
    · obtain ⟨call, hmem, hholds⟩ := hheld
      obtain ⟨n, hn⟩ := List.getElem?_of_mem hmem
      refine ⟨n, fun c => processes_step hn ?_⟩
      obtain ⟨r, hr⟩ := processNext_isSome o c call.taskId hholds (hfresh call hmem)
      unfold Orchestrator.callNext
      split
      · rename_i hwaiting
        rw [hwaiting] at hholds
        cases hholds
      · exact ⟨_, by rw [hr]; rfl⟩
    · -- all places are free, so a call that waits gets one
      obtain ⟨call, hmem, hopen⟩ := hopen
      obtain ⟨n, hn⟩ := List.getElem?_of_mem hmem
      refine ⟨n, fun c => processes_step hn ?_⟩
      have hwaiting : call.pc = .waiting := by
        have hfree : ¬ call.pc.holds = true := fun h => hheld ⟨call, hmem, h⟩
        cases hpc : call.pc with
        | waiting => rfl
        | done => rw [hpc] at hopen; cases hopen
        | _ => rw [hpc] at hfree; exact absurd rfl hfree
      have hnone : s.held = 0 := by
        refine List.sum_eq_zero fun k hk => ?_
        obtain ⟨other, hother, rfl⟩ := List.mem_map.1 hk
        rw [Bool.eq_false_iff.2 fun h => hheld ⟨other, hother, h⟩]
        rfl
      have hpermits : s.permits ≠ 0 := by
        have hplaced := permits_held hs
        omega
      exact ⟨_, by rw [Orchestrator.callNext, hwaiting, if_neg hpermits]⟩

end

open Sample in
theorem calls_end_sample :
    let s := System.execD oneAtATime.roundsNext twoTasks [.lists]
    ∃ n, ∀ c, ∃ t, oneAtATime.rounds.step s (.processes n c) t := by
  intro s
  have hs : oneAtATime.rounds.Reachable s :=
    ⟨twoTasks, [.lists], ⟨twoQueued_reachable, rfl, rfl, rfl⟩,
      System.run_execD (by decide +kernel)⟩
  exact (calls_end hs (by decide)).2 (by decide +kernel) (by decide +kernel)

end AIHub
