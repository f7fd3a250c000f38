import AIHub.Slack.Notifications
import AIHub.Storage.History
import AIHub.Storage.Polling
import Mathlib.Data.List.Find

/-!
# The payload of an update

`notify_task` takes the payload of the last of the first 10000 events of a task whose payload names
the status of the task. That is meant to be the event of the transition into this status. But an
assignment names the current status as well, any other event may, and a transition behind the first
10000 events is not looked at.

* `latest_step`: while none of this happens, a step keeps the transition the last of such events.
* `payload_latest`: in a run without such steps, the payload is always that of the transition.
-/

namespace AIHub

open Transition

namespace History

variable {h h' : History} {row : TaskRow} {events : List EventEnvelope} {event : EventEnvelope}

/-- The payload of the event names the status. -/
def names (status : TaskStatus) (event : EventEnvelope) : Bool :=
  event.payloadStatus = some (.string status.value)

/-- What `notify_task` finds in the events of a task. -/
def found (status : TaskStatus) (events : List EventEnvelope) : Option EventEnvelope :=
  (events.take 10000).reverse.find? (names status)

/-- The event found is that of the last transition. -/
structure Latest (h : History) (row : TaskRow) : Prop where
  transition : ∃ event, h.lifecycleEvents.getLast? = some event ∧
    event.eventType = eventForStatus row.status ∧ names row.status event = true ∧
    (row.status ∈ replayableStatuses → found row.status h.events = some event)

/-- A transition into a status worth telling is among the first 10000 events, and no other of these
names the status that the task has. -/
def KeepsLatest (h : History) : TaskWrite × EventFields → Prop
  | (.create _, _) => True
  | (.move target, _) => target ∈ replayableStatuses → h.events.length < 10000
  | (.append, event) | (.assign _, event) =>
    ∀ row, h.row = some row → row.status ∈ replayableStatuses → h.events.length < 10000 →
      event.payloadStatus ≠ some (.string row.status.value)

/-- A new event is found if there is room for it and it names the status. -/
theorem found_append (status : TaskStatus) (events : List EventEnvelope) (event : EventEnvelope) :
    found status (events ++ [event]) =
      if events.length < 10000 ∧ names status event = true then some event
      else found status events := by
  unfold found
  by_cases hroom : events.length < 10000
  · rw [List.take_of_length_le (by rw [List.length_append, List.length_singleton]; omega),
      List.take_of_length_le (by omega), List.reverse_append]
    by_cases hnames : names status event = true
    · rw [if_pos ⟨hroom, hnames⟩]
      exact List.find?_cons_of_pos hnames
    · rw [if_neg fun hboth => hnames hboth.2]
      exact List.find?_cons_of_neg hnames
  · rw [if_neg fun hboth => hroom hboth.1, List.take_append_of_le_length (by omega)]

/-- An event that is no transition is not found. -/
theorem Latest.append {row' : TaskRow} (hlatest : Latest ⟨some row, events⟩ row)
    (hstatus : row'.status = row.status)
    (hother : ¬ (event.eventType ∈ atomicTaskEventTypes ∧ event.eventType ≠ .agentAssigned))
    (hkeeps : row.status ∈ replayableStatuses → events.length < 10000 →
      event.payloadStatus ≠ some (.string row.status.value)) :
    Latest ⟨some row', events ++ [event]⟩ row' := by
  obtain ⟨latest, hlast, htype, hnames, hfound⟩ := hlatest
  rw [← hstatus] at htype hnames hfound hkeeps
  refine ⟨latest, ?_, htype, hnames, fun hreplayable => ?_⟩
  · rw [lifecycleEvents_append, if_neg hother, List.append_nil]
    exact hlast
  · rw [found_append, if_neg fun hboth => ?_]
    · exact hfound hreplayable
    · exact hkeeps hreplayable hboth.1 (of_decide_eq_true hboth.2)

/-- The event of a transition is found. -/
theorem latest_move {updated : Task} {target : TaskStatus}
    (hlife : LifecycleEvent row.taskJson target event) (hstatus : updated.status = target)
    (hkeeps : target ∈ replayableStatuses → events.length < 10000) :
    Latest ⟨some (row.moved updated event.timestamp), events ++ [event]⟩
      (row.moved updated event.timestamp) := by
  subst hstatus
  have hnames : names updated.status event = true := decide_eq_true hlife.status
  have hatomic : event.eventType ∈ atomicTaskEventTypes :=
    hlife.type ▸ eventForStatus_mem updated.status
  have hassigned : event.eventType ≠ .agentAssigned :=
    hlife.type ▸ eventForStatus_ne_assigned updated.status
  refine ⟨event, ?_, hlife.type, hnames, fun hreplayable => ?_⟩
  · rw [lifecycleEvents_append, if_pos ⟨hatomic, hassigned⟩]
    exact List.getLast?_concat
  · show found updated.status (events ++ [event]) = some event
    rw [found_append, if_pos ⟨hkeeps hreplayable, hnames⟩]

theorem latest_create {task : Task} (hpending : task.status = .pending)
    (hlife : LifecycleEvent task .pending event) :
    Latest ⟨some (.created task event.timestamp), [event]⟩ (.created task event.timestamp) := by
  have hatomic : event.eventType ∈ atomicTaskEventTypes := hlife.type ▸ eventForStatus_mem .pending
  have hassigned : event.eventType ≠ .agentAssigned :=
    hlife.type ▸ eventForStatus_ne_assigned .pending
  have hstatus : (TaskRow.created task event.timestamp).status = .pending := hpending
  refine ⟨event, ?_, ?_, ?_, fun hreplayable => ?_⟩
  · simp [lifecycleEvents, hatomic, hassigned]
  · rw [hstatus]
    exact hlife.type
  · rw [hstatus]
    exact decide_eq_true hlife.status
  · rw [hstatus] at hreplayable
    exact absurd hreplayable (by decide)

/-- Every step that meets the condition keeps the last transition found. -/
theorem latest_step {id : TaskId} {a : TaskWrite × EventEnvelope}
    (hh : ∀ row, h.row = some row → h.Latest row)
    (ha : h.KeepsLatest (a.1, a.2.toEventFields)) (hs : (historySystem id).step h a h') :
    ∀ row, h'.row = some row → h'.Latest row := by
  obtain ⟨write, event⟩ := a
  cases hs with
  | append row events _ htype =>
    rintro _ ⟨⟩
    exact (hh row rfl).append rfl (fun hboth => htype hboth.1) (ha row rfl)
  | create task _ hpending hlife =>
    rintro _ ⟨⟩
    exact latest_create hpending hlife
  | move row events target updated _ hlife hmoved =>
    obtain ⟨_, _, _, hfields⟩ := transitionTask_ok hmoved
    rintro _ ⟨⟩
    exact latest_move hlife (congrArg TaskFields.status hfields) ha
  | assign row events agent updated _ htype =>
    rintro _ ⟨⟩
    exact (hh row rfl).append rfl (fun hboth => hboth.2 htype) (ha row rfl)

end History

/-! ## Stores -/

/-- What a call writes keeps the last transitions found. -/
def WriteOp.KeepsLatest (s : Store) (op : WriteOp) : Prop :=
  op.Commits s → ∀ write event, (write, event) ∈ op.writes s → ∀ id, event.taskId = some id →
    (s.history id).KeepsLatest (write, event)

/-- The sequence numbers start at one. -/
theorem sequence_pos {s : Store} (h : storeSystem.Reachable s) :
    ∀ stored ∈ s.events.rows, 0 < stored.sequence := by
  obtain ⟨_, ops, rfl, hrun⟩ := writeSystem_of_storeSystem h
  obtain ⟨_, new, hrows, hnew⟩ := (run_writes (.of_init rfl) hrun).extends
  intro stored hstored
  rw [hrows] at hstored
  exact hnew stored hstored

/-- The first events of a task are a start of its history. -/
theorem listEvents_history {s : Store} (h : storeSystem.Reachable s) (id : TaskId) :
    ∃ events, s.listEvents (some id.val) 0 10000 = .ok events ∧
      events.map StoredEvent.envelope = (s.taskEvents id).take 10000 := by
  have hsorted : (s.events.rows.filter fun e =>
      e.matchesTask (some id.val) && decide ((0 : Int) < e.sequence)).Pairwise
        (·.sequence ≤ ·.sequence) :=
    ((storeSystem_coherent h).ordered.imp Nat.le_of_lt).filter _
  have hfilter : s.events.rows.filter (fun e =>
      e.matchesTask (some id.val) && decide ((0 : Int) < e.sequence)) =
      s.events.rows.filter fun e => e.envelope.taskId = some id := by
    refine List.filter_congr fun e he => ?_
    have hpos : (0 : Int) < e.sequence := Int.ofNat_lt.2 (sequence_pos h e he)
    rw [decide_eq_true hpos, Bool.and_true, StoredEvent.matchesTask, Option.all_some]
    cases e.envelope.taskId with
    | none => rfl
    | some t => simp [Constrained.val_inj]
  refine ⟨_, rfl, ?_⟩
  rw [List.Pairwise.insertionSort_eq hsorted, hfilter, List.map_take, Store.taskEvents,
    List.filter_map]
  rfl

/-- What is found in the events of the store is what is found in the history. -/
theorem payload_of_found {task : Task} {stored : List StoredEvent} {events : List EventEnvelope}
    {event : EventEnvelope} (hstored : stored.map StoredEvent.envelope = events.take 10000)
    (hevents : ∀ e ∈ events, e.taskId = some task.taskId)
    (hfound : History.found task.status events = some event) :
    matchingLifecyclePayload task stored = event.payload := by
  have hmap : (stored.reverse.map StoredEvent.envelope).find? (History.names task.status) =
      some event := by
    rw [List.map_reverse, hstored]
    exact hfound
  have hnamed : stored.reverse.find? (fun e => e.envelope.taskId = some task.taskId ∧
      e.envelope.payloadStatus = some (.string task.status.value)) =
      stored.reverse.find? (History.names task.status ∘ StoredEvent.envelope) := by
    refine List.find?_congr fun e he => ?_
    have hmem : e.envelope ∈ events.take 10000 :=
      hstored ▸ List.mem_map_of_mem (List.mem_reverse.1 he)
    have hid := hevents _ (List.mem_of_mem_take hmem)
    simp [History.names, hid]
  rw [List.find?_map] at hmap
  obtain ⟨e, he, rfl⟩ := Option.map_eq_some_iff.1 hmap
  unfold matchingLifecyclePayload
  rw [hnamed, he]

/-- In a run whose steps keep the last transitions found, the payload of an update on a task is that
of its last transition, which has led to its status. -/
theorem payload_latest {s : Store} (h : (storeSystem.guard WriteOp.KeepsLatest).Reachable s)
    {id : TaskId} {task : Task} (htask : s.getTask id.val = .ok task)
    (hstatus : task.status ∈ replayableStatuses) :
    ∃ events event, s.listEvents (some task.taskId.val) 0 10000 = .ok events ∧
      (s.history id).lifecycleEvents.getLast? = some event ∧
      event.eventType = eventForStatus task.status ∧
      event.payloadStatus = some (.string task.status.value) ∧
      matchingLifecyclePayload task events = event.payload := by
  have hreach : ((historySystem id).guard fun hist a =>
      hist.KeepsLatest (a.1, a.2.toEventFields)).Reachable (s.history id) := by
    refine history_reachable_guard ?_ ?_ h
    · intro s op write event _ hkeeps hcommits hmem _ hid
      exact hkeeps hcommits write event.toEventFields hmem id hid
    · intro task _ _ _ _ _ hreplayable
      exact absurd hreplayable (by decide)
  have hlatest : ∀ row, (s.history id).row = some row → (s.history id).Latest row := by
    have hI : ((historySystem id).guard fun hist a =>
        hist.KeepsLatest (a.1, a.2.toEventFields)).Invariant
          fun hist => ∀ row, hist.row = some row → hist.Latest row := {
      init := by
        rintro _ rfl row ⟨⟩
      step := fun hist a hist' hh hs => History.latest_step hh hs.1 hs.2 }
    exact hI.reachable hreach
  rw [Store.getTask, map_eq_ok] at htask
  obtain ⟨row, hrow, rfl⟩ := htask
  rw [Store.taskRow_ok] at hrow
  have hmirrors := (writeSystem_mirrored (writeSystem_of_storeSystem h.of_guard)).tasks row
    (Table.get?_eq_some.1 hrow).1
  have hid : row.taskJson.taskId = id := history_named hreach.of_guard row hrow
  obtain ⟨event, hlast, htype, hnames, hfound⟩ := (hlatest row hrow).transition
  rw [← hmirrors.status] at htype hnames hfound
  obtain ⟨events, hevents, htake⟩ := listEvents_history h.of_guard id
  refine ⟨events, event, ?_, hlast, htype, of_decide_eq_true hnames, ?_⟩
  · rw [hid]
    exact hevents
  · refine payload_of_found htake (fun e he => ?_) (hfound hstatus)
    rw [hid]
    exact of_decide_eq_true (List.mem_filter.1 he).2

/-! ## A task that is assigned while it is blocked -/

theorem keepsLatest_create (s : Store) (task : Task) (event : EventEnvelope) :
    (WriteOp.createTask task event).KeepsLatest s := by
  intro _ write event hmem id _
  obtain ⟨rfl, rfl⟩ := Prod.mk.inj (List.mem_singleton.1 hmem)
  exact trivial

theorem keepsLatest_transition {s : Store} {id : TaskId} {target : TaskStatus}
    {event : EventEnvelope} (htask : event.taskId = some id)
    (hroom : (s.taskEvents id).length < 10000) :
    (WriteOp.transitionTask id.val target event).KeepsLatest s := by
  intro _ write event' hmem id' hid'
  obtain ⟨rfl, rfl⟩ := Prod.mk.inj (List.mem_singleton.1 hmem)
  obtain rfl := Option.some.inj (htask.symm.trans hid')
  exact fun _ => hroom

namespace Sample

def blockedForReason : EventEnvelope :=
  ⟨{ event 4 .taskBlocked 13 .blocked with
    payload := [("status", .string "blocked"), ("reason", .string "Tests fail.")] }, by decide⟩

/-- The assignment of an agent to the blocked task. -/
def assignedWhenBlocked : EventEnvelope :=
  ⟨{ event 5 .agentAssigned 14 .blocked with agent := some developer }, by decide⟩

def runningOp : WriteOp :=
  .transitionTask taskId.val .running ⟨event 6 .taskStarted 12 .running, by decide⟩

def blockedOp : WriteOp := .transitionTask taskId.val .blocked blockedForReason

/-- The store with the task, blocked. -/
def blockedStore : Store := blockedOp.after (runningOp.after store)

def blockedTask : Task := (blockedStore.getTask taskId.val).toOption.getD task

/-- The store with the task, assigned afterwards. -/
def assignedStore : Store :=
  (WriteOp.assignTask taskId.val developer assignedWhenBlocked).after blockedStore

def assignedTaskRow : Task := (assignedStore.getTask taskId.val).toOption.getD task

end Sample

theorem ok_of_toOption {α : Type} {r : Except HubError α} {a : α} (h : r.toOption = some a) :
    r = .ok a := by
  cases r with
  | error e => cases h
  | ok b =>
    cases h
    rfl

open Sample in
theorem payload_latest_sample : ∃ events event,
    blockedStore.listEvents (some blockedTask.taskId.val) 0 10000 = .ok events ∧
      (blockedStore.history taskId).lifecycleEvents.getLast? = some event ∧
      event.eventType = eventForStatus blockedTask.status ∧
      event.payloadStatus = some (.string blockedTask.status.value) ∧
      matchingLifecyclePayload blockedTask events = event.payload := by
  have hcreated : (storeSystem.guard WriteOp.KeepsLatest).Reachable
      ((WriteOp.createTask task created).after .empty) :=
    storeSystem_guard_after (.of_init rfl) (keepsLatest_create _ _ _) trivial
  have hstore : (storeSystem.guard WriteOp.KeepsLatest).Reachable store :=
    storeSystem_guard_after hcreated (keepsLatest_transition rfl (by decide +kernel)) trivial
  have hrunning : (storeSystem.guard WriteOp.KeepsLatest).Reachable (runningOp.after store) :=
    storeSystem_guard_after hstore (keepsLatest_transition rfl (by decide +kernel)) trivial
  have hblocked : (storeSystem.guard WriteOp.KeepsLatest).Reachable blockedStore :=
    storeSystem_guard_after hrunning (keepsLatest_transition rfl (by decide +kernel)) trivial
  exact payload_latest hblocked (ok_of_toOption (by decide +kernel)) (by decide +kernel)

open Sample in
/-- The assignment names the status of the task. -/
theorem payload_of_assignment : ¬ ∀ (s : Store) (id : TaskId) (task : Task),
    storeSystem.Reachable s → s.getTask id.val = .ok task → task.status ∈ replayableStatuses →
      ∃ events event, s.listEvents (some task.taskId.val) 0 10000 = .ok events ∧
        (s.history id).lifecycleEvents.getLast? = some event ∧
        matchingLifecyclePayload task events = event.payload := by
  intro h
  have hreach : storeSystem.Reachable assignedStore :=
    storeSystem_after (storeSystem_after (storeSystem_after (storeSystem_after
      (storeSystem_after (.of_init rfl) trivial) trivial) trivial) trivial) trivial
  obtain ⟨events, event, hevents, hlast, hpayload⟩ := h assignedStore taskId assignedTaskRow hreach
    (ok_of_toOption (by decide +kernel)) (by decide +kernel)
  have hlist : (assignedStore.listEvents (some assignedTaskRow.taskId.val) 0 10000).toOption.map
      (matchingLifecyclePayload assignedTaskRow) = some [("status", .string "blocked")] := by
    decide +kernel
  have hblocked : (assignedStore.history taskId).lifecycleEvents.getLast? =
      some blockedForReason := by
    decide +kernel
  rw [hevents] at hlist
  rw [hblocked] at hlast
  obtain rfl := Option.some.inj hlast
  have hsame := (Option.some.inj hlist).symm.trans hpayload
  revert hsame
  decide +kernel

end AIHub
