import AIHub.Lib.Transition
import AIHub.Storage.Store

/-!
# What a write does to tasks and events

Every write operation of the store changes tasks and events in steps of four kinds, each of
which stores one event: it appends an event of another type, creates a task, moves one to its
next status, or assigns an agent. `TaskStep` says what such a step is, with everything the
operation has checked.

Seen from one task, a step either continues the task's *history* (its row, and the events that
carry its id) or leaves it alone. `historySystem` is the history as a system of its own, and
`exec_history` the connection: whatever a committed operation does, the history of every task
makes a run of that system. What holds along all histories is then proved on `historySystem`.
-/

namespace AIHub

open Transition

/-! ## Results -/

theorem bind_eq_ok {ε α β : Type} {x : Except ε α} {f : α → Except ε β} {b : β} :
    (x >>= f) = .ok b ↔ ∃ a, x = .ok a ∧ f a = .ok b := by
  cases x <;> simp [bind, Except.bind]

theorem map_eq_ok {ε α β : Type} {x : Except ε α} {f : α → β} {b : β} :
    x.map f = .ok b ↔ ∃ a, x = .ok a ∧ f a = b := by
  cases x <;> simp [Except.map]

@[simp] theorem pure_eq_ok {ε α : Type} {a b : α} :
    (pure a : Except ε α) = .ok b ↔ a = b := by
  simp [pure, Except.pure]

@[simp] theorem throw_eq_ok {ε α : Type} {e : ε} {b : α} :
    (throw e : Except ε α) = .ok b ↔ False := by
  simp [throw, throwThe, MonadExceptOf.throw]

@[simp] theorem raiseIf_eq_ok {c : Prop} [Decidable c] {e : HubError} {u : Unit} :
    raiseIf c e = .ok u ↔ ¬ c := by
  by_cases h : c <;> simp [raiseIf, h]

theorem insertRow_ok {ρ κ : Type} [DecidableEq κ] {key : ρ → κ} {operation : String}
    {T U : Table key} {r : ρ} (h : insertRow operation T r = .ok U) :
    ∃ hr, U = T.insert r hr := by
  unfold insertRow at h
  split at h
  · rename_i hr
    exact ⟨hr, by cases h; rfl⟩
  · cases h

theorem insertRow_of_free {ρ κ : Type} [DecidableEq κ] {key : ρ → κ} {operation : String}
    {T : Table key} {row : ρ} (h : T.get? (key row) = none) :
    insertRow operation T row = .ok (T.insert row h) := by
  unfold insertRow
  split
  · rfl
  · rename_i htaken
    cases h.symm.trans htaken

/-! ## Rows and events -/

/-- What `_validate_lifecycle_event` establishes. -/
structure LifecycleEvent (task : Task) (target : TaskStatus) (event : EventEnvelope) : Prop where
  type : event.eventType = eventForStatus target
  taskId : event.taskId = some task.taskId
  project : event.project = some task.project
  team : event.team = some task.team
  status : event.payloadStatus = some (.string target.value)

theorem validateLifecycleEvent_ok {task : Task} {target : TaskStatus} {event : EventEnvelope}
    {u : Unit} : validateLifecycleEvent task target event = .ok u ↔
      LifecycleEvent task target event := by
  simp only [validateLifecycleEvent, bind_eq_ok, raiseIf_eq_ok, not_or, not_not]
  constructor
  · rintro ⟨_, h₁, _, h₂, _, ⟨h₃, h₄⟩, h₅⟩
    exact ⟨h₁, h₂, h₃, h₄, h₅⟩
  · rintro ⟨h₁, h₂, h₃, h₄, h₅⟩
    exact ⟨(), h₁, (), h₂, (), ⟨h₃, h₄⟩, h₅⟩

/-- The events of status changes are atomic task events. -/
theorem eventForStatus_mem (target : TaskStatus) :
    eventForStatus target ∈ atomicTaskEventTypes := by
  cases target <;> decide

theorem eventForStatus_ne_assigned (target : TaskStatus) :
    eventForStatus target ≠ .agentAssigned := by
  cases target <;> decide

namespace TaskRow

/-- The row `create_task` inserts. -/
def created (task : Task) (time : Timestamp) : TaskRow where
  taskId := task.taskId
  status := task.status
  project := task.project
  team := task.team
  createdAt := task.createdAt
  updatedAt := time
  version := 1
  taskJson := task

/-- The row after a move. -/
def moved (row : TaskRow) (updated : Task) (time : Timestamp) : TaskRow :=
  { row with
    status := updated.status
    updatedAt := time
    version := row.version + 1
    taskJson := updated }

/-- The row after an assignment. -/
def assigned (row : TaskRow) (updated : Task) (time : Timestamp) : TaskRow :=
  { row with
    updatedAt := time
    version := row.version + 1
    taskJson := updated }

@[simp] theorem key_created (task : Task) (time : Timestamp) :
    (created task time).key = task.taskId.val := rfl

@[simp] theorem key_moved (row : TaskRow) (updated : Task) (time : Timestamp) :
    (row.moved updated time).key = row.key := rfl

@[simp] theorem key_assigned (row : TaskRow) (updated : Task) (time : Timestamp) :
    (row.assigned updated time).key = row.key := rfl

end TaskRow

/-- The kinds of changes to tasks and events. -/
inductive TaskWrite where
  | append
  | create (task : Task)
  | move (target : TaskStatus)
  | assign (agent : Identifier)
  deriving DecidableEq

namespace Store

/-! ## Steps -/

/-- `s'` is `s` with `event` stored last. -/
structure Stores (s : Store) (event : EventEnvelope) (s' : Store) : Prop where
  fresh : s.events.get? event.eventId = none
  known : ∀ id ∈ event.taskId, (s'.tasks.get? id.val).isSome
  events : s'.events.rows = s.events.rows ++ [⟨s.lastSequence + 1, event⟩]
  sequence : s'.lastSequence = s.lastSequence + 1

/-- `s'` is `s` with `row` written in the place of its key. -/
def Puts (s : Store) (row : TaskRow) (s' : Store) : Prop :=
  ∀ k, s'.tasks.get? k = if row.key = k then some row else s.tasks.get? k

/-- One change of tasks and events. -/
inductive TaskStep (s : Store) : TaskWrite → EventEnvelope → Store → Prop
  | append (event : EventEnvelope) (s' : Store) (type : event.eventType ∉ atomicTaskEventTypes)
      (tasks : s'.tasks = s.tasks) (stores : s.Stores event s') : TaskStep s .append event s'
  | create (event : EventEnvelope) (s' : Store) (task : Task)
      (new : s.tasks.get? task.taskId.val = none) (pending : task.status = .pending)
      (lifecycle : LifecycleEvent task .pending event)
      (puts : s.Puts (.created task event.timestamp) s') (stores : s.Stores event s') :
      TaskStep s (.create task) event s'
  | move (event : EventEnvelope) (s' : Store) (row : TaskRow) (target : TaskStatus) (updated : Task)
      (found : s.tasks.get? row.key = some row)
      (lifecycle : LifecycleEvent row.taskJson target event)
      (moved : AIHub.transitionTask row.taskJson target event.timestamp = .ok updated)
      (puts : s.Puts (row.moved updated event.timestamp) s') (stores : s.Stores event s') :
      TaskStep s (.move target) event s'
  | assign (event : EventEnvelope) (s' : Store) (row : TaskRow) (agent : Identifier)
      (updated : Task)
      (found : s.tasks.get? row.key = some row) (type : event.eventType = .agentAssigned)
      (taskId : event.taskId = some row.taskJson.taskId) (agentOf : event.agent = some agent)
      (project : event.project = some row.taskJson.project)
      (team : event.team = some row.taskJson.team)
      (status : event.payloadStatus = some (.string row.taskJson.status.value))
      (new : agent ∉ row.taskJson.assignedAgents)
      (assigned : updated.toTaskFields = { row.taskJson.toTaskFields with
        assignedAgents := row.taskJson.assignedAgents ++ [agent] })
      (puts : s.Puts (row.assigned updated event.timestamp) s') (stores : s.Stores event s') :
      TaskStep s (.assign agent) event s'

/-- What the tables of tasks and events promise each other. -/
structure Coherent (s : Store) : Prop where
  json : ∀ k row, s.tasks.get? k = some row → row.taskJson.taskId = row.taskId
  known : ∀ e ∈ s.events, ∀ id ∈ e.envelope.taskId, (s.tasks.get? id.val).isSome
  ordered : s.events.rows.Pairwise (·.sequence < ·.sequence)
  bounded : ∀ e ∈ s.events, e.sequence ≤ s.lastSequence

/-- The tables without tasks and events are the same. -/
structure SameRecords (s s' : Store) : Prop where
  runs : s'.runs = s.runs
  artifacts : s'.artifacts = s.artifacts
  gatewayRequests : s'.gatewayRequests = s.gatewayRequests
  taskRoutes : s'.taskRoutes = s.taskRoutes
  deliveryReceipts : s'.deliveryReceipts = s.deliveryReceipts

/-- Tasks and events are the same. -/
structure SameTasks (s s' : Store) : Prop where
  tasks : s'.tasks = s.tasks
  events : s'.events = s.events
  lastSequence : s'.lastSequence = s.lastSequence

theorem coherent_empty : empty.Coherent where
  json _ _ h := nomatch h
  known _ h := absurd h (Table.not_mem_empty _)
  ordered := List.Pairwise.nil
  bounded _ h := absurd h (Table.not_mem_empty _)

variable {s s' : Store} {write : TaskWrite} {event : EventEnvelope}

theorem SameTasks.coherent (h : s.SameTasks s') (hc : s.Coherent) : s'.Coherent where
  json := h.tasks ▸ hc.json
  known := h.tasks ▸ h.events ▸ hc.known
  ordered := h.events ▸ hc.ordered
  bounded := h.events ▸ h.lastSequence ▸ hc.bounded

theorem Stores.mem (h : s.Stores event s') {e : StoredEvent} :
    e ∈ s'.events ↔ e ∈ s.events ∨ e = ⟨s.lastSequence + 1, event⟩ := by
  simp [Table.mem_def, h.events]

/-- A step keeps the promises, whatever row `row` it writes. -/
theorem Stores.coherent (h : s.Stores event s') (hc : s.Coherent)
    (hrows : ∀ k, (s.tasks.get? k).isSome → (s'.tasks.get? k).isSome)
    (hjson : ∀ k row, s'.tasks.get? k = some row → row.taskJson.taskId = row.taskId) :
    s'.Coherent where
  json := hjson
  known e he id hid := by
    rcases h.mem.1 he with he | rfl
    · exact hrows _ (hc.known e he id hid)
    · exact h.known id hid
  ordered := by
    rw [h.events, List.pairwise_append]
    refine ⟨hc.ordered, List.pairwise_singleton _ _, fun e he e' he' => ?_⟩
    rw [List.mem_singleton] at he'
    subst he'
    exact Nat.lt_succ_of_le (hc.bounded e he)
  bounded e he := by
    rw [h.sequence]
    rcases h.mem.1 he with he | rfl
    · exact Nat.le_succ_of_le (hc.bounded e he)
    · exact le_rfl

theorem Puts.isSome {row : TaskRow} (h : s.Puts row s') {k : String}
    (hk : (s.tasks.get? k).isSome) : (s'.tasks.get? k).isSome := by
  rw [h k]
  split_ifs <;> simp [hk]

theorem Puts.json {row : TaskRow} (h : s.Puts row s') (hc : s.Coherent)
    (hrow : row.taskJson.taskId = row.taskId) (k : String) (r : TaskRow)
    (hr : s'.tasks.get? k = some r) : r.taskJson.taskId = r.taskId := by
  rw [h k] at hr
  split_ifs at hr
  · cases hr
    exact hrow
  · exact hc.json k r hr

/-- A move does not rename the task. -/
theorem taskId_of_moved {task updated : Task} {target : TaskStatus} {time : Timestamp}
    (h : AIHub.transitionTask task target time = .ok updated) :
    updated.taskId = task.taskId := by
  rw [(transitionTask_ok h).2.2.2]
  rfl

theorem TaskStep.coherent (h : s.TaskStep write event s') (hc : s.Coherent) : s'.Coherent := by
  cases h with
  | append _ _ _ htasks hstores =>
    exact hstores.coherent hc (htasks ▸ fun _ => id) (htasks ▸ hc.json)
  | create _ _ task _ _ _ hputs hstores =>
    exact hstores.coherent hc (fun _ => hputs.isSome) (hputs.json hc rfl)
  | move _ _ row target updated hfound _ hmoved hputs hstores =>
    have hrow : updated.taskId = row.taskId := (taskId_of_moved hmoved).trans (hc.json _ _ hfound)
    exact hstores.coherent hc (fun _ => hputs.isSome) (hputs.json hc hrow)
  | assign _ _ row agent updated hfound _ _ _ _ _ _ _ hassigned hputs hstores =>
    have hrow : updated.taskId = row.taskId := by
      rw [hassigned]
      exact hc.json _ _ hfound
    exact hstores.coherent hc (fun _ => hputs.isSome) (hputs.json hc hrow)

end Store

/-! ## Histories -/

/-- What the store holds about one task. -/
structure History where
  row : Option TaskRow
  events : List EventEnvelope

/-- One step of the history of the task `id`, which stores `event`. -/
inductive History.Step (id : TaskId) (event : EventEnvelope) :
    TaskWrite → History → History → Prop
  | append (row : TaskRow) (events : List EventEnvelope) (taskId : event.taskId = some id)
      (type : event.eventType ∉ atomicTaskEventTypes) :
      Step id event .append ⟨some row, events⟩ ⟨some row, events ++ [event]⟩
  | create (task : Task) (taskId : task.taskId = id) (pending : task.status = .pending)
      (lifecycle : LifecycleEvent task .pending event) :
      Step id event (.create task) ⟨none, []⟩ ⟨some (.created task event.timestamp), [event]⟩
  | move (row : TaskRow) (events : List EventEnvelope) (target : TaskStatus) (updated : Task)
      (taskId : row.taskJson.taskId = id) (lifecycle : LifecycleEvent row.taskJson target event)
      (moved : AIHub.transitionTask row.taskJson target event.timestamp = .ok updated) :
      Step id event (.move target) ⟨some row, events⟩
        ⟨some (row.moved updated event.timestamp), events ++ [event]⟩
  | assign (row : TaskRow) (events : List EventEnvelope) (agent : Identifier) (updated : Task)
      (taskId : row.taskJson.taskId = id) (type : event.eventType = .agentAssigned)
      (taskIdOf : event.taskId = some row.taskJson.taskId) (agentOf : event.agent = some agent)
      (project : event.project = some row.taskJson.project)
      (team : event.team = some row.taskJson.team)
      (status : event.payloadStatus = some (.string row.taskJson.status.value))
      (new : agent ∉ row.taskJson.assignedAgents)
      (assigned : updated.toTaskFields = { row.taskJson.toTaskFields with
        assignedAgents := row.taskJson.assignedAgents ++ [agent] }) :
      Step id event (.assign agent) ⟨some row, events⟩
        ⟨some (row.assigned updated event.timestamp), events ++ [event]⟩

/-- The history of one task as a system. A label is what is written, with the event. -/
def historySystem (id : TaskId) : System History (TaskWrite × EventEnvelope) where
  init h := h = ⟨none, []⟩
  step h a h' := History.Step id a.2 a.1 h h'

theorem History.Step.taskId {id : TaskId} {write : TaskWrite} {event : EventEnvelope}
    {h h' : History} (hs : History.Step id event write h h') : event.taskId = some id := by
  cases hs with
  | append row events taskId type => exact taskId
  | create task taskId _ lifecycle => exact taskId ▸ lifecycle.taskId
  | move row events target updated taskId lifecycle _ => exact taskId ▸ lifecycle.taskId
  | assign row events agent updated taskId _ taskIdOf => exact taskId ▸ taskIdOf

/-- A history is about the task it is the history of. -/
theorem history_named {id : TaskId} {h : History} (hr : (historySystem id).Reachable h) :
    ∀ row, h.row = some row → row.taskJson.taskId = id := by
  have hI : (historySystem id).Invariant fun h =>
      ∀ row, h.row = some row → row.taskJson.taskId = id := {
    init := by
      rintro _ rfl row ⟨⟩
    step := by
      rintro h ⟨write, event⟩ h' hh hs row' hrow'
      cases hs with
      | append row events _ _ => exact hh row' hrow'
      | create task htask _ _ =>
        cases hrow'
        exact htask
      | move row events target updated htask _ hmoved =>
        cases hrow'
        exact (Store.taskId_of_moved hmoved).trans htask
      | assign row events agent updated htask _ _ _ _ _ _ _ hassigned =>
        cases hrow'
        exact (congrArg TaskFields.taskId hassigned).trans htask }
  exact hI.reachable hr

namespace Store

variable {s s' s'' : Store} {write : TaskWrite} {event : EventEnvelope}

def history (s : Store) (id : TaskId) : History := ⟨s.tasks.get? id.val, s.taskEvents id⟩

theorem SameTasks.history (h : s.SameTasks s') (id : TaskId) :
    s'.history id = s.history id := by
  simp only [Store.history, taskEvents, h.tasks, h.events]

theorem Stores.taskEvents (h : s.Stores event s') (id : TaskId) :
    s'.taskEvents id = s.taskEvents id ++ if event.taskId = some id then [event] else [] := by
  simp [Store.taskEvents, h.events, List.filter_cons]

/-- A task without a row has no events. -/
theorem Coherent.taskEvents_eq_nil (hc : s.Coherent) {id : TaskId}
    (h : s.tasks.get? id.val = none) : s.taskEvents id = [] := by
  simp only [Store.taskEvents, List.filter_eq_nil_iff, List.mem_map, decide_eq_true_eq]
  rintro e ⟨stored, hstored, rfl⟩ hid
  have hsome := hc.known stored hstored id hid
  simp [h] at hsome

theorem Puts.get?_self {row : TaskRow} (h : s.Puts row s') :
    s'.tasks.get? row.key = some row := by
  rw [h, if_pos rfl]

theorem Puts.get?_of_ne {row : TaskRow} {k : String} (h : s.Puts row s') (hk : row.key ≠ k) :
    s'.tasks.get? k = s.tasks.get? k := by
  rw [h, if_neg hk]

theorem Puts.trans {row row' : TaskRow} (h : s.Puts row s') (h' : s'.Puts row' s'')
    (hk : row'.key = row.key) : s.Puts row' s'' := by
  intro k
  rw [h' k, h k, hk]
  split_ifs <;> rfl

theorem Coherent.key_eq (hc : s.Coherent) {row : TaskRow}
    (h : s.tasks.get? row.key = some row) : row.key = row.taskJson.taskId.val := by
  rw [hc.json _ _ h]
  rfl

/-- A step is a step of the history of the task its event names. -/
theorem TaskStep.history_self (h : s.TaskStep write event s') (hc : s.Coherent) {id : TaskId}
    (hid : event.taskId = some id) :
    (historySystem id).step (s.history id) (write, event) (s'.history id) := by
  cases h with
  | append _ _ htype htasks hstores =>
    obtain ⟨row, hrow⟩ := Option.isSome_iff_exists.1 (hstores.known id hid)
    rw [htasks] at hrow
    simp only [Store.history, htasks, hstores.taskEvents, hid, if_true, hrow]
    exact .append row _ hid htype
  | create _ _ task hnew hpending hlife hputs hstores =>
    obtain rfl : task.taskId = id := Option.some.inj (hlife.taskId.symm.trans hid)
    have hself := hputs.get?_self
    simp only [Store.history, hstores.taskEvents, hid, if_true, hnew, hc.taskEvents_eq_nil hnew,
      List.nil_append]
    rw [TaskRow.key_created] at hself
    rw [hself]
    exact .create task rfl hpending hlife
  | move _ _ row target updated hfound hlife hmoved hputs hstores =>
    obtain rfl : row.taskJson.taskId = id := Option.some.inj (hlife.taskId.symm.trans hid)
    have hkey := hc.key_eq hfound
    have hself := hputs.get?_self
    simp only [Store.history, hstores.taskEvents, hid, if_true, ← hkey, hfound]
    rw [TaskRow.key_moved] at hself
    rw [hself]
    exact .move row _ target updated rfl hlife hmoved
  | assign _ _ row agent updated hfound htype htask hagent hproject hteam hstatus hnew hassigned
      hputs hstores =>
    obtain rfl : row.taskJson.taskId = id := Option.some.inj (htask.symm.trans hid)
    have hkey := hc.key_eq hfound
    have hself := hputs.get?_self
    simp only [Store.history, hstores.taskEvents, hid, if_true, ← hkey, hfound]
    rw [TaskRow.key_assigned] at hself
    rw [hself]
    exact .assign row _ agent updated rfl htype htask hagent hproject hteam hstatus hnew hassigned

/-- A step leaves the row of every task alone that its event does not name. -/
theorem TaskStep.get?_of_ne (h : s.TaskStep write event s') (hc : s.Coherent) {id : TaskId}
    (hid : event.taskId ≠ some id) : s'.tasks.get? id.val = s.tasks.get? id.val := by
  cases h with
  | append _ _ _ htasks _ => rw [htasks]
  | create _ _ task _ _ hlife hputs _ =>
    refine hputs.get?_of_ne fun hk => hid ?_
    rw [TaskRow.key_created] at hk
    rw [hlife.taskId, Constrained.val_inj.1 hk]
  | move _ _ row target updated hfound hlife _ hputs _ =>
    refine hputs.get?_of_ne fun hk => hid ?_
    rw [TaskRow.key_moved, hc.key_eq hfound] at hk
    rw [hlife.taskId, Constrained.val_inj.1 hk]
  | assign _ _ row agent updated hfound _ htask _ _ _ _ _ _ hputs _ =>
    refine hputs.get?_of_ne fun hk => hid ?_
    rw [TaskRow.key_assigned, hc.key_eq hfound] at hk
    rw [htask, Constrained.val_inj.1 hk]

theorem TaskStep.stores (h : s.TaskStep write event s') : s.Stores event s' := by
  cases h with
  | append _ _ _ _ hstores => exact hstores
  | create _ _ _ _ _ _ _ hstores => exact hstores
  | move _ _ _ _ _ _ _ _ _ hstores => exact hstores
  | assign _ _ _ _ _ _ _ _ _ _ _ _ _ _ _ hstores => exact hstores

theorem TaskStep.history_of_ne (h : s.TaskStep write event s') (hc : s.Coherent) {id : TaskId}
    (hid : event.taskId ≠ some id) : s'.history id = s.history id := by
  simp only [Store.history, h.get?_of_ne hc hid, h.stores.taskEvents, if_neg hid, List.append_nil]

/-! ## The operations -/

theorem taskRow_ok {taskId : String} {row : TaskRow} :
    s.taskRow taskId = .ok row ↔ s.tasks.get? taskId = some row := by
  unfold taskRow
  cases s.tasks.get? taskId <;> simp

/-- A stored event is found again, or `event` is stored last. -/
theorem appendEventLocked_ok {operation : String} {b : Bool}
    (h : appendEventLocked operation event s = .ok (b, s')) :
    (s.eventJsonLocked event.eventId = some event ∧ s' = s) ∨
      (s.Stores event s' ∧ s'.tasks = s.tasks ∧ s.SameRecords s') := by
  unfold appendEventLocked at h
  split at h
  · rename_i existing hexisting
    split_ifs at h with heq
    cases h
    exact .inl ⟨by rw [eventJsonLocked, hexisting, Option.map_some, heq], rfl⟩
  · rename_i hfresh
    split_ifs at h with hknown
    cases h
    rw [Bool.not_eq_true, any_eq_false_iff] at hknown
    refine .inr ⟨⟨hfresh, fun id hid => ?_, rfl, rfl⟩, rfl, ⟨rfl, rfl, rfl, rfl, rfl⟩⟩
    simpa using hknown id hid

theorem appendEventLocked_fresh {operation : String} {b : Bool}
    (h : appendEventLocked operation event s = .ok (b, s'))
    (hfresh : s.eventJsonLocked event.eventId = none) :
    s.Stores event s' ∧ s'.tasks = s.tasks ∧ s.SameRecords s' := by
  rcases appendEventLocked_ok h with ⟨hstored, _⟩ | h
  · rw [hfresh] at hstored
    cases hstored
  · exact h

/-- The row that `update` finds by its key and version is rewritten, and no other. -/
theorem get?_updateTask {row : TaskRow} {f : TaskRow → TaskRow} {hf : ∀ r, (f r).key = r.key}
    {taskId : String} {version : Nat} (h : s.tasks.get? taskId = some row)
    (hv : row.version = version) (k : String) :
    (s.updateTask taskId version f hf).tasks.get? k =
      if taskId = k then some (f row) else s.tasks.get? k := by
  rw [updateTask, Table.get?_update]
  by_cases hk : taskId = k
  · subst hk
    simp [h, Table.key_of_get? h, hv]
  · rw [if_neg hk]
    cases hr : s.tasks.get? k with
    | none => rfl
    | some r =>
      have hne : ¬ k = taskId := fun h => hk h.symm
      simp [Table.key_of_get? hr, hne]

/-- Write `row`, then store `event`. -/
theorem Stores.of_write {s₁ : Store} (h : s₁.Stores event s') (hevents : s₁.events = s.events)
    (hseq : s₁.lastSequence = s.lastSequence) : s.Stores event s' where
  fresh := hevents ▸ h.fresh
  known := h.known
  events := hevents ▸ hseq ▸ h.events
  sequence := hseq ▸ h.sequence

theorem SameRecords.trans (h : s.SameRecords s') (h' : s'.SameRecords s'') :
    s.SameRecords s'' :=
  ⟨h'.1.trans h.1, h'.2.trans h.2, h'.3.trans h.3, h'.4.trans h.4, h'.5.trans h.5⟩

/-- An event that is stored names a task with a row. -/
theorem Coherent.isSome_of_stored (hc : s.Coherent) {id : TaskId}
    (h : s.eventJsonLocked event.eventId = some event) (hid : event.taskId = some id) :
    (s.tasks.get? id.val).isSome := by
  obtain ⟨stored, hstored, he⟩ := Option.map_eq_some_iff.1 h
  exact hc.known stored (Table.get?_eq_some.1 hstored).1 id (he ▸ hid)

/-- `INSERT` a task and store the event that creates it. -/
theorem create_step {task : Task} {operation : String} {tasks : Table TaskRow.key} {b : Bool}
    (hc : s.Coherent) (hpending : task.status = .pending)
    (hlife : LifecycleEvent task .pending event)
    (hinsert : insertRow operation s.tasks (.created task event.timestamp) = .ok tasks)
    (happend : appendEventLocked operation event { s with tasks } = .ok (b, s')) :
    s.TaskStep (.create task) event s' ∧ s.SameRecords s' ∧
      s.Puts (.created task event.timestamp) s' := by
  obtain ⟨hnew, rfl⟩ := insertRow_ok hinsert
  have hfresh : s.eventJsonLocked event.eventId = none := by
    by_contra hne
    rcases appendEventLocked_ok happend with ⟨hstored, _⟩ | ⟨hstores, _⟩
    · have hsome := hc.isSome_of_stored (s := s) hstored hlife.taskId
      rw [TaskRow.key_created] at hnew
      simp [hnew] at hsome
    · exact hne (by rw [eventJsonLocked, hstores.fresh]; rfl)
  obtain ⟨hstores, htasks, hsame⟩ := appendEventLocked_fresh happend hfresh
  have hputs : s.Puts (.created task event.timestamp) s' := fun k => by
    rw [htasks, Table.get?_insert]
  refine ⟨.create event s' task hnew hpending hlife hputs (hstores.of_write rfl rfl), ?_, hputs⟩
  exact ⟨hsame.1, hsame.2, hsame.3, hsame.4, hsame.5⟩

theorem createTask_ok {task created : Task} (hc : s.Coherent)
    (h : createTask task event s = .ok (created, s')) :
    s.TaskStep (.create task) event s' ∧ s.SameRecords s' ∧ created = task := by
  simp only [createTask, bind_eq_ok, raiseIf_eq_ok, Prod.exists, pure_eq_ok, not_not] at h
  obtain ⟨_, hpending, _, hlife, _, _, tasks, hinsert, b, s₁, happend, h⟩ := h
  cases h
  obtain ⟨hstep, hsame, _⟩ :=
    create_step hc hpending (validateLifecycleEvent_ok.1 hlife) hinsert happend
  exact ⟨hstep, hsame, rfl⟩

/-- A row found at `taskId` is rewritten. -/
theorem updateTask_puts {row row' : TaskRow} {taskId : String} {f : TaskRow → TaskRow}
    {hf : ∀ r, (f r).key = r.key} (hfound : s.tasks.get? taskId = some row)
    (htasks : s'.tasks = (s.updateTask taskId row.version f hf).tasks) (hrow : f row = row') :
    s.Puts row' s' := by
  intro k
  have hkey : row'.key = taskId := by
    rw [← hrow, hf]
    exact Table.key_of_get? hfound
  rw [htasks, get?_updateTask hfound rfl, hrow, hkey]

theorem transitionTask_ok {taskId : String} {target : TaskStatus} {t : Task}
    (h : transitionTask taskId target event s = .ok (t, s')) :
    ∃ row, s.tasks.get? taskId = some row ∧ LifecycleEvent row.taskJson target event ∧
      ((s.eventJsonLocked event.eventId = some event ∧ t = row.taskJson ∧ s' = s) ∨
        (AIHub.transitionTask row.taskJson target event.timestamp = .ok t ∧
          s.TaskStep (.move target) event s' ∧ s.Puts (row.moved t event.timestamp) s' ∧
          s.SameRecords s')) := by
  simp only [transitionTask, bind_eq_ok] at h
  obtain ⟨row, hfound, _, hlife, h⟩ := h
  rw [taskRow_ok] at hfound
  rw [validateLifecycleEvent_ok] at hlife
  refine ⟨row, hfound, hlife, ?_⟩
  cases hstored : s.eventJsonLocked event.eventId with
  | some existing =>
    simp only [hstored, bind_eq_ok, raiseIf_eq_ok, pure_eq_ok, not_not] at h
    obtain ⟨_, rfl, h⟩ := h
    cases h
    exact .inl ⟨rfl, rfl, rfl⟩
  | none =>
    simp only [hstored, bind_eq_ok, Prod.exists, pure_eq_ok] at h
    obtain ⟨updated, hmoved, b, s₁, happend, h⟩ := h
    cases h
    obtain ⟨hstores, htasks, hsame⟩ := appendEventLocked_fresh happend hstored
    have hkey : row.key = taskId := Table.key_of_get? hfound
    have hputs : s.Puts (row.moved t event.timestamp) s' := updateTask_puts hfound htasks rfl
    refine .inr ⟨hmoved, ?_, hputs, ⟨hsame.1, hsame.2, hsame.3, hsame.4, hsame.5⟩⟩
    exact .move event s' row target t (hkey ▸ hfound) hlife hmoved hputs (hstores.of_write rfl rfl)

/-- A new event whose task has a row is stored, also after an update. -/
theorem appendEventLocked_update (operation : String) {taskId : String} {version : Nat}
    {f : TaskRow → TaskRow} {hf : ∀ r, (f r).key = r.key}
    (hfresh : s.events.get? event.eventId = none)
    (hknown : ∀ id ∈ event.taskId, (s.tasks.get? id.val).isSome) :
    ∃ s', appendEventLocked operation event (s.updateTask taskId version f hf) =
      .ok (true, s') := by
  have hany : (event.taskId.any fun id =>
      ((s.updateTask taskId version f hf).tasks.get? id.val).isNone) = false := by
    refine any_eq_false_iff.2 fun id hid => ?_
    rw [updateTask, Table.get?_update]
    simpa using hknown id hid
  unfold appendEventLocked
  split
  · rename_i existing hexisting
    have hsome : s.events.get? event.eventId = some existing := hexisting
    rw [hfresh] at hsome
    cases hsome
  · rw [hany]
    exact ⟨_, rfl⟩

/-- Nothing refuses a legal move whose event is new. -/
theorem transitionTask_commits {taskId : String} {target : TaskStatus} {row : TaskRow}
    {updated : Task} (hc : s.Coherent) (hfound : s.tasks.get? taskId = some row)
    (hlife : LifecycleEvent row.taskJson target event)
    (hfresh : s.events.get? event.eventId = none)
    (hmoved : AIHub.transitionTask row.taskJson target event.timestamp = .ok updated) :
    ∃ s', transitionTask taskId target event s = .ok (updated, s') := by
  have hkey : row.key = taskId := Table.key_of_get? hfound
  have hid : row.taskJson.taskId.val = taskId := (hc.key_eq (hkey ▸ hfound)).symm.trans hkey
  have hstored : s.eventJsonLocked event.eventId = none := Option.map_eq_none_iff.2 hfresh
  have hknown : ∀ id ∈ event.taskId, (s.tasks.get? id.val).isSome := by
    intro id hmem
    obtain rfl := Option.some.inj (hlife.taskId.symm.trans hmem)
    rw [hid, hfound]
    rfl
  obtain ⟨s', happend⟩ := appendEventLocked_update "transition task" hfresh hknown
  refine ⟨s', ?_⟩
  simp only [transitionTask, bind_eq_ok]
  refine ⟨row, taskRow_ok.2 hfound, (), validateLifecycleEvent_ok.2 hlife, ?_⟩
  simp only [hstored, bind_eq_ok, Prod.exists, pure_eq_ok]
  exact ⟨updated, hmoved, true, s', happend, rfl⟩

/-- Nothing refuses a new task whose event is new. -/
theorem createTask_commits {task : Task} (hpending : task.status = .pending)
    (hlife : LifecycleEvent task .pending event) (hnew : s.tasks.get? task.taskId.val = none)
    (hfresh : s.events.get? event.eventId = none) :
    ∃ s', createTask task event s = .ok (task, s') := by
  have hrow : s.tasks.get? (TaskRow.created task event.timestamp).key = none := hnew
  have hknown : (event.taskId.any fun id =>
      ((s.tasks.insert (.created task event.timestamp) hrow).get? id.val).isNone) = false := by
    refine any_eq_false_iff.2 fun id hid => ?_
    obtain rfl := Option.some.inj (hlife.taskId.symm.trans hid)
    rw [Table.get?_insert, if_pos (TaskRow.key_created task event.timestamp)]
    rfl
  obtain ⟨s', happend⟩ : ∃ s', appendEventLocked "create task" event { s with
      tasks := s.tasks.insert (.created task event.timestamp) hrow } = .ok (true, s') := by
    unfold appendEventLocked
    split
    · rename_i existing hexisting
      cases hfresh.symm.trans hexisting
    · rw [hknown]
      exact ⟨_, rfl⟩
  refine ⟨s', ?_⟩
  simp only [createTask, bind_eq_ok, raiseIf_eq_ok, pure_eq_ok]
  exact ⟨(), not_not.2 hpending, (), validateLifecycleEvent_ok.2 hlife, (), by simp [hnew],
    _, insertRow_of_free hrow, (true, s'), happend, rfl⟩

theorem assignTask_ok {taskId : String} {agent : Identifier} {t : Task}
    (h : assignTask taskId agent event s = .ok (t, s')) :
    ∃ row, s.tasks.get? taskId = some row ∧ event.eventType = .agentAssigned ∧
      event.taskId = some row.taskJson.taskId ∧
      ((s.eventJsonLocked event.eventId = some event ∧ t = row.taskJson ∧ s' = s) ∨
        (s.TaskStep (.assign agent) event s' ∧ s.Puts (row.assigned t event.timestamp) s' ∧
          s.SameRecords s' ∧
          t.toTaskFields = { row.taskJson.toTaskFields with
            assignedAgents := row.taskJson.assignedAgents ++ [agent] })) := by
  simp only [assignTask, bind_eq_ok, raiseIf_eq_ok, not_or, not_not] at h
  obtain ⟨row, hfound, _, htype, _, ⟨htask, hagent⟩, _, ⟨hproject, hteam⟩, h⟩ := h
  rw [taskRow_ok] at hfound
  refine ⟨row, hfound, htype, htask, ?_⟩
  cases hstored : s.eventJsonLocked event.eventId with
  | some existing =>
    simp only [hstored, bind_eq_ok, raiseIf_eq_ok, pure_eq_ok, not_not] at h
    obtain ⟨_, rfl, h⟩ := h
    cases h
    exact .inl ⟨rfl, rfl, rfl⟩
  | none =>
    simp only [hstored, bind_eq_ok, raiseIf_eq_ok, Prod.exists, pure_eq_ok, not_not] at h
    obtain ⟨_, hstatus, _, hnew, updated, hvalid, b, s₁, happend, h⟩ := h
    cases h
    rw [Task.modelValidate_eq_ok] at hvalid
    obtain ⟨hstores, htasks, hsame⟩ := appendEventLocked_fresh happend hstored
    have hkey : row.key = taskId := Table.key_of_get? hfound
    have hputs : s.Puts (row.assigned t event.timestamp) s' := updateTask_puts hfound htasks rfl
    refine .inr ⟨?_, hputs, ⟨hsame.1, hsame.2, hsame.3, hsame.4, hsame.5⟩, hvalid⟩
    exact .assign event s' row agent t (hkey ▸ hfound) htype htask hagent hproject hteam hstatus
      hnew hvalid hputs (hstores.of_write rfl rfl)

theorem appendEvent_ok {b : Bool} (h : appendEvent event s = .ok (b, s')) :
    (s' = s ∨ s.TaskStep .append event s') ∧ s.SameRecords s' := by
  simp only [appendEvent, bind_eq_ok, raiseIf_eq_ok] at h
  obtain ⟨_, htype, happend⟩ := h
  rcases appendEventLocked_ok happend with ⟨_, rfl⟩ | ⟨hstores, htasks, hsame⟩
  · exact ⟨.inl rfl, ⟨rfl, rfl, rfl, rfl, rfl⟩⟩
  · exact ⟨.inr (.append event s' htype htasks hstores), hsame⟩

/-- What a successful `create_queued_task` has done. -/
structure QueuedCreation (s : Store) (task : Task) (createdEvent queuedEvent : EventEnvelope)
    (route : Option TaskRoute) (queued : Task) (s' : Store) : Prop where
  steps : ∃ s₁, s.TaskStep (.create task) createdEvent s₁ ∧
    s₁.TaskStep (.move .queued) queuedEvent s' ∧
    s₁.history task.taskId = ⟨some (.created task createdEvent.timestamp), [createdEvent]⟩
  order : createdEvent.timestamp ≤ queuedEvent.timestamp
  new : s.tasks.get? task.taskId.val = none
  created : LifecycleEvent task .pending createdEvent
  queuedBy : LifecycleEvent task .queued queuedEvent
  moved : AIHub.transitionTask task .queued queuedEvent.timestamp = .ok queued
  puts : s.Puts
    ((TaskRow.created task createdEvent.timestamp).moved queued queuedEvent.timestamp) s'
  routed : ∀ r ∈ route, r.taskId = task.taskId
  routes : s'.taskRoutes.rows = s.taskRoutes.rows ++ route.toList
  runs : s'.runs = s.runs
  gatewayRequests : s'.gatewayRequests = s.gatewayRequests
  deliveryReceipts : s'.deliveryReceipts = s.deliveryReceipts

/-- After its creation, a task has one event. -/
theorem TaskStep.taskEvents_create {id : TaskId} (h : s.TaskStep write event s') (hc : s.Coherent)
    (hnew : s.tasks.get? id.val = none) (hid : event.taskId = some id) :
    s'.taskEvents id = [event] := by
  rw [h.stores.taskEvents, if_pos hid, hc.taskEvents_eq_nil hnew, List.nil_append]

theorem mem_taskEvents_of_stored {id : TaskId} (h : s.eventJsonLocked event.eventId = some event)
    (hid : event.taskId = some id) : event ∈ s.taskEvents id := by
  obtain ⟨stored, hstored, he⟩ := Option.map_eq_some_iff.1 h
  rw [Store.taskEvents, List.mem_filter]
  exact ⟨he ▸ List.mem_map_of_mem (Table.get?_eq_some.1 hstored).1, by simpa using hid⟩

/-- The second half of `create_queued_task`, from the store with the new row and the route. -/
theorem queue_step {task queued : Task} {createdEvent queuedEvent : EventEnvelope}
    {routes : Table TaskRoute.key} {f : TaskRow → TaskRow} {hf : ∀ r, (f r).key = r.key}
    {operation : String} {b : Bool}
    (hevents : s.taskEvents task.taskId = [createdEvent])
    (hcreated : LifecycleEvent task .pending createdEvent)
    (hqueued : LifecycleEvent task .queued queuedEvent)
    (hmoved : AIHub.transitionTask task .queued queuedEvent.timestamp = .ok queued)
    (hfound : s.tasks.get? task.taskId.val = some (.created task createdEvent.timestamp))
    (hrow : f (.created task createdEvent.timestamp) =
      (TaskRow.created task createdEvent.timestamp).moved queued queuedEvent.timestamp)
    (happend : appendEventLocked operation queuedEvent
      ({ s with taskRoutes := routes }.updateTask queued.taskId.val 1 f hf) = .ok (b, s')) :
    s.TaskStep (.move .queued) queuedEvent s' ∧ s.Puts
        ((TaskRow.created task createdEvent.timestamp).moved queued queuedEvent.timestamp) s' ∧
      s'.taskRoutes = routes ∧ s'.runs = s.runs ∧ s'.gatewayRequests = s.gatewayRequests ∧
      s'.deliveryReceipts = s.deliveryReceipts := by
  rw [taskId_of_moved hmoved] at happend
  rcases appendEventLocked_ok happend with ⟨hstored, _⟩ | ⟨hstores, htasks, hsame⟩
  · -- The one event of the task creates it, so the event that queues it is not stored yet.
    have hmem := mem_taskEvents_of_stored (s := s) hstored hqueued.taskId
    rw [hevents, List.mem_singleton] at hmem
    have htype := hqueued.type
    rw [hmem, hcreated.type] at htype
    exact absurd htype (by decide)
  · have hputs : s.Puts
        ((TaskRow.created task createdEvent.timestamp).moved queued queuedEvent.timestamp) s' :=
      updateTask_puts (s := s) (f := f) hfound htasks hrow
    refine ⟨?_, hputs, hsame.taskRoutes, hsame.runs, hsame.gatewayRequests,
      hsame.deliveryReceipts⟩
    exact .move queuedEvent s' (.created task createdEvent.timestamp) .queued queued hfound hqueued
      hmoved hputs (hstores.of_write rfl rfl)

/-- Creating and queueing a task are two steps; the first stores `createdEvent`. -/
theorem createQueuedTask_ok {task queued : Task} {createdEvent queuedEvent : EventEnvelope}
    {route : Option TaskRoute} (hc : s.Coherent)
    (h : createQueuedTask task createdEvent queuedEvent route s = .ok (queued, s')) :
    s.QueuedCreation task createdEvent queuedEvent route queued s' := by
  simp only [createQueuedTask, bind_eq_ok, raiseIf_eq_ok, Prod.exists, not_not] at h
  obtain ⟨_, hpending, _, hcreated, _, hqueued, _, htime, _, hroute, q, hmoved, _, hdup, tasks,
    hinsert, b, s₁, happend, h⟩ := h
  rw [validateLifecycleEvent_ok] at hcreated hqueued
  rw [Bool.not_eq_true, any_eq_false_iff] at hroute
  have hroute' : ∀ r ∈ route, r.taskId = task.taskId := fun r hr => by simpa using hroute r hr
  have hnew : s.tasks.get? task.taskId.val = none := by simpa using hdup
  obtain ⟨hstep, hsame, hput⟩ := create_step hc hpending hcreated hinsert happend
  have hfound := hput.get?_self
  have hevents := hstep.taskEvents_create hc hnew hcreated.taskId
  obtain ⟨routes, b', s₂, hroutes, happend', h⟩ : ∃ routes b' s₂,
      routes.rows = s.taskRoutes.rows ++ route.toList ∧
      appendEventLocked "create queued task" queuedEvent
        ({ s₁ with taskRoutes := routes }.updateTask q.taskId.val 1
          (fun r => { r with
            status := q.status
            updatedAt := queuedEvent.timestamp
            version := 2
            taskJson := q }) fun _ => rfl) = .ok (b', s₂) ∧ (q, s₂) = (queued, s') := by
    cases route with
    | none =>
      simp only [bind_eq_ok, pure_eq_ok, Prod.exists] at h
      obtain ⟨routes, rfl, b', s₂, h₁, h₂⟩ := h
      exact ⟨_, b', s₂, by simp [hsame.taskRoutes], h₁, h₂⟩
    | some r =>
      simp only [bind_eq_ok, pure_eq_ok, Prod.exists] at h
      obtain ⟨routes, hr, b', s₂, h₁, h₂⟩ := h
      obtain ⟨hfree, rfl⟩ := insertRow_ok hr
      exact ⟨_, b', s₂, by simp [hsame.taskRoutes], h₁, h₂⟩
  cases h
  obtain ⟨hstep', hputs, hroutes', hruns, hrequests, hreceipts⟩ :=
    queue_step hevents hcreated hqueued hmoved hfound rfl happend'
  exact {
    steps := ⟨s₁, hstep, hstep', congrArg₂ History.mk hfound hevents⟩
    order := Timestamp.not_lt.1 htime
    new := hnew
    created := hcreated
    queuedBy := hqueued
    moved := hmoved
    puts := hput.trans hputs rfl
    routed := hroute'
    routes := hroutes'.symm ▸ hroutes
    runs := hruns.trans hsame.runs
    gatewayRequests := hrequests.trans hsame.gatewayRequests
    deliveryReceipts := hreceipts.trans hsame.deliveryReceipts }

/-! ## Restart reconciliation -/

/-- A loop whose body keeps a relation between the stores keeps it. -/
theorem forEach_rel {α β : Type} {R : Store → Store → Prop} {body : α → Store → Except HubError
    (β × Store)} (refl : ∀ s, R s s) (trans : ∀ s s' s'', R s s' → R s' s'' → R s s'')
    (hbody : ∀ a s b s', body a s = .ok (b, s') → R s s') {as : List α} {bs : List β} :
    ∀ {s s' : Store}, forEach body as s = .ok (bs, s') → R s s' := by
  induction as generalizing bs with
  | nil =>
    intro s s' h
    cases h
    exact refl s
  | cons a as ih =>
    intro s s' h
    simp only [forEach, bind_eq_ok, Prod.exists, pure_eq_ok] at h
    obtain ⟨b, s₁, hb, bs', s₂, hbs, h⟩ := h
    cases h
    exact trans _ _ _ (hbody a s b s₁ hb) (ih hbs)

theorem SameTasks.refl (s : Store) : s.SameTasks s := ⟨rfl, rfl, rfl⟩

theorem SameTasks.trans (h : s.SameTasks s') (h' : s'.SameTasks s'') : s.SameTasks s'' :=
  ⟨h'.1.trans h.1, h'.2.trans h.2, h'.3.trans h.3⟩

theorem interruptRun_sameTasks {time : Timestamp} {row : RunRow} {run : RunRecord}
    (h : interruptRun time row s = .ok (run, s')) : s.SameTasks s' := by
  simp only [interruptRun, bind_eq_ok, pure_eq_ok] at h
  obtain ⟨_, _, h⟩ := h
  cases h
  exact ⟨rfl, rfl, rfl⟩

theorem blockInterruptedTask_ok {time : Timestamp} {uuid4 : TaskId → Uuid} {row : TaskRow}
    {out : Task × StoredEvent} (hc : s.Coherent) (hfound : s.tasks.get? row.key = some row)
    (hfresh : s.events.get? (uuid4 row.taskJson.taskId) = none)
    (h : blockInterruptedTask time uuid4 row s = .ok (out, s')) :
    ∃ event updated, event.toEventFields =
        interruptionEvent time (uuid4 row.taskJson.taskId) row.taskJson ∧
      s.TaskStep (.move .blocked) event s' ∧ s.Puts (row.moved updated time) s' ∧
      s.SameRecords s' := by
  simp only [blockInterruptedTask, bind_eq_ok, Prod.exists] at h
  obtain ⟨event, hevent, blocked, hmoved, b, s₁, happend, h⟩ := h
  rw [EventEnvelope.modelValidate_eq_ok] at hevent
  have hs : s₁ = s' := by
    split at h
    · rw [pure_eq_ok] at h
      exact congrArg Prod.snd h
    · exact absurd h (by simp)
  subst hs
  have hid : event.eventId = uuid4 row.taskJson.taskId := congrArg EventFields.eventId hevent
  have htime : event.timestamp = time := congrArg EventFields.timestamp hevent
  rw [taskId_of_moved hmoved, ← hc.key_eq hfound] at happend
  obtain ⟨hstores, htasks, hsame⟩ := appendEventLocked_fresh happend (by
    rw [hid]
    exact Option.map_eq_none_iff.2 hfresh)
  have hputs : s.Puts (row.moved blocked time) s₁ := updateTask_puts hfound htasks rfl
  have hlife : LifecycleEvent row.taskJson .blocked event := by
    constructor
    all_goals
      rw [hevent]
      rfl
  refine ⟨event, blocked, hevent, ?_, hputs, ⟨hsame.1, hsame.2, hsame.3, hsame.4, hsame.5⟩⟩
  rw [← htime] at hmoved hputs
  exact .move event s₁ row .blocked blocked hfound hlife hmoved hputs (hstores.of_write rfl rfl)

/-- The ids drawn for the rows are neither stored nor drawn for two tasks. -/
structure FreshIds (s : Store) (rows : List TaskRow) (uuid4 : TaskId → Uuid) : Prop where
  free : ∀ row ∈ rows, s.events.get? (uuid4 row.taskId) = none
  distinct : ∀ row ∈ rows, ∀ row' ∈ rows, uuid4 row.taskId = uuid4 row'.taskId →
    row.taskId = row'.taskId

/-- The loop over the interrupted tasks makes at most one step for each task, and this step is
the one it would make from the store before the loop. -/
theorem forEach_blockInterruptedTask {time : Timestamp} {uuid4 : TaskId → Uuid} :
    ∀ {rows : List TaskRow} {s s' : Store} {out : List (Task × StoredEvent)}, s.Coherent →
      (∀ row ∈ rows, s.tasks.get? row.key = some row) → (rows.map TaskRow.key).Nodup →
      s.FreshIds rows uuid4 →
      forEach (blockInterruptedTask time uuid4) rows s = .ok (out, s') →
      s'.Coherent ∧ s.SameRecords s' ∧ ∀ id, s'.history id = s.history id ∨
        ∃ row ∈ rows, ∃ event : EventEnvelope, row.taskId = id ∧ event.toEventFields =
          interruptionEvent time (uuid4 row.taskJson.taskId) row.taskJson ∧
          s.events.get? event.eventId = none ∧
          (historySystem id).step (s.history id) (.move .blocked, event) (s'.history id)
  | [], s, s', out, hc, _, _, _, h => by
    cases h
    exact ⟨hc, ⟨rfl, rfl, rfl, rfl, rfl⟩, fun id => .inl rfl⟩
  | row :: rows, s, s', out, hc, hfound, hnodup, hfresh, h => by
    simp only [forEach, bind_eq_ok, Prod.exists, pure_eq_ok] at h
    obtain ⟨o₁, o₂, s₁, hbody, os, s₂, hloop, h⟩ := h
    cases h
    rw [List.map_cons, List.nodup_cons] at hnodup
    have hrow := hfound row (by simp)
    have hjson : row.taskJson.taskId = row.taskId := hc.json _ _ hrow
    obtain ⟨event, updated, hevent, hstep, hputs, hsame⟩ :=
      blockInterruptedTask_ok hc hrow (hjson ▸ hfresh.free row (by simp)) hbody
    have hne : ∀ r ∈ rows, row.taskId ≠ r.taskId := fun r hr heq =>
      hnodup.1 (List.mem_map.2 ⟨r, hr, congrArg Constrained.val heq.symm⟩)
    have hc₁ := hstep.coherent hc
    have hid : event.eventId = uuid4 row.taskId :=
      (congrArg EventFields.eventId hevent).trans (congrArg uuid4 hjson)
    have hfree : ∀ u, s₁.events.get? u = none ↔ s.events.get? u = none ∧ u ≠ event.eventId := by
      intro u
      simp only [Table.get?_eq_none, hstep.stores.mem, or_imp, forall_and, forall_eq]
      exact and_congr_right' ⟨fun h h' => h h'.symm, fun h h' => h h'.symm⟩
    have hfresh₁ : s₁.FreshIds rows uuid4 := by
      refine ⟨fun r hr => (hfree _).2 ⟨hfresh.free r (by simp [hr]), fun h => ?_⟩,
        fun r hr r' hr' => hfresh.distinct r (by simp [hr]) r' (by simp [hr'])⟩
      exact hne r hr (hfresh.distinct r (by simp [hr]) row (by simp) (h.trans hid)).symm
    have hfound₁ : ∀ r ∈ rows, s₁.tasks.get? r.key = some r := fun r hr => by
      have hk : (row.moved updated time).key ≠ r.key := fun h =>
        hne r hr (Constrained.val_inj.1 h)
      rw [hputs.get?_of_ne hk]
      exact hfound r (by simp [hr])
    obtain ⟨hc', hsame', hrest⟩ :=
      forEach_blockInterruptedTask hc₁ hfound₁ hnodup.2 hfresh₁ hloop
    refine ⟨hc', hsame.trans hsame', fun id => ?_⟩
    have htask : event.taskId = some row.taskId :=
      (congrArg EventFields.taskId hevent).trans (congrArg some hjson)
    by_cases heq : row.taskId = id
    · -- No later row is about this task.
      have hlast : s'.history id = s₁.history id := by
        rcases hrest id with hrest | ⟨r, hr, _, hrid, _⟩
        · exact hrest
        · exact absurd (heq.trans hrid.symm) (hne r hr)
      refine .inr ⟨row, by simp, event, heq, hevent, hstep.stores.fresh, ?_⟩
      rw [hlast]
      exact hstep.history_self hc (htask.trans (congrArg some heq))
    · have hfirst : s₁.history id = s.history id :=
        hstep.history_of_ne hc fun h => heq (Option.some.inj (htask.symm.trans h))
      rcases hrest id with hrest | ⟨r, hr, e, hrid, he, hefree, hestep⟩
      · exact .inl (hrest.trans hfirst)
      · exact .inr ⟨r, by simp [hr], e, hrid, he, ((hfree _).1 hefree).1, hfirst ▸ hestep⟩

theorem interruptedTasks_mem {row : TaskRow} (h : row ∈ s.interruptedTasks) :
    s.tasks.get? row.key = some row ∧ (row.status = .planning ∨ row.status = .running) := by
  rw [interruptedTasks, List.mem_insertionSort, List.mem_filter, decide_eq_true_eq] at h
  exact ⟨Table.get?_of_mem h.1, h.2⟩

theorem interruptedTasks_nodup (s : Store) : (s.interruptedTasks.map TaskRow.key).Nodup := by
  have hperm : s.interruptedTasks.Perm _ := List.perm_insertionSort _ _
  rw [(hperm.map TaskRow.key).nodup_iff]
  exact s.tasks.unique.sublist (List.filter_sublist.map TaskRow.key)

theorem reconcileInterruptedRunning_ok {time : Timestamp} {uuid4 : TaskId → Uuid}
    {result : ReconciliationResult} (hc : s.Coherent) (hfresh : s.FreshIds s.interruptedTasks uuid4)
    (h : reconcileInterruptedRunning time uuid4 s = .ok (result, s')) :
    s'.Coherent ∧ ∀ id, s'.history id = s.history id ∨
      ∃ row ∈ s.interruptedTasks, ∃ event : EventEnvelope, row.taskId = id ∧
        event.toEventFields =
          interruptionEvent time (uuid4 row.taskJson.taskId) row.taskJson ∧
        s.events.get? event.eventId = none ∧
        (historySystem id).step (s.history id) (.move .blocked, event) (s'.history id) := by
  simp only [reconcileInterruptedRunning, bind_eq_ok, Prod.exists, pure_eq_ok] at h
  obtain ⟨runs, s₁, hruns, out, s₂, hloop, h⟩ := h
  cases h
  have hsame : s.SameTasks s₁ :=
    forEach_rel SameTasks.refl (fun _ _ _ => SameTasks.trans)
      (fun _ _ _ _ => interruptRun_sameTasks) hruns
  have hrows : s₁.interruptedTasks = s.interruptedTasks := by
    simp only [interruptedTasks, hsame.tasks]
  rw [hrows] at hloop
  obtain ⟨hc', _, hsteps⟩ := forEach_blockInterruptedTask (hsame.coherent hc)
    (fun row hrow => hsame.tasks ▸ (interruptedTasks_mem hrow).1) (interruptedTasks_nodup s)
    ⟨fun row hrow => hsame.events ▸ hfresh.free row hrow, hfresh.distinct⟩ hloop
  simp only [hsame.history, hsame.events] at hsteps
  exact ⟨hc', hsteps⟩

/-- The reconciliation of the runs leaves the routes alone. -/
theorem reconcileInterruptedRunning_routes {time : Timestamp} {uuid4 : TaskId → Uuid}
    {result : ReconciliationResult}
    (h : reconcileInterruptedRunning time uuid4 s = .ok (result, s')) :
    s'.taskRoutes = s.taskRoutes := by
  have hrun : ∀ row s b s', interruptRun time row s = .ok (b, s') →
      s'.taskRoutes = s.taskRoutes := by
    intro row s run s' h
    simp only [interruptRun, bind_eq_ok, pure_eq_ok] at h
    obtain ⟨_, _, h⟩ := h
    cases h
    rfl
  have hblock : ∀ row s b s', blockInterruptedTask time uuid4 row s = .ok (b, s') →
      s'.taskRoutes = s.taskRoutes := by
    intro row s out s' h
    simp only [blockInterruptedTask, bind_eq_ok, Prod.exists] at h
    obtain ⟨event, _, blocked, _, b, s₁, happend, h⟩ := h
    split at h <;> cases h
    rcases appendEventLocked_ok happend with ⟨_, rfl⟩ | ⟨_, _, hsame⟩
    · rfl
    · exact hsame.taskRoutes
  simp only [reconcileInterruptedRunning, bind_eq_ok, Prod.exists, pure_eq_ok] at h
  obtain ⟨_, s₁, hruns, _, s₂, htasks, h⟩ := h
  cases h
  have hrefl : ∀ s : Store, s.taskRoutes = s.taskRoutes := fun _ => rfl
  have htrans : ∀ s s' s'' : Store, s'.taskRoutes = s.taskRoutes →
      s''.taskRoutes = s'.taskRoutes → s''.taskRoutes = s.taskRoutes :=
    fun _ _ _ h h' => h'.trans h
  exact (forEach_rel hrefl htrans hblock htasks).trans (forEach_rel hrefl htrans hrun hruns)

end Store

end AIHub
