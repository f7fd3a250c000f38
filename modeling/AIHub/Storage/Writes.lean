import AIHub.Storage.System
import Mathlib.Logic.Relation

/-!
# Single writes

A write operation commits a sequence of single writes to rows. `Write` lists them, each with what
the code has checked before it, and `exec_writes` says that the operations make no others. What
must hold of every row, or must never be lost, is then a property of single writes.

* `writeSystem`: every sequence of write operations, whatever ids they draw.
* `writeSystem_mirrored`: the columns of a stored row are those of its JSON snapshot.
* `run_writes`: along a run of the store, single writes lead from any state to any later one.
-/

namespace AIHub

open Transition

/-! ## Rows and their snapshots -/

/-- The columns are those of the snapshot. -/
structure TaskRow.Mirrors (row : TaskRow) : Prop where
  taskId : row.taskJson.taskId = row.taskId
  status : row.taskJson.status = row.status
  project : row.taskJson.project = row.project
  team : row.taskJson.team = row.team
  createdAt : row.taskJson.createdAt = row.createdAt

theorem TaskRow.mirrors_created (task : Task) (time : Timestamp) :
    (created task time).Mirrors := ⟨rfl, rfl, rfl, rfl, rfl⟩

theorem TaskRow.Mirrors.moved {row : TaskRow} {target : TaskStatus} {updated : Task}
    {time : Timestamp} (h : row.Mirrors)
    (hmoved : transitionTask row.taskJson target time = .ok updated) :
    (row.moved updated time).Mirrors := by
  obtain ⟨_, _, _, hfields⟩ := transitionTask_ok hmoved
  exact ⟨(congrArg TaskFields.taskId hfields).trans h.taskId, rfl,
    (congrArg TaskFields.project hfields).trans h.project,
    (congrArg TaskFields.team hfields).trans h.team,
    (congrArg TaskFields.createdAt hfields).trans h.createdAt⟩

theorem TaskRow.Mirrors.assigned {row : TaskRow} {agents : List Identifier} {updated : Task}
    {time : Timestamp} (h : row.Mirrors)
    (hassigned : updated.toTaskFields = { row.taskJson.toTaskFields with
      assignedAgents := agents }) : (row.assigned updated time).Mirrors :=
  ⟨(congrArg TaskFields.taskId hassigned).trans h.taskId,
    (congrArg TaskFields.status hassigned).trans h.status,
    (congrArg TaskFields.project hassigned).trans h.project,
    (congrArg TaskFields.team hassigned).trans h.team,
    (congrArg TaskFields.createdAt hassigned).trans h.createdAt⟩

namespace Store

/-- Every task and run row is what its snapshot says. -/
structure Mirrored (s : Store) : Prop where
  tasks : ∀ row ∈ s.tasks, row.Mirrors
  runs : ∀ row ∈ s.runs, RunRow.ofRecord row.runJson = row

theorem mirrored_empty : empty.Mirrored :=
  ⟨fun _ h => absurd h (Table.not_mem_empty _), fun _ h => absurd h (Table.not_mem_empty _)⟩

/-! ## Single writes -/

/-- `s'` is `s` after one write. -/
inductive Write (s : Store) : Store → Prop
  | createTask (task : Task) (time : Timestamp) (pending : task.status = .pending)
      (free : s.tasks.get? (TaskRow.created task time).key = none) :
      Write s { s with tasks := s.tasks.insert (.created task time) free }
  | moveTask (row : TaskRow) (target : TaskStatus) (updated : Task) (time : Timestamp)
      (f : TaskRow → TaskRow) (hf : ∀ r, (f r).key = r.key)
      (found : s.tasks.get? row.key = some row)
      (moved : AIHub.transitionTask row.taskJson target time = .ok updated)
      (write : f row = row.moved updated time) :
      Write s (s.updateTask row.key row.version f hf)
  | assignTask (row : TaskRow) (agent : Identifier) (updated : Task) (time : Timestamp)
      (f : TaskRow → TaskRow) (hf : ∀ r, (f r).key = r.key)
      (found : s.tasks.get? row.key = some row)
      (assigned : updated.toTaskFields = { row.taskJson.toTaskFields with
        assignedAgents := row.taskJson.assignedAgents ++ [agent] })
      (write : f row = row.assigned updated time) :
      Write s (s.updateTask row.key row.version f hf)
  | storeEvent (event : EventEnvelope) (free : s.events.get? event.eventId = none)
      (known : ∀ id ∈ event.taskId, (s.tasks.get? id.val).isSome) :
      Write s { s with
        events := s.events.insert ⟨s.lastSequence + 1, event⟩ free
        lastSequence := s.lastSequence + 1 }
  | createRun (run : RunRecord) (free : s.runs.get? (RunRow.ofRecord run).key = none) :
      Write s { s with runs := s.runs.insert (RunRow.ofRecord run) free }
  | rewriteRun (row : RunRow) (run : RunRecord) (found : s.runs.get? row.key = some row)
      (active : row.status.isTerminal = false) (runId : run.runId = row.runId)
      (taskId : run.taskId = row.taskId) (createdAt : run.createdAt = row.createdAt) :
      Write s (s.writeRunLocked run)
  | createArtifact (artifact : ArtifactMetadata)
      (free : s.artifacts.get? artifact.key = none) :
      Write s { s with artifacts := s.artifacts.insert artifact free }
  | reserveRequest (key : String) (time : Timestamp)
      (free : s.gatewayRequests.get? key = none) :
      Write s { s with gatewayRequests := s.gatewayRequests.insert ⟨key, none, time⟩ free }
  | rememberResponse (key : String) (response : JsonObject) :
      Write s { s with
        gatewayRequests := s.gatewayRequests.update
          (fun r => r.idempotencyKey = key && r.responseJson.isNone)
          (fun r => { r with responseJson := some response }) fun _ => rfl }
  | dropRequests (p : GatewayRow → Bool)
      (incomplete : ∀ r ∈ s.gatewayRequests, p r = true → r.responseJson = none) :
      Write s { s with gatewayRequests := s.gatewayRequests.delete p }
  | saveRoute (route : TaskRoute) (free : s.taskRoutes.get? route.key = none) :
      Write s { s with taskRoutes := s.taskRoutes.insert route free }
  | reserveReceipt (id : String) (time : Timestamp)
      (free : s.deliveryReceipts.get? id = none) :
      Write s { s with
        deliveryReceipts := s.deliveryReceipts.insert ⟨id, .reserved, time, none⟩ free }
  | deliverReceipt (row : ReceiptRow) (time : Timestamp)
      (found : s.deliveryReceipts.get? row.deliveryId = some row)
      (reserved : row.state = .reserved) :
      Write s { s with
        deliveryReceipts := s.deliveryReceipts.update (fun r => r.deliveryId = row.deliveryId)
          (fun r => { r with state := .delivered, deliveredAt := some time }) fun _ => rfl }
  | dropReceipts (p : ReceiptRow → Bool)
      (reserved : ∀ r ∈ s.deliveryReceipts, p r = true → r.state = .reserved) :
      Write s { s with deliveryReceipts := s.deliveryReceipts.delete p }

/-- `s'` is `s` after some writes. -/
abbrev Writes : Store → Store → Prop := Relation.ReflTransGen Write

variable {s s' : Store} {event : EventEnvelope} {time : Timestamp}

/-- The row that an update finds by its key and version is the only one it rewrites. -/
theorem mem_updateTask {row r : TaskRow} {f : TaskRow → TaskRow} {hf : ∀ r, (f r).key = r.key}
    (hfound : s.tasks.get? row.key = some row) :
    r ∈ (s.updateTask row.key row.version f hf).tasks ↔
      (r ∈ s.tasks ∧ r.key ≠ row.key) ∨ r = f row := by
  have hrow := (Table.get?_eq_some.1 hfound).1
  simp only [updateTask, Table.mem_update, Bool.and_eq_true, decide_eq_true_eq]
  constructor
  · intro h
    obtain ⟨x, hx, rfl⟩ := h
    by_cases hkey : x.key = row.key
    · have hxr : x = row := Table.eq_of_key_eq hx hrow hkey
      subst hxr
      exact .inr (by simp)
    · exact .inl (by simp [hkey, hx])
  · intro h
    obtain ⟨hr, hkey⟩ | rfl := h
    · exact ⟨r, hr, by simp [hkey]⟩
    · exact ⟨row, hrow, by simp⟩

/-- What `_write_run_locked` makes of a row. -/
def RunRow.rewritten (row : RunRow) (run : RunRecord) : RunRow :=
  { row with
    status := run.status
    startedAt := run.startedAt
    completedAt := run.completedAt
    runJson := run }

theorem mem_writeRunLocked {row r : RunRow} {run : RunRecord}
    (hfound : s.runs.get? row.key = some row) (hid : run.runId = row.runId) :
    r ∈ (s.writeRunLocked run).runs ↔
      (r ∈ s.runs ∧ r.key ≠ row.key) ∨ r = RunRow.rewritten row run := by
  have hmem := (Table.get?_eq_some.1 hfound).1
  have hkey : run.runId.val = row.key := congrArg Constrained.val hid
  have hupdate : r ∈ (s.writeRunLocked run).runs ↔
      ∃ x ∈ s.runs, (if decide (x.key = run.runId.val) then RunRow.rewritten x run else x) = r :=
    @Table.mem_update _ _ RunRow.key s.runs (fun x => decide (x.key = run.runId.val))
      (fun x => RunRow.rewritten x run) (fun _ => rfl) r
  rw [hupdate]
  simp only [decide_eq_true_eq, hkey]
  constructor
  · intro h
    obtain ⟨x, hx, rfl⟩ := h
    by_cases hxk : x.key = row.key
    · have hxr : x = row := Table.eq_of_key_eq hx hmem hxk
      exact .inr (by rw [if_pos hxk, hxr])
    · exact .inl (by rw [if_neg hxk]; exact ⟨hx, hxk⟩)
  · intro h
    obtain ⟨hr, hne⟩ | rfl := h
    · exact ⟨r, hr, if_neg hne⟩
    · exact ⟨row, hmem, if_pos rfl⟩

/-- A run that is the row's own is all that is left of the row. -/
theorem RunRow.rewritten_eq {row : RunRow} {run : RunRecord} (hid : run.runId = row.runId)
    (htask : run.taskId = row.taskId) (hcreated : run.createdAt = row.createdAt) :
    RunRow.rewritten row run = RunRow.ofRecord run := by
  simp only [RunRow.rewritten, RunRow.ofRecord, hid, htask, hcreated]

/-- A single write keeps every row the mirror of its snapshot. -/
theorem Write.mirrored (h : s.Write s') (hm : s.Mirrored) : s'.Mirrored := by
  cases h with
  | createTask task time pending free =>
    refine ⟨fun row hrow => ?_, hm.runs⟩
    rcases (Table.mem_insert (h := free)).1 hrow with hrow | rfl
    · exact hm.tasks row hrow
    · exact TaskRow.mirrors_created task time
  | moveTask row target updated time f hf found moved write =>
    refine ⟨fun r hr => ?_, hm.runs⟩
    rcases (mem_updateTask found).1 hr with ⟨hr, _⟩ | rfl
    · exact hm.tasks r hr
    · rw [write]
      exact (hm.tasks row (Table.get?_eq_some.1 found).1).moved moved
  | assignTask row agent updated time f hf found assigned write =>
    refine ⟨fun r hr => ?_, hm.runs⟩
    rcases (mem_updateTask found).1 hr with ⟨hr, _⟩ | rfl
    · exact hm.tasks r hr
    · rw [write]
      exact (hm.tasks row (Table.get?_eq_some.1 found).1).assigned assigned
  | createRun run free =>
    refine ⟨hm.tasks, fun row hrow => ?_⟩
    rcases (Table.mem_insert (h := free)).1 hrow with hrow | rfl
    · exact hm.runs row hrow
    · rfl
  | rewriteRun row run found active runId taskId createdAt =>
    refine ⟨hm.tasks, fun r hr => ?_⟩
    rcases (mem_writeRunLocked found runId).1 hr with ⟨hr, _⟩ | rfl
    · exact hm.runs r hr
    · rw [RunRow.rewritten_eq runId taskId createdAt]
      rfl
  | _ => exact ⟨hm.tasks, hm.runs⟩

theorem Writes.mirrored (h : s.Writes s') (hm : s.Mirrored) : s'.Mirrored := by
  induction h with
  | refl => exact hm
  | tail _ hwrite ih => exact hwrite.mirrored ih

/-- A single write keeps what the tables of tasks and events promise each other. -/
theorem Write.coherent (h : s.Write s') (hm : s.Mirrored) (hc : s.Coherent) : s'.Coherent := by
  have hjson : ∀ k row, s'.tasks.get? k = some row → row.taskJson.taskId = row.taskId :=
    fun k row hrow => ((h.mirrored hm).tasks row (Table.get?_eq_some.1 hrow).1).taskId
  cases h with
  | createTask task time pending free =>
    refine { hc with json := hjson, known := fun e he id hid => ?_ }
    simp only [Table.get?_insert]
    split_ifs
    · rfl
    · exact hc.known e he id hid
  | moveTask row target updated time f hf found moved write =>
    refine { hc with json := hjson, known := fun e he id hid => ?_ }
    rw [get?_updateTask found rfl]
    split_ifs
    · rfl
    · exact hc.known e he id hid
  | assignTask row agent updated time f hf found assigned write =>
    refine { hc with json := hjson, known := fun e he id hid => ?_ }
    rw [get?_updateTask found rfl]
    split_ifs
    · rfl
    · exact hc.known e he id hid
  | storeEvent event free known =>
    have hstores : s.Stores event { s with
        events := s.events.insert ⟨s.lastSequence + 1, event⟩ free
        lastSequence := s.lastSequence + 1 } := ⟨free, known, rfl, rfl⟩
    exact hstores.coherent hc (fun _ hk => hk) hjson
  | _ => exact { hc with json := hjson }

theorem Writes.coherent (h : s.Writes s') (hm : s.Mirrored) (hc : s.Coherent) :
    s'.Coherent := by
  induction h with
  | refl => exact hc
  | tail hwrites hwrite ih => exact hwrite.coherent (Writes.mirrored hwrites hm) ih

/-! ## The operations are sequences of writes -/

theorem appendEventLocked_writes {operation : String} {b : Bool}
    (h : appendEventLocked operation event s = .ok (b, s')) : s.Writes s' := by
  unfold appendEventLocked at h
  split at h
  · split_ifs at h
    cases h
    exact .refl
  · rename_i hfree
    split_ifs at h with hknown
    cases h
    rw [Bool.not_eq_true, any_eq_false_iff] at hknown
    exact .single (.storeEvent event hfree fun id hid => by
      simpa [Option.isSome_iff_ne_none] using hknown id hid)

theorem appendEventLocked_tasks {operation : String} {b : Bool}
    (h : appendEventLocked operation event s = .ok (b, s')) : s'.tasks = s.tasks := by
  rcases appendEventLocked_ok h with ⟨_, rfl⟩ | ⟨_, htasks, _⟩
  · rfl
  · exact htasks

theorem createTask_writes {task created : Task}
    (h : createTask task event s = .ok (created, s')) : s.Writes s' := by
  simp only [createTask, bind_eq_ok, raiseIf_eq_ok, not_not, Prod.exists, pure_eq_ok] at h
  obtain ⟨_, hpending, _, _, _, _, tasks, hinsert, b, s₁, happend, h⟩ := h
  cases h
  obtain ⟨hfree, rfl⟩ := insertRow_ok hinsert
  exact .head (.createTask task event.timestamp hpending hfree) (appendEventLocked_writes happend)

theorem transitionTask_writes {taskId : String} {target : TaskStatus} {task : Task}
    (h : transitionTask taskId target event s = .ok (task, s')) : s.Writes s' := by
  simp only [transitionTask, bind_eq_ok, taskRow_ok] at h
  obtain ⟨row, hfound, _, _, h⟩ := h
  split at h
  · simp only [bind_eq_ok, pure_eq_ok] at h
    obtain ⟨_, _, h⟩ := h
    cases h
    exact .refl
  · simp only [bind_eq_ok, Prod.exists, pure_eq_ok] at h
    obtain ⟨updated, hmoved, b, s₁, happend, h⟩ := h
    cases h
    have hkey := Table.key_of_get? hfound
    subst hkey
    exact .head (.moveTask row target _ event.timestamp _ _ hfound hmoved rfl)
      (appendEventLocked_writes happend)

theorem assignTask_writes {taskId : String} {agent : Identifier} {task : Task}
    (h : assignTask taskId agent event s = .ok (task, s')) : s.Writes s' := by
  simp only [assignTask, bind_eq_ok, taskRow_ok] at h
  obtain ⟨row, hfound, _, _, _, _, _, _, h⟩ := h
  split at h
  · simp only [bind_eq_ok, pure_eq_ok] at h
    obtain ⟨_, _, h⟩ := h
    cases h
    exact .refl
  · simp only [bind_eq_ok, Prod.exists, pure_eq_ok] at h
    obtain ⟨_, _, _, _, updated, hupdated, b, s₁, happend, h⟩ := h
    cases h
    rw [Task.modelValidate_eq_ok] at hupdated
    have hkey := Table.key_of_get? hfound
    subst hkey
    exact .head (.assignTask row agent _ event.timestamp _ _ hfound hupdated rfl)
      (appendEventLocked_writes happend)

/-- The row that `create_queued_task` has inserted is still there when it queues the task. -/
theorem queue_writes {task queued : Task} {createdTime : Timestamp} {f : TaskRow → TaskRow}
    {hf : ∀ r, (f r).key = r.key} {operation : String} {b : Bool}
    (hmoved : AIHub.transitionTask task .queued time = .ok queued)
    (hfound : s.tasks.get? task.taskId.val = some (.created task createdTime))
    (hrow : f (.created task createdTime) = (TaskRow.created task createdTime).moved queued time)
    (happend : appendEventLocked operation event (s.updateTask queued.taskId.val 1 f hf) =
      .ok (b, s')) : s.Writes s' := by
  rw [taskId_of_moved hmoved] at happend
  exact .head (.moveTask (.created task createdTime) .queued queued time f hf hfound hmoved hrow)
    (appendEventLocked_writes happend)

theorem createQueuedTask_writes {task queued : Task} {createdEvent queuedEvent : EventEnvelope}
    {route : Option TaskRoute}
    (h : createQueuedTask task createdEvent queuedEvent route s = .ok (queued, s')) :
    s.Writes s' := by
  simp only [createQueuedTask, bind_eq_ok, raiseIf_eq_ok, not_not, Prod.exists] at h
  obtain ⟨_, hpending, _, _, _, _, _, _, _, _, q, hmoved, _, _, tasks, hinsert, b, s₁, happend,
    h⟩ := h
  obtain ⟨hfree, rfl⟩ := insertRow_ok hinsert
  have hcreate : s.Write { s with tasks := s.tasks.insert (.created task _) hfree } :=
    .createTask task createdEvent.timestamp hpending hfree
  have hfound : s₁.tasks.get? task.taskId.val =
      some (.created task createdEvent.timestamp) := by
    rw [appendEventLocked_tasks happend]
    exact Table.get?_insert_self s.tasks (.created task createdEvent.timestamp) hfree
  have hfirst : s.Writes s₁ := .head hcreate (appendEventLocked_writes happend)
  cases route with
  | none =>
    simp only [bind_eq_ok, pure_eq_ok, Prod.exists] at h
    obtain ⟨routes, rfl, b', s₂, happend', h⟩ := h
    cases h
    exact hfirst.trans (queue_writes (s := { s₁ with taskRoutes := s₁.taskRoutes }) hmoved hfound
      rfl happend')
  | some r =>
    simp only [bind_eq_ok, pure_eq_ok, Prod.exists] at h
    obtain ⟨routes, hr, b', s₂, happend', h⟩ := h
    cases h
    obtain ⟨hroute, rfl⟩ := insertRow_ok hr
    exact (hfirst.tail (.saveRoute r hroute)).trans
      (queue_writes (s := { s₁ with taskRoutes := s₁.taskRoutes.insert r hroute }) hmoved hfound
        rfl happend')

theorem rewriteRun_writes {row : RunRow} {runId : String} {run : RunRecord} (hm : s.Mirrored)
    (hfound : s.runs.get? runId = some row) (hactive : row.runJson.status.isTerminal = false)
    (hid : run.runId = row.runJson.runId) (htask : run.taskId = row.runJson.taskId)
    (hcreated : run.createdAt = row.runJson.createdAt) : s.Writes (s.writeRunLocked run) := by
  have hmem := (Table.get?_eq_some.1 hfound).1
  have hrow := hm.runs row hmem
  refine .single (.rewriteRun row run (Table.get?_of_mem hmem) ?_
    (hid.trans (congrArg RunRow.runId hrow)) (htask.trans (congrArg RunRow.taskId hrow))
    (hcreated.trans (congrArg RunRow.createdAt hrow)))
  rw [← hrow]
  exact hactive

/-! ## Loops over rows -/

/-- A loop over rows with distinct keys, whose body finds its row as it was and leaves the rows
with other keys in their place. What relates the stores before and after the body, relates the
stores before and after the loop. -/
theorem forEach_rows {ρ κ β : Type} (key : ρ → κ)
    {body : ρ → Store → Except HubError (β × Store)} (I : Store → Prop) (Found : Store → ρ → Prop)
    (R : Store → Store → Prop) (refl : ∀ s, R s s)
    (trans : ∀ s s' s'', R s s' → R s' s'' → R s s'')
    (hbody : ∀ row b s s', I s → Found s row → body row s = .ok (b, s') →
      I s' ∧ R s s' ∧ ∀ r, key r ≠ key row → Found s r → Found s' r) :
    ∀ {rows : List ρ} {out : List β} {s s' : Store}, I s → (∀ row ∈ rows, Found s row) →
      (rows.map key).Nodup → forEach body rows s = .ok (out, s') → I s' ∧ R s s'
  | [], out, s, s', hI, _, _, h => by
    cases h
    exact ⟨hI, refl s⟩
  | row :: rows, out, s, s', hI, hfound, hnodup, h => by
    simp only [forEach, bind_eq_ok, Prod.exists, pure_eq_ok] at h
    obtain ⟨b, s₁, hb, bs, s₂, hloop, h⟩ := h
    cases h
    rw [List.map_cons, List.nodup_cons] at hnodup
    obtain ⟨hI₁, hR, hothers⟩ := hbody row b s s₁ hI (hfound row (by simp)) hb
    have hrest : ∀ r ∈ rows, Found s₁ r := by
      intro r hr
      refine hothers r (fun heq => hnodup.1 ?_) (hfound r (by simp [hr]))
      exact List.mem_map.2 ⟨r, hr, heq⟩
    obtain ⟨hI', hR'⟩ := forEach_rows key I Found R refl trans hbody hI₁ hrest hnodup.2 hloop
    exact ⟨hI', trans _ _ _ hR hR'⟩

/-- The row is stored, and its run is active. -/
def FoundRun (s : Store) (row : RunRow) : Prop :=
  s.runs.get? row.key = some row ∧ row.status.isTerminal = false

theorem interruptRun_writes {row : RunRow} {run : RunRecord} (hm : s.Mirrored)
    (hfound : s.FoundRun row) (h : interruptRun time row s = .ok (run, s')) :
    s'.Mirrored ∧ s.Writes s' ∧ ∀ r, r.key ≠ row.key → s.FoundRun r → s'.FoundRun r := by
  simp only [interruptRun, bind_eq_ok, pure_eq_ok] at h
  obtain ⟨run, hrun, h⟩ := h
  cases h
  rw [RunRecord.modelValidate_eq_ok] at hrun
  have hrow := hm.runs row (Table.get?_eq_some.1 hfound.1).1
  have hid : run.runId = row.runId :=
    (congrArg RunFields.runId hrun).trans (congrArg RunRow.runId hrow)
  have hwrite : s.Write (s.writeRunLocked run) := .rewriteRun row run hfound.1 hfound.2 hid
    ((congrArg RunFields.taskId hrun).trans (congrArg RunRow.taskId hrow))
    ((congrArg RunFields.createdAt hrun).trans (congrArg RunRow.createdAt hrow))
  refine ⟨hwrite.mirrored hm, .single hwrite, fun r hne hr => ⟨?_, hr.2⟩⟩
  have hmem := (mem_writeRunLocked hfound.1 hid).2
    (.inl ⟨(Table.get?_eq_some.1 hr.1).1, hne⟩)
  exact Table.get?_of_mem hmem

theorem activeRuns_found {row : RunRow} (h : row ∈ s.activeRuns) : s.FoundRun row := by
  rw [activeRuns, List.mem_insertionSort, List.mem_filter, decide_eq_true_eq] at h
  refine ⟨Table.get?_of_mem h.1, ?_⟩
  rcases h.2 with hstatus | hstatus <;> rw [hstatus] <;> rfl

theorem activeRuns_nodup (s : Store) : (s.activeRuns.map RunRow.key).Nodup := by
  have hperm : s.activeRuns.Perm _ := List.perm_insertionSort _ _
  rw [(hperm.map RunRow.key).nodup_iff]
  exact s.runs.unique.sublist (List.filter_sublist.map RunRow.key)

def FoundTask (s : Store) (row : TaskRow) : Prop := s.tasks.get? row.key = some row

/-- Whatever its id, the event of the loop body is stored or found after the row is blocked. -/
theorem blockInterruptedTask_append {uuid4 : TaskId → Uuid} {row : TaskRow}
    {out : Task × StoredEvent} (hm : s.Mirrored) (hfound : s.FoundTask row)
    (h : blockInterruptedTask time uuid4 row s = .ok (out, s')) :
    ∃ event blocked s₁ b, event.taskId = some row.taskId ∧
      AIHub.transitionTask row.taskJson .blocked time = .ok blocked ∧ s.Write s₁ ∧
      s.Puts (row.moved blocked time) s₁ ∧ s₁.events = s.events ∧
      appendEventLocked "reconcile interrupted work" event s₁ = .ok (b, s') := by
  simp only [blockInterruptedTask, bind_eq_ok, Prod.exists] at h
  obtain ⟨event, hevent, blocked, hmoved, b, s₁, happend, h⟩ := h
  have hs : s₁ = s' := by
    split at h
    · rw [pure_eq_ok] at h
      exact congrArg Prod.snd h
    · exact absurd h (by simp)
  subst hs
  rw [EventEnvelope.modelValidate_eq_ok] at hevent
  have hid := (hm.tasks row (Table.get?_eq_some.1 hfound).1).taskId
  have hkey : blocked.taskId.val = row.key := by
    rw [taskId_of_moved hmoved, hid]
    rfl
  rw [hkey] at happend
  exact ⟨event, blocked, _, b, by rw [hevent, ← hid]; rfl, hmoved,
    .moveTask row .blocked blocked time _ _ hfound hmoved rfl, updateTask_puts hfound rfl rfl, rfl,
    happend⟩

theorem blockInterruptedTask_writes {uuid4 : TaskId → Uuid} {row : TaskRow}
    {out : Task × StoredEvent} (hm : s.Mirrored) (hfound : s.FoundTask row)
    (h : blockInterruptedTask time uuid4 row s = .ok (out, s')) :
    s'.Mirrored ∧ s.Writes s' ∧ ∀ r, r.key ≠ row.key → s.FoundTask r → s'.FoundTask r := by
  obtain ⟨_, _, _, _, _, _, hwrite, hputs, _, happend⟩ := blockInterruptedTask_append hm hfound h
  have hwrites : s.Writes s' := .head hwrite (appendEventLocked_writes happend)
  refine ⟨hwrites.mirrored hm, hwrites, fun r hne hr => ?_⟩
  rw [FoundTask, appendEventLocked_tasks happend, hputs.get?_of_ne (Ne.symm hne)]
  exact hr

/-- The loop body leaves the history of every other task alone. -/
theorem blockInterruptedTask_other {uuid4 : TaskId → Uuid} {row : TaskRow} {id : TaskId}
    {out : Task × StoredEvent} (hm : s.Mirrored) (hfound : s.FoundTask row)
    (hne : row.key ≠ id.val) (h : blockInterruptedTask time uuid4 row s = .ok (out, s')) :
    s'.history id = s.history id := by
  obtain ⟨event, _, s₁, _, hid, _, _, hputs, hevents, happend⟩ :=
    blockInterruptedTask_append hm hfound h
  have hother : event.taskId ≠ some id := by
    rw [hid]
    intro heq
    exact hne (congrArg Constrained.val (Option.some.inj heq))
  have htasks : s'.taskEvents id = s₁.taskEvents id := by
    rcases appendEventLocked_ok happend with ⟨_, rfl⟩ | ⟨hstores, _⟩
    · rfl
    · rw [hstores.taskEvents, if_neg hother, List.append_nil]
  rw [history, history, appendEventLocked_tasks happend, hputs.get?_of_ne hne, htasks,
    Store.taskEvents, hevents]
  rfl

theorem reconcileInterruptedRunning_writes {uuid4 : TaskId → Uuid}
    {result : ReconciliationResult} (hm : s.Mirrored)
    (h : reconcileInterruptedRunning time uuid4 s = .ok (result, s')) : s.Writes s' := by
  simp only [reconcileInterruptedRunning, bind_eq_ok, Prod.exists, pure_eq_ok] at h
  obtain ⟨runs, s₁, hruns, out, s₂, htasks, h⟩ := h
  cases h
  obtain ⟨hm₁, hfirst⟩ := forEach_rows RunRow.key Mirrored FoundRun Writes (fun _ => .refl)
    (fun _ _ _ => .trans) (fun row b s s' hm hfound => interruptRun_writes hm hfound) hm
    (fun row hrow => activeRuns_found hrow) s.activeRuns_nodup hruns
  obtain ⟨_, hsecond⟩ := forEach_rows TaskRow.key Mirrored FoundTask Writes (fun _ => .refl)
    (fun _ _ _ => .trans) (fun row b s s' hm hfound => blockInterruptedTask_writes hm hfound) hm₁
    (fun row hrow => (interruptedTasks_mem hrow).1) s₁.interruptedTasks_nodup htasks
  exact hfirst.trans hsecond

end Store

/-! ## Every operation -/

/-- What a write operation commits, it commits by single writes. -/
theorem WriteOp.exec_writes {op : WriteOp} {s s' : Store} (hm : s.Mirrored)
    (h : op.exec s = .ok s') : s.Writes s' := by
  cases op with
  | createTask task event =>
    rw [exec, map_eq_ok] at h
    obtain ⟨⟨_, _⟩, hcall, rfl⟩ := h
    exact Store.createTask_writes hcall
  | createQueuedTask task created queued route =>
    rw [exec, map_eq_ok] at h
    obtain ⟨⟨_, _⟩, hcall, rfl⟩ := h
    exact Store.createQueuedTask_writes hcall
  | transitionTask taskId target event | cancelTask taskId event =>
    rw [exec, map_eq_ok] at h
    obtain ⟨⟨_, _⟩, hcall, rfl⟩ := h
    exact Store.transitionTask_writes hcall
  | assignTask taskId agent event =>
    rw [exec, map_eq_ok] at h
    obtain ⟨⟨_, _⟩, hcall, rfl⟩ := h
    exact Store.assignTask_writes hcall
  | appendEvent event =>
    rw [exec, map_eq_ok] at h
    obtain ⟨⟨_, _⟩, hcall, rfl⟩ := h
    simp only [Store.appendEvent, bind_eq_ok] at hcall
    obtain ⟨_, _, happend⟩ := hcall
    exact Store.appendEventLocked_writes happend
  | createRun run =>
    rw [exec, map_eq_ok] at h
    obtain ⟨⟨_, _⟩, hcall, rfl⟩ := h
    obtain ⟨_, _, hfree, rfl⟩ := Store.createRun_ok hcall
    exact .single (.createRun run hfree)
  | startRun runId time =>
    rw [exec, map_eq_ok] at h
    obtain ⟨⟨run, _⟩, hcall, rfl⟩ := h
    obtain ⟨row, hfound, hqueued, hrun, rfl⟩ := Store.startRun_ok hcall
    exact Store.rewriteRun_writes hm hfound (by rw [hqueued]; rfl) (by rw [hrun])
      (by rw [hrun]) (by rw [hrun])
  | finishRun runId status time exitCode errorCode =>
    rw [exec, map_eq_ok] at h
    obtain ⟨⟨run, _⟩, hcall, rfl⟩ := h
    obtain ⟨_, row, hfound, hactive, hrun, rfl⟩ := Store.finishRun_ok hcall
    exact Store.rewriteRun_writes hm hfound hactive (by rw [hrun]) (by rw [hrun])
      (by rw [hrun])
  | createArtifact artifact =>
    rw [exec, map_eq_ok] at h
    obtain ⟨⟨_, _⟩, hcall, rfl⟩ := h
    obtain ⟨hfree, rfl⟩ := Store.createArtifact_ok hcall
    exact .single (.createArtifact artifact hfree)
  | reserveGatewayRequest key time =>
    rw [exec, map_eq_ok] at h
    obtain ⟨⟨_, _⟩, hcall, rfl⟩ := h
    obtain ⟨_, _, ⟨_, rfl⟩ | ⟨_, hfree, rfl⟩⟩ := Store.reserveGatewayRequest_ok hcall
    · exact .refl
    · exact .single (.reserveRequest _ time hfree)
  | rememberGatewayResponse key response time =>
    rw [exec, map_eq_ok] at h
    obtain ⟨⟨_, _⟩, hcall, rfl⟩ := h
    obtain ⟨_, _, _, rfl⟩ := Store.rememberGatewayResponse_ok hcall
    exact .single (.rememberResponse key response)
  | releaseGatewayRequest key time =>
    rw [exec, map_eq_ok] at h
    obtain ⟨⟨_, _⟩, hcall, rfl⟩ := h
    obtain ⟨id, _, ⟨_, rfl⟩ | ⟨row, hfound, hnone, rfl⟩⟩ := Store.releaseGatewayRequest_ok hcall
    · exact .refl
    · refine .single (.dropRequests _ fun r hr hp => ?_)
      have hrow : r = row := Table.eq_of_key_eq hr (Table.get?_eq_some.1 hfound).1
        ((of_decide_eq_true hp).trans (Table.key_of_get? hfound).symm)
      rw [hrow, hnone]
  | reconcileIncompleteGatewayRequests =>
    cases h
    exact .single (.dropRequests _ fun r _ hp => Option.isNone_iff_eq_none.1 hp)
  | saveTaskRoute route =>
    rw [exec, map_eq_ok] at h
    obtain ⟨⟨_, _⟩, hcall, rfl⟩ := h
    rcases Store.saveTaskRoute_ok hcall with rfl | ⟨hfree, rfl⟩
    · exact .refl
    · exact .single (.saveRoute route hfree)
  | reserveDelivery id time =>
    rw [exec, map_eq_ok] at h
    obtain ⟨⟨_, _⟩, hcall, rfl⟩ := h
    obtain ⟨_, _, ⟨_, rfl, _⟩ | ⟨_, hfree, rfl⟩⟩ := Store.reserveDelivery_ok hcall
    · exact .refl
    · exact .single (.reserveReceipt _ time hfree)
  | markDeliveryDelivered id time =>
    rw [exec, map_eq_ok] at h
    obtain ⟨⟨_, _⟩, hcall, rfl⟩ := h
    obtain ⟨key, row, _, hfound, ⟨_, rfl⟩ | ⟨hreserved, rfl⟩⟩ :=
      Store.markDeliveryDelivered_ok hcall
    · exact .refl
    · have hkey := Table.key_of_get? hfound
      rw [← hkey] at hfound ⊢
      exact .single (.deliverReceipt row time hfound hreserved)
  | releaseDelivery id =>
    rw [exec, map_eq_ok] at h
    obtain ⟨⟨_, _⟩, hcall, rfl⟩ := h
    obtain ⟨key, _, ⟨_, rfl⟩ | ⟨row, hfound, hreserved, rfl⟩⟩ := Store.releaseDelivery_ok hcall
    · exact .refl
    · refine .single (.dropReceipts _ fun r hr hp => ?_)
      have hrow : r = row := Table.eq_of_key_eq hr (Table.get?_eq_some.1 hfound).1
        ((of_decide_eq_true hp).trans (Table.key_of_get? hfound).symm)
      rw [hrow, hreserved]
  | reconcileReservedDeliveries =>
    cases h
    exact .single (.dropReceipts _ fun r _ hp => of_decide_eq_true hp)
  | reconcileInterruptedRunning time uuid4 =>
    rw [exec, map_eq_ok] at h
    obtain ⟨⟨_, _⟩, hcall, rfl⟩ := h
    exact Store.reconcileInterruptedRunning_writes hm hcall

theorem WriteOp.after_writes {op : WriteOp} {s s' : Store} (hm : s.Mirrored)
    (h : op.after s = s') : s.Writes s' := by
  rcases after_eq h with hexec | rfl
  · exact exec_writes hm hexec
  · exact .refl

/-- Every sequence of write operations from an empty store, whatever ids they draw. -/
def writeSystem : System Store WriteOp where
  init s := s = .empty
  step s op s' := op.after s = s'

theorem writeSystem_of_storeSystem {s : Store} (h : storeSystem.Reachable s) :
    writeSystem.Reachable s :=
  System.Reachable.mono (M := storeSystem) (fun _ hs => hs) (fun _ _ _ hstep => hstep.2) h

theorem writeSystem_mirrored {s : Store} (h : writeSystem.Reachable s) : s.Mirrored := by
  have hI : writeSystem.Invariant Store.Mirrored := {
    init := by
      intro _ hs
      cases hs
      exact Store.mirrored_empty
    step := fun _ _ _ hm hstep => (WriteOp.after_writes hm hstep).mirrored hm }
  exact hI.reachable h

/-- The store after some calls. -/
def Store.perform (s : Store) (ops : List WriteOp) : Store := ops.foldl (fun s op => op.after s) s

theorem run_perform (s : Store) (ops : List WriteOp) : writeSystem.Run s ops (s.perform ops) := by
  induction ops generalizing s with
  | nil => exact .nil s
  | cons op ops ih => exact .cons rfl (ih _)

theorem reachable_perform (ops : List WriteOp) :
    writeSystem.Reachable (Store.empty.perform ops) :=
  ⟨.empty, ops, rfl, run_perform .empty ops⟩

theorem writeSystem_coherent {s : Store} (h : writeSystem.Reachable s) : s.Coherent := by
  refine h.induct (I := Store.Coherent) ?_ ?_
  · intro _ hs
    cases hs
    exact Store.coherent_empty
  · intro s op s' hs hc hstep
    have hm := writeSystem_mirrored hs
    exact (WriteOp.after_writes hm hstep).coherent hm hc

/-- From a reachable store, single writes lead to every later one. -/
theorem run_writes {s s' : Store} {ops : List WriteOp} (h : writeSystem.Reachable s)
    (hr : writeSystem.Run s ops s') : s.Writes s' := by
  induction hr with
  | nil => exact .refl
  | cons hstep _ ih =>
    exact (WriteOp.after_writes (writeSystem_mirrored h) hstep).trans (ih (h.step hstep))

/-! ## Artifacts and gateway requests -/

namespace Store

variable {s s' s'' : Store} {event : EventEnvelope}

/-- The tables of artifacts and of gateway requests are the same. -/
structure SameSide (s s' : Store) : Prop where
  artifacts : s'.artifacts = s.artifacts
  gatewayRequests : s'.gatewayRequests = s.gatewayRequests

theorem SameSide.refl (s : Store) : s.SameSide s := ⟨rfl, rfl⟩

theorem SameSide.trans (h : s.SameSide s') (h' : s'.SameSide s'') : s.SameSide s'' :=
  ⟨h'.artifacts.trans h.artifacts, h'.gatewayRequests.trans h.gatewayRequests⟩

theorem appendEventLocked_sameSide {operation : String} {b : Bool}
    (h : appendEventLocked operation event s = .ok (b, s')) : s.SameSide s' := by
  rcases appendEventLocked_ok h with ⟨_, rfl⟩ | ⟨_, _, hsame⟩
  · exact .refl s'
  · exact ⟨hsame.artifacts, hsame.gatewayRequests⟩

theorem createTask_sameSide {task created : Task}
    (h : createTask task event s = .ok (created, s')) : s.SameSide s' := by
  simp only [createTask, bind_eq_ok, Prod.exists, pure_eq_ok] at h
  obtain ⟨_, _, _, _, _, _, tasks, _, b, s₁, happend, h⟩ := h
  cases h
  have hside := appendEventLocked_sameSide happend
  exact ⟨hside.artifacts, hside.gatewayRequests⟩

theorem createQueuedTask_sameSide {task created : Task} {createdEvent queuedEvent : EventEnvelope}
    {route : Option TaskRoute}
    (h : createQueuedTask task createdEvent queuedEvent route s = .ok (created, s')) :
    s.SameSide s' := by
  simp only [createQueuedTask, bind_eq_ok, Prod.exists] at h
  obtain ⟨_, _, _, _, _, _, _, _, _, _, queued, _, _, _, tasks, _, b, s₁, happend, h⟩ := h
  have hcreated := appendEventLocked_sameSide happend
  have hqueued : s₁.SameSide s' := by
    cases route with
    | none | some =>
      simp only [bind_eq_ok, pure_eq_ok, Prod.exists] at h
      obtain ⟨routes, _, b', s₂, happend', h⟩ := h
      cases h
      have hside := appendEventLocked_sameSide happend'
      exact ⟨hside.artifacts, hside.gatewayRequests⟩
  have hfirst : s.SameSide s₁ := ⟨hcreated.artifacts, hcreated.gatewayRequests⟩
  exact hfirst.trans hqueued

theorem transitionTask_sameSide {taskId : String} {target : TaskStatus} {t : Task}
    (h : transitionTask taskId target event s = .ok (t, s')) : s.SameSide s' := by
  obtain ⟨_, _, _, ⟨_, _, rfl⟩ | ⟨_, _, _, hsame⟩⟩ := transitionTask_ok h
  · exact .refl s'
  · exact ⟨hsame.artifacts, hsame.gatewayRequests⟩

theorem interruptRun_sameSide {time : Timestamp} {row : RunRow} {run : RunRecord}
    (h : interruptRun time row s = .ok (run, s')) : s.SameSide s' := by
  simp only [interruptRun, bind_eq_ok, pure_eq_ok] at h
  obtain ⟨_, _, h⟩ := h
  cases h
  exact ⟨rfl, rfl⟩

theorem blockInterruptedTask_sameSide {time : Timestamp} {uuid4 : TaskId → Uuid} {row : TaskRow}
    {out : Task × StoredEvent} (h : blockInterruptedTask time uuid4 row s = .ok (out, s')) :
    s.SameSide s' := by
  simp only [blockInterruptedTask, bind_eq_ok, Prod.exists] at h
  obtain ⟨event, _, blocked, _, b, s₁, happend, h⟩ := h
  have hside := appendEventLocked_sameSide happend
  split at h <;> cases h
  exact ⟨hside.artifacts, hside.gatewayRequests⟩

end Store

/-- The operations that write artifacts or gateway requests. -/
def WriteOp.writesSide : WriteOp → Bool
  | createArtifact _ | reserveGatewayRequest .. | rememberGatewayResponse ..
  | releaseGatewayRequest .. | reconcileIncompleteGatewayRequests => true
  | _ => false

/-- The other operations leave artifacts and gateway requests alone. -/
theorem WriteOp.exec_sameSide {op : WriteOp} {s s' : Store} (hop : op.writesSide = false)
    (h : op.exec s = .ok s') : s.SameSide s' := by
  cases op with
  | createArtifact | reserveGatewayRequest | rememberGatewayResponse | releaseGatewayRequest
  | reconcileIncompleteGatewayRequests => cases hop
  | reconcileReservedDeliveries =>
    cases h
    exact ⟨rfl, rfl⟩
  | createTask task event =>
    rw [exec, map_eq_ok] at h
    obtain ⟨⟨_, _⟩, hcall, rfl⟩ := h
    exact Store.createTask_sameSide hcall
  | createQueuedTask task created queued route =>
    rw [exec, map_eq_ok] at h
    obtain ⟨⟨_, _⟩, hcall, rfl⟩ := h
    exact Store.createQueuedTask_sameSide hcall
  | transitionTask taskId target event | cancelTask taskId event =>
    rw [exec, map_eq_ok] at h
    obtain ⟨⟨_, _⟩, hcall, rfl⟩ := h
    exact Store.transitionTask_sameSide hcall
  | assignTask taskId agent event =>
    rw [exec, map_eq_ok] at h
    obtain ⟨⟨_, _⟩, hcall, rfl⟩ := h
    obtain ⟨_, _, _, _, ⟨_, _, rfl⟩ | ⟨_, _, hsame, _⟩⟩ := Store.assignTask_ok hcall
    · exact .refl _
    · exact ⟨hsame.artifacts, hsame.gatewayRequests⟩
  | appendEvent event =>
    rw [exec, map_eq_ok] at h
    obtain ⟨⟨_, _⟩, hcall, rfl⟩ := h
    have hsame := (Store.appendEvent_ok hcall).2
    exact ⟨hsame.artifacts, hsame.gatewayRequests⟩
  | createRun run =>
    rw [exec, map_eq_ok] at h
    obtain ⟨⟨_, _⟩, hcall, rfl⟩ := h
    obtain ⟨_, _, _, rfl⟩ := Store.createRun_ok hcall
    exact ⟨rfl, rfl⟩
  | startRun runId time =>
    rw [exec, map_eq_ok] at h
    obtain ⟨⟨_, _⟩, hcall, rfl⟩ := h
    obtain ⟨_, _, _, _, rfl⟩ := Store.startRun_ok hcall
    exact ⟨rfl, rfl⟩
  | finishRun runId status time exitCode errorCode =>
    rw [exec, map_eq_ok] at h
    obtain ⟨⟨_, _⟩, hcall, rfl⟩ := h
    obtain ⟨_, _, _, _, _, rfl⟩ := Store.finishRun_ok hcall
    exact ⟨rfl, rfl⟩
  | saveTaskRoute route =>
    rw [exec, map_eq_ok] at h
    obtain ⟨⟨_, _⟩, hcall, rfl⟩ := h
    rcases Store.saveTaskRoute_ok hcall with rfl | ⟨_, rfl⟩ <;> exact ⟨rfl, rfl⟩
  | reserveDelivery id time =>
    rw [exec, map_eq_ok] at h
    obtain ⟨⟨_, _⟩, hcall, rfl⟩ := h
    obtain ⟨_, _, ⟨_, rfl, _⟩ | ⟨_, _, rfl⟩⟩ := Store.reserveDelivery_ok hcall <;> exact ⟨rfl, rfl⟩
  | markDeliveryDelivered id time =>
    rw [exec, map_eq_ok] at h
    obtain ⟨⟨_, _⟩, hcall, rfl⟩ := h
    obtain ⟨_, _, _, _, ⟨_, rfl⟩ | ⟨_, rfl⟩⟩ := Store.markDeliveryDelivered_ok hcall <;>
      exact ⟨rfl, rfl⟩
  | releaseDelivery id =>
    rw [exec, map_eq_ok] at h
    obtain ⟨⟨_, _⟩, hcall, rfl⟩ := h
    obtain ⟨_, _, ⟨_, rfl⟩ | ⟨_, _, _, rfl⟩⟩ := Store.releaseDelivery_ok hcall <;>
      exact ⟨rfl, rfl⟩
  | reconcileInterruptedRunning time uuid4 =>
    rw [exec, map_eq_ok] at h
    obtain ⟨⟨_, _⟩, hcall, rfl⟩ := h
    simp only [Store.reconcileInterruptedRunning, bind_eq_ok, Prod.exists, pure_eq_ok] at hcall
    obtain ⟨_, s₁, hruns, _, s₂, htasks, hcall⟩ := hcall
    cases hcall
    exact (Store.forEach_rel Store.SameSide.refl (fun _ _ _ => .trans)
      (fun _ _ _ _ => Store.interruptRun_sameSide) hruns).trans
      (Store.forEach_rel Store.SameSide.refl (fun _ _ _ => .trans)
        (fun _ _ _ _ => Store.blockInterruptedTask_sameSide) htasks)

end AIHub
