import AIHub.Domain.TimeOrder
import AIHub.Lib.Sorted
import AIHub.Storage.Listings
import AIHub.Storage.Writes
import Mathlib.Data.Prod.Lex

/-!
# Listings and instants

Queued tasks and runs are listed by the texts of their creation times. Times of one UTC offset are
listed by their instants, but a time with an offset to the east has a later text than one that is
not as far to the east and comes after it.

* `listQueuedTasks_eq`: the queued tasks of a reachable store are listed by their texts.
* `listings_iff`: when the tasks are listed by their instants, and the last run is the latest.
* `listings_of_offset`: they are if all times have one offset.
-/

namespace AIHub

/-! ## Orders -/

namespace Task

/-- What the tasks are listed by: the text of the creation time, and the id. -/
def listingKey (task : Task) : Lex (String × String) :=
  toLex (task.createdAt.isoformat, task.taskId.val)

/-- The instant of the creation time, and the id. -/
def instantKey (task : Task) : Lex (Int × String) :=
  toLex (task.createdAt.instant, task.taskId.val)

/-- The creation time of `a` is shown before that of `b`, or is the same and `a` has the smaller
id. -/
def ShownBefore (a b : Task) : Prop :=
  a.createdAt.ShownBefore b.createdAt ∨ a.createdAt = b.createdAt ∧ a.taskId.val < b.taskId.val

/-- `a` was created before `b`, or at the same instant and has the smaller id. -/
def CreatedBefore (a b : Task) : Prop :=
  a.createdAt.instant < b.createdAt.instant ∨
    a.createdAt.instant = b.createdAt.instant ∧ a.taskId.val < b.taskId.val

instance : DecidableRel CreatedBefore := fun _ _ => inferInstanceAs (Decidable (_ ∨ _))

theorem createdBefore_iff {a b : Task} : a.CreatedBefore b ↔ a.instantKey < b.instantKey := by
  rw [instantKey, instantKey, Prod.Lex.toLex_lt_toLex]
  rfl

theorem shownBefore_iff {a b : Task} (ha : a.createdAt.IsDatetime) (hb : b.createdAt.IsDatetime) :
    a.ShownBefore b ↔ a.listingKey < b.listingKey := by
  rw [listingKey, listingKey, Prod.Lex.toLex_lt_toLex]
  dsimp only
  rw [Timestamp.isoformat_lt ha hb, Timestamp.isoformat_inj ha hb]
  rfl

end Task

/-- What the runs are listed by: the text of the creation time, and the id. -/
def RunRecord.listingKey (run : RunRecord) : Lex (String × String) :=
  toLex (run.createdAt.isoformat, run.runId.val)

namespace Store

/-- The stored tasks that are queued. -/
def queuedTasks (s : Store) : List Task :=
  (s.tasks.rows.map TaskRow.taskJson).filter fun task => task.status = .queued

/-- The stored runs of a task. -/
def runsOf (s : Store) (taskId : String) : List RunRecord :=
  (s.runs.rows.map RunRow.runJson).filter fun run => run.taskId.val = taskId

/-- The creation times of all tasks and runs are times that a `datetime` can hold. -/
structure Datetimes (s : Store) : Prop where
  tasks : ∀ row ∈ s.tasks, row.taskJson.createdAt.IsDatetime
  runs : ∀ row ∈ s.runs, row.runJson.createdAt.IsDatetime

variable {s : Store} {taskId : String}

theorem mem_queuedTasks {task : Task} (h : task ∈ s.queuedTasks) :
    ∃ row ∈ s.tasks, row.taskJson = task :=
  List.mem_map.1 (List.mem_filter.1 h).1

theorem mem_runsOf {run : RunRecord} (h : run ∈ s.runsOf taskId) :
    ∃ row ∈ s.runs, row.runJson = run :=
  List.mem_map.1 (List.mem_filter.1 h).1

theorem queuedTasks_eq (hs : s.Mirrored) : s.queuedTasks = s.queuedRows.map TaskRow.taskJson := by
  rw [queuedTasks, List.filter_map]
  refine congrArg _ (List.filter_congr fun row hrow => ?_)
  simp [(hs.tasks row hrow).status]

/-- No two queued tasks have the same id. -/
theorem nodup_queuedTasks (hs : s.Mirrored) :
    (s.queuedTasks.map fun task => task.taskId.val).Nodup := by
  have hids : (s.tasks.rows.map TaskRow.taskJson).map (fun task => task.taskId.val) =
      s.tasks.rows.map TaskRow.key := by
    rw [List.map_map]
    exact List.map_congr_left fun row hrow => congrArg Constrained.val (hs.tasks row hrow).taskId
  exact (hids ▸ s.tasks.unique).sublist (List.filter_sublist.map _)

/-- The queued tasks are listed by the texts of their creation times. -/
theorem listQueuedTasks_eq (hs : s.Mirrored) {limit : Int} (h : 1 ≤ limit ∧ limit ≤ 1000) :
    s.listQueuedTasks limit = .ok ((s.queuedTasks.sortedBy Task.listingKey).take limit.toNat) := by
  have hkeys : ∀ a ∈ s.queuedRows, ∀ b ∈ s.queuedRows,
      TaskRow.before a b ↔ a.taskJson.listingKey ≤ b.taskJson.listingKey := by
    intro a ha b hb
    have hma := hs.tasks a (List.mem_of_mem_filter ha)
    have hmb := hs.tasks b (List.mem_of_mem_filter hb)
    rw [Task.listingKey, Task.listingKey, Prod.Lex.toLex_le_toLex, hma.createdAt, hmb.createdAt,
      hma.taskId, hmb.taskId]
    rfl
  have hsorted := List.map_insertionSort TaskRow.before
    (fun a b : Task => a.listingKey ≤ b.listingKey) TaskRow.taskJson s.queuedRows hkeys
  rw [listQueuedTasks, raiseIf, if_neg (not_not.2 h), List.map_take, hsorted, ← queuedTasks_eq hs]
  rfl

/-- The runs are listed by the texts of their creation times. -/
theorem listRuns_eq (hs : s.Mirrored) :
    s.listRuns taskId = (s.runsOf taskId).sortedBy RunRecord.listingKey := by
  have hruns : s.runsOf taskId =
      (s.runs.rows.filter fun r => r.taskId.val = taskId).map RunRow.runJson := by
    rw [runsOf, List.filter_map]
    refine congrArg _ (List.filter_congr fun row hrow => ?_)
    exact decide_eq_decide.2 (Eq.congr_left (congrArg (fun r => r.taskId.val) (hs.runs row hrow)))
  have hkeys : ∀ a ∈ s.runs.rows.filter fun r => r.taskId.val = taskId,
      ∀ b ∈ s.runs.rows.filter fun r => r.taskId.val = taskId,
      RunRow.before a b ↔ a.runJson.listingKey ≤ b.runJson.listingKey := by
    intro a ha b hb
    rw [RunRecord.listingKey, RunRecord.listingKey, Prod.Lex.toLex_le_toLex,
      ← hs.runs a (List.mem_of_mem_filter ha), ← hs.runs b (List.mem_of_mem_filter hb)]
    rfl
  rw [hruns]
  exact List.map_insertionSort RunRow.before
    (fun a b : RunRecord => a.listingKey ≤ b.listingKey) RunRow.runJson _ hkeys

/-- No run is listed with a later text than the last one. -/
theorem last_listRuns (hs : s.Mirrored) {run : RunRecord}
    (h : run ∈ (s.listRuns taskId).getLast?) : run ∈ s.runsOf taskId ∧
      ∀ other ∈ s.runsOf taskId, other.createdAt.isoformat ≤ run.createdAt.isoformat := by
  rw [listRuns_eq hs] at h
  have hperm := (s.runsOf taskId).sortedBy_perm RunRecord.listingKey
  have hsorted : ((s.runsOf taskId).sortedBy RunRecord.listingKey).Pairwise fun a b =>
      a.listingKey ≤ b.listingKey :=
    List.pairwise_insertionSort (fun a b : RunRecord => a.listingKey ≤ b.listingKey) _
  obtain ⟨init, hinit⟩ := List.getLast?_eq_some_iff.1 h
  rw [hinit] at hperm hsorted
  refine ⟨hperm.mem_iff.1 (List.mem_append_right _ List.mem_cons_self), fun other hother => ?_⟩
  rcases List.mem_append.1 (hperm.mem_iff.2 hother) with hother | hother
  · have hle := (List.pairwise_append.1 hsorted).2.2 other hother run List.mem_cons_self
    rw [RunRecord.listingKey, RunRecord.listingKey, Prod.Lex.toLex_le_toLex] at hle
    rcases hle with hlt | hle
    · exact hlt.le
    · exact hle.1.le
  · rw [List.mem_singleton.1 hother]

/-- The last run is the latest one if and only if for every run that is not, another one has a later
text. -/
theorem last_latest_iff (hs : s.Mirrored) (htimes : s.Datetimes) :
    (∀ run ∈ (s.listRuns taskId).getLast?, ∀ other ∈ s.runsOf taskId,
        other.createdAt ≤ run.createdAt) ↔
      ∀ run ∈ s.runsOf taskId, (∃ other ∈ s.runsOf taskId, run.createdAt < other.createdAt) →
        ∃ other ∈ s.runsOf taskId, run.createdAt.ShownBefore other.createdAt := by
  have hdatetime : ∀ run ∈ s.runsOf taskId, run.createdAt.IsDatetime := by
    intro run hrun
    obtain ⟨row, hrow, rfl⟩ := mem_runsOf hrun
    exact htimes.runs row hrow
  constructor
  · intro h run hrun hlater
    obtain ⟨other, hother, hlt⟩ := hlater
    cases hlast : (s.listRuns taskId).getLast? with
    | none =>
      rw [List.getLast?_eq_none_iff, listRuns_eq hs] at hlast
      have hmem := ((s.runsOf taskId).sortedBy_perm RunRecord.listingKey).mem_iff.2 hrun
      exact absurd (hlast ▸ hmem) List.not_mem_nil
    | some last =>
      obtain ⟨hmem, hle⟩ := last_listRuns hs hlast
      refine ⟨last, hmem, (Timestamp.isoformat_lt (hdatetime _ hrun) (hdatetime _ hmem)).1 ?_⟩
      -- the last run is as late as the other one, so it has another time than this one
      have hlast := Timestamp.le_def.1 (h last hlast other hother)
      have hlt := Timestamp.lt_def.1 hlt
      refine lt_of_le_of_ne (hle run hrun) fun heq => ?_
      have htime := (Timestamp.isoformat_inj (hdatetime _ hrun) (hdatetime _ hmem)).1 heq
      rw [htime] at hlt
      omega
  · intro h run hlast other hother
    obtain ⟨hmem, hle⟩ := last_listRuns hs hlast
    by_contra hnot
    have hlt : run.createdAt < other.createdAt := Timestamp.lt_def.2 (Int.not_le.1 hnot)
    obtain ⟨after, hafter, hshown⟩ := h run hmem ⟨other, hother, hlt⟩
    have hbefore := (Timestamp.isoformat_lt (hdatetime _ hmem) (hdatetime _ hafter)).2 hshown
    exact absurd (hle after hafter) (not_le.2 hbefore)

/-! ## The first tasks -/

/-- The first tasks under the texts are those under the instants if and only if these come before
all later ones under the texts as well. -/
theorem first_earliest_iff (hs : s.Mirrored) (htimes : s.Datetimes) {limit : Int}
    (h : 1 ≤ limit ∧ limit ≤ 1000) :
    s.listQueuedTasks limit =
        .ok ((s.queuedTasks.sortedBy Task.instantKey).take limit.toNat) ↔
      ∀ a ∈ s.queuedTasks, (s.queuedTasks.filter fun b => b.CreatedBefore a).length < limit →
        ∀ b ∈ s.queuedTasks, a.CreatedBefore b → a.ShownBefore b := by
  have hdatetime : ∀ task ∈ s.queuedTasks, task.createdAt.IsDatetime := by
    intro task htask
    obtain ⟨row, hrow, rfl⟩ := mem_queuedTasks htask
    exact htimes.tasks row hrow
  have hids := List.pairwise_map.1 (nodup_queuedTasks hs)
  have hlisting : (s.queuedTasks.map Task.listingKey).Nodup := List.pairwise_map.2
    (hids.imp fun hne heq => hne (congrArg (fun key => (ofLex key).2) heq))
  have hinstant : (s.queuedTasks.map Task.instantKey).Nodup := List.pairwise_map.2
    (hids.imp fun hne heq => hne (congrArg (fun key => (ofLex key).2) heq))
  rw [listQueuedTasks_eq hs h, Except.ok.injEq, List.take_sortedBy_eq_iff hlisting hinstant]
  refine forall₂_congr fun a ha => ?_
  simp only [← Task.createdBefore_iff]
  refine imp_congr (by omega) (forall₂_congr fun b hb => imp_congr_right fun _ => ?_)
  exact (Task.shownBefore_iff (hdatetime a ha) (hdatetime b hb)).symm

end Store

/-- The listings are those of the instants if all times have one UTC offset. -/
theorem listings_of_offset {s : Store} (h : writeSystem.Reachable s) (htimes : s.Datetimes)
    (offset : Int) (htasks : ∀ row ∈ s.tasks, row.taskJson.createdAt.offset = offset)
    (hruns : ∀ row ∈ s.runs, row.runJson.createdAt.offset = offset) {limit : Int}
    (hlimit : 1 ≤ limit ∧ limit ≤ 1000) (taskId : String) :
    s.listQueuedTasks limit = .ok ((s.queuedTasks.sortedBy Task.instantKey).take limit.toNat) ∧
      ∀ run ∈ (s.listRuns taskId).getLast?, ∀ other ∈ s.runsOf taskId,
        other.createdAt ≤ run.createdAt := by
  have hs := writeSystem_mirrored h
  rw [Store.first_earliest_iff hs htimes hlimit, Store.last_latest_iff hs htimes]
  constructor
  · intro a ha _ b hb hbefore
    obtain ⟨row, hrow, rfl⟩ := Store.mem_queuedTasks ha
    obtain ⟨row', hrow', rfl⟩ := Store.mem_queuedTasks hb
    have hoffset := (htasks row hrow).trans (htasks row' hrow').symm
    rcases hbefore with hlt | ⟨heq, hid⟩
    · exact .inl ((Timestamp.shownBefore_of_offset hoffset).2 hlt)
    · exact .inr ⟨Timestamp.eq_of_instant heq hoffset, hid⟩
  · intro run hrun hlater
    obtain ⟨other, hother, hlt⟩ := hlater
    obtain ⟨row, hrow, rfl⟩ := Store.mem_runsOf hrun
    obtain ⟨row', hrow', rfl⟩ := Store.mem_runsOf hother
    have hoffset := (hruns row hrow).trans (hruns row' hrow').symm
    exact ⟨_, hother, (Timestamp.shownBefore_of_offset hoffset).2 hlt⟩

namespace Sample

end Sample

end AIHub
