import AIHub.Orchestrator.Cancellation
import AIHub.Orchestrator.Ledger

/-!
# The phase of a call

A `process_task` call stands in a phase of the ledger (`ProcessPc.phase`), and what it relies on
there are its `Facts`: the run it has opened is open, the task it has read is the stored one unless
that has been cancelled, and its events are stamped with times that have passed.

`processNext_advance`: when the store does not fail, clocks do not run backwards and the call does
not lose the run it has opened, its step is a step of the ledger and keeps its facts.
-/

namespace AIHub

open Transition

variable {s s' : Store} {c : Choice} {event : EventEnvelope} {taskId : TaskId} {clock : Timestamp}

/-! ## The run table -/

namespace Store

/-- The run `get_run` returns. -/
def run? (s : Store) (runId : RunId) : Option RunRecord :=
  (s.runs.get? runId.val).map RunRow.runJson

/-- The statuses of the runs of a task. -/
def runStatus (s : Store) (taskId : TaskId) (runId : RunId) : Option RunStatus :=
  (s.run? runId).bind fun run => if run.taskId = taskId then some run.status else none

/-- The task, its runs, and the phase of the call that has claimed it. -/
def ledger (s : Store) (taskId : TaskId) (phase : Phase) : Ledger :=
  ⟨s.statusOf taskId, s.runStatus taskId, phase⟩

/-- `s'` has the runs of `s`, but for `run`. -/
def SetsRun (s : Store) (run : RunRecord) (s' : Store) : Prop :=
  s'.run? = Function.update s.run? run.runId (some run)

theorem setsRun_create {run : RunRecord} {hfree}
    (h : s'.runs = s.runs.insert (RunRow.ofRecord run) hfree) : s.SetsRun run s' := by
  funext runId
  simp only [run?, h, Table.get?_insert]
  by_cases hrun : runId = run.runId
  · subst hrun
    simp [RunRow.key, RunRow.ofRecord]
  · have hne : (RunRow.ofRecord run).key ≠ runId.val :=
      fun he => hrun (Constrained.val_inj.1 he).symm
    rw [if_neg hne, Function.update_of_ne hrun]
    rfl

theorem get?_writeRunLocked (s : Store) (run : RunRecord) (k : String) :
    ((s.writeRunLocked run).runs.get? k).map RunRow.runJson =
      (s.runs.get? k).map fun row => if row.key = run.runId.val then run else row.runJson := by
  refine (congrArg (Option.map _) (Table.get?_update _ _ _ (by intro; rfl) k)).trans ?_
  rw [Option.map_map]
  congr 1
  funext row
  by_cases hrow : row.key = run.runId.val <;> simp [hrow]

theorem setsRun_write {row : RunRow} {run : RunRecord}
    (hrow : s.runs.get? run.runId.val = some row)
    (h : s'.runs = (s.writeRunLocked run).runs) : s.SetsRun run s' := by
  funext runId
  rw [run?, h, get?_writeRunLocked]
  by_cases hrun : runId = run.runId
  · subst hrun
    simp [hrow, Table.key_of_get? hrow]
  · rw [Function.update_of_ne hrun, run?]
    cases hget : s.runs.get? runId.val with
    | none => rfl
    | some other =>
      have hne : other.key ≠ run.runId.val := by
        rw [Table.key_of_get? hget]
        exact fun he => hrun (Constrained.val_inj.1 he)
      simp [hne]

end Store

/-! ## Steps of the ledger -/

theorem ledger_moved {target : TaskStatus} {before after : Task} (p q : Phase)
    (h : StatusChange taskId target event s before after s') :
    s'.ledger taskId q = { s.ledger taskId p with status := some target, phase := q } := by
  unfold Store.ledger Store.runStatus Store.run?
  rw [h.statusOf.2, h.runs]

theorem ledger_same (h : s'.statusOf taskId = s.statusOf taskId) (hruns : s'.runs = s.runs)
    (p : Phase) : s'.ledger taskId p = s.ledger taskId p := by
  unfold Store.ledger Store.runStatus Store.run?
  rw [h, hruns]

theorem ledger_setRun {run : RunRecord} (p q : Phase) (hsame : s.SameTasks s')
    (h : s.SetsRun run s') (htask : run.taskId = taskId) :
    s'.ledger taskId q =
      { (s.ledger taskId p).setRun run.runId run.status with phase := q } := by
  refine Ledger.ext (hsame.statusOf taskId) ?_ rfl
  funext runId
  show s'.runStatus taskId runId =
    Function.update (s.runStatus taskId) run.runId (some run.status) runId
  unfold Store.runStatus
  rw [h]
  by_cases hrun : runId = run.runId
  · subst hrun
    simp [htask]
  · simp [Function.update_of_ne hrun]

/-! ## Events and runs that are not refused -/

namespace Orchestrator

variable {o : Orchestrator} {task : Task}

theorem event_ok {eventType : EventType} {agent : Option Identifier} {level : EventLevel}
    {payload : JsonObject} (h : o.event c task eventType agent level payload = .ok event) :
    event.timestamp = c.time := by
  rw [EventEnvelope.modelValidate_eq_ok.1 h]

theorem category_eventForStatus (target : TaskStatus) :
    (eventForStatus target).category ≠ "agent" ∧ (eventForStatus target).category ≠ "team" ∧
      eventForStatus target ≠ .projectTaskRouted := by
  cases target <;> decide

/-- The event of a status change is well formed when its payload is. -/
theorem transitionEvent_ok (o : Orchestrator) (c : Choice) (task : Task) {target : TaskStatus}
    (agent : Option Identifier) (level : EventLevel) {payload : JsonObject}
    (hpayload : findForbiddenPayloadKey (payload.set "status" (.string target.value)) = none) :
    ∃ event, o.transitionEvent c task target agent level payload = .ok event ∧
      LifecycleEvent task target event ∧ event.timestamp = c.time := by
  obtain ⟨hagent, htype⟩ := category_eventForStatus target
  obtain ⟨event, hevent, hfields⟩ := EventEnvelope.modelValidate_of_context
    (EventFields.validateContext_ok (e := {
      eventId := c.uuid
      eventType := eventForStatus target
      timestamp := c.time
      taskId := some task.taskId
      project := some task.project
      team := some task.team
      agent := agent
      correlationId := some (o.correlationId task.taskId)
      level := level
      payload := payload.set "status" (.string target.value) })
      rfl (fun h => absurd h hagent) htype (by simp) hpayload)
  refine ⟨event, hevent, ?_, by rw [hfields]⟩
  constructor <;> rw [hfields]
  exact JsonObject.get?_set_self _ _ _

/-- The event that finishes a task is well formed. -/
theorem finishEvent_ok (o : Orchestrator) (c : Choice) (current : Task) (result : RuntimeResult)
    (branch : String) : ∃ event, o.finishEvent c current result branch = .ok event ∧
      LifecycleEvent current (finishTarget result.status) event ∧ event.timestamp = c.time := by
  refine o.transitionEvent_ok c current _ _ ?_
  have hmem : ∀ m ∈ (finishPayload result branch).set "status"
      (.string (finishTarget result.status).value), m.2.isFlat = true ∧
        m.1 ∈ ["branch", "changed_files", "reason", "status"] := by
    intro m hm
    rcases JsonObject.mem_set hm with rfl | hm
    · simp [JsonValue.isFlat, JsonValue.isScalar]
    · have hm' : m = ("reason", .string s!"runtime-{result.status.value}") ∨
          m ∈ ([("branch", .string branch), ("changed_files",
            .array (result.changedFiles.map .string))] : JsonObject) := by
        unfold finishPayload at hm
        split_ifs at hm with htarget
        · exact JsonObject.mem_set hm
        · exact .inr hm
      simp only [List.mem_cons, List.not_mem_nil, or_false] at hm'
      rcases hm' with rfl | rfl | rfl <;> simp [JsonValue.isFlat, JsonValue.isScalar]
  refine findForbiddenMember_flat (fun m hm => (hmem m hm).1) (fun m hm => ?_) _
  have hkeys : ∀ key ∈ ["branch", "changed_files", "reason", "status"],
      decide (normalizeKey key ∈ forbiddenPayloadKeys) = false := by decide
  exact hkeys _ (hmem m hm).2

end Orchestrator

/-! ## Phases -/

/-- What a call is up to. -/
def ProcessPc.phase : ProcessPc → Phase
  | waiting | gettingTask | gotTask _ | planning _ _ | notifying _ | done _ => .idle
  | planned _ | assigning _ _ _ | entering _ _ | settingRunning _ _ _ _ | notifyingCancelled _ _
  | exiting _ _ none | gettingFailed _ | gettingSettled _ _ | gotSettled _ _
  | settling _ _ _ => .held
  | notifyingRunning _ _ _ | creatingRun _ _ _ => .running
  | startingRun _ _ runId | runStarted _ _ runId | executing _ _ runId | finishingRun _ _ runId _
  | exiting _ _ (some runId) | closingRun _ runId => .opened runId
  | gettingCurrent _ _ result | gotCurrent _ _ _ result | finishingTask _ _ result _ =>
    .finished result.status

/-- A run that is open, and was created and started before `clock`. -/
structure IsOpen (taskId : TaskId) (clock : Timestamp) (run : RunRecord) : Prop where
  taskId_eq : run.taskId = taskId
  active : run.status.isTerminal = false
  created : run.createdAt ≤ clock
  started : ∀ t ∈ run.startedAt, t ≤ clock

/-- The store has the run `runId`, and it is open. -/
def HasOpen (taskId : TaskId) (clock : Timestamp) (s : Store) (runId : RunId) : Prop :=
  ∃ run, s.run? runId = some run ∧ run.runId = runId ∧ IsOpen taskId clock run

/-- The task is running, or has been cancelled. -/
def Store.IsBusy (s : Store) (taskId : TaskId) : Prop :=
  s.statusOf taskId = some .running ∨ s.statusOf taskId = some .cancelled

/-- `current` is the stored task, unless that has been cancelled. -/
def IsCurrent (taskId : TaskId) (s : Store) (current : Task) : Prop :=
  s.statusOf taskId = some .cancelled ∨ s.task? taskId = some current

/-- The stored task was created and started before `clock`. -/
def InTime (taskId : TaskId) (clock : Timestamp) (s : Store) : Prop :=
  ∀ task, s.task? taskId = some task → task.createdAt ≤ clock ∧ ∀ t ∈ task.startedAt, t ≤ clock

/-- What a call may rely on where it stands. -/
def ProcessPc.Facts (taskId : TaskId) (clock : Timestamp) (s : Store) : ProcessPc → Prop
  | planning _ event | settingRunning _ _ _ event | settling _ _ event => event.timestamp ≤ clock
  | creatingRun _ _ run => run.status = .queued ∧ IsOpen taskId clock run
  | startingRun _ _ runId | runStarted _ _ runId | executing _ _ runId | finishingRun _ _ runId _
  | exiting _ _ (some runId) | closingRun _ runId => HasOpen taskId clock s runId
  | gotCurrent _ current _ _ => IsCurrent taskId s current ∧
    current.createdAt ≤ clock ∧ ∀ t ∈ current.startedAt, t ≤ clock
  | finishingTask _ current result event => event.timestamp ≤ clock ∧
    IsCurrent taskId s current ∧
    LifecycleEvent current (Orchestrator.finishTarget result.status) event ∧
    current.createdAt ≤ event.timestamp ∧ ∀ t ∈ current.startedAt, t ≤ event.timestamp
  | _ => True

/-- The exception that reaches the handlers of `process_task`. -/
def Body.exception : Body → ExitOutcome → Option Raised
  | _, .raises e => some e
  | .raised e, .leaves => some e
  | _, _ => none

/-- The call leaves the workspace with an open run, and not by an exception whose handler closes
runs. -/
def ProcessPc.LosesRun (c : Choice) : ProcessPc → Prop
  | exiting _ body (some _) => body.exception c.exited ≠ some .other
  | _ => False

instance (c : Choice) (pc : ProcessPc) : Decidable (pc.LosesRun c) := by
  unfold ProcessPc.LosesRun
  split <;> infer_instance

/-! ### Time passes -/

variable {clock' : Timestamp} {pc pc' : ProcessPc}

theorem IsOpen.mono {run : RunRecord} (h : IsOpen taskId clock run) (hclock : clock ≤ clock') :
    IsOpen taskId clock' run :=
  ⟨h.taskId_eq, h.active, h.created.trans hclock, fun t ht => (h.started t ht).trans hclock⟩

theorem HasOpen.mono {runId : RunId} (h : HasOpen taskId clock s runId) (hclock : clock ≤ clock')
    (hruns : s'.runs = s.runs) : HasOpen taskId clock' s' runId := by
  obtain ⟨run, hrun, hid, hopen⟩ := h
  exact ⟨run, by rw [← hrun, Store.run?, Store.run?, hruns], hid, hopen.mono hclock⟩

theorem InTime.mono (h : InTime taskId clock s) (hclock : clock ≤ clock')
    (htask : s'.task? taskId = s.task? taskId) : InTime taskId clock' s' := by
  intro task hs
  obtain ⟨hcreated, hstarted⟩ := h task (htask ▸ hs)
  exact ⟨hcreated.trans hclock, fun t ht => (hstarted t ht).trans hclock⟩

/-- What a call relies on stays true as long as the runs stay as they are and the task stays, or
is cancelled. -/
theorem ProcessPc.Facts.mono (h : pc.Facts taskId clock s) (hclock : clock ≤ clock')
    (hruns : s'.runs = s.runs) (hcurrent : ∀ current, IsCurrent taskId s current →
      IsCurrent taskId s' current) : pc.Facts taskId clock' s' := by
  cases pc with
  | planning | settingRunning | settling => exact le_trans (b := clock) h hclock
  | creatingRun => exact ⟨h.1, h.2.mono hclock⟩
  | startingRun | runStarted | executing | finishingRun | closingRun =>
    exact HasOpen.mono h hclock hruns
  | exiting _ _ openRun =>
    cases openRun with
    | none => trivial
    | some runId => exact HasOpen.mono h hclock hruns
  | gotCurrent _ current =>
    obtain ⟨hcur, hcreated, hstarted⟩ := h
    exact ⟨hcurrent current hcur, hcreated.trans hclock, fun t ht => (hstarted t ht).trans hclock⟩
  | finishingTask _ current =>
    obtain ⟨htime, hcur, hevent⟩ := h
    exact ⟨htime.trans hclock, hcurrent current hcur, hevent⟩
  | _ => trivial

/-- A call that has not claimed the task relies on no stored record. -/
theorem ProcessPc.Facts.idle (h : pc.Facts taskId clock s) (hclock : clock ≤ clock')
    (hphase : pc.phase = .idle) : pc.Facts taskId clock' s' := by
  cases pc with
  | planning => exact le_trans (b := clock) h hclock
  | exiting _ _ openRun => cases openRun <;> cases hphase
  | waiting | gettingTask | gotTask | notifying | done => trivial
  | _ => cases hphase

/-- A status change at a time before `clock` leaves the task in time. -/
theorem StatusChange.inTime {target : TaskStatus} {before after : Task}
    (h : StatusChange taskId target event s before after s') (hevent : event.timestamp ≤ clock) :
    InTime taskId clock s' := by
  intro task hs
  obtain rfl := Option.some.inj (h.left.symm.trans hs)
  rw [h.moved]
  refine ⟨h.created.trans hevent, fun t ht => ?_⟩
  simp only [TaskFields.moved] at ht
  split_ifs at ht
  · cases ht
    exact hevent
  · exact (h.started t ht).trans hevent

theorem Assignment.inTime {agent : Identifier} {before after : Task}
    (h : Assignment taskId agent s before after s') (hs : InTime taskId clock s)
    (hclock : clock ≤ clock') : InTime taskId clock' s' := by
  intro task hs'
  obtain rfl := Option.some.inj (h.left.symm.trans hs')
  rw [h.assigned]
  obtain ⟨hcreated, hstarted⟩ := hs before h.found
  exact ⟨hcreated.trans hclock, fun t ht => (hstarted t ht).trans hclock⟩

/-! ## The steps of a call -/

/-- A step of the ledger that keeps the facts. -/
structure Advance (taskId : TaskId) (time : Timestamp) (s : Store) (pc : ProcessPc) (s' : Store)
    (pc' : ProcessPc) : Prop where
  work : Ledger.Work (s.ledger taskId pc.phase) (s'.ledger taskId pc'.phase)
  facts : pc'.Facts taskId time s'
  inTime : InTime taskId time s'

section

variable {o : Orchestrator} {task current : Task} {workspace : PreparedWorkspace} {runId : RunId}
  {result : RuntimeResult}

theorem HasOpen.row {row : RunRow} (h : HasOpen taskId clock s runId)
    (hrow : s.runs.get? runId.val = some row) :
    row.runJson.runId = runId ∧ IsOpen taskId clock row.runJson := by
  obtain ⟨run, hrun, hid, hopen⟩ := h
  rw [Store.run?, hrow] at hrun
  obtain rfl := Option.some.inj hrun
  exact ⟨hid, hopen⟩

/-- The open run is written. -/
theorem HasOpen.setsRun {row : RunRow} {run : RunRecord} (h : HasOpen taskId clock s runId)
    (hrow : s.runs.get? runId.val = some row) (hid : run.runId = row.runJson.runId)
    (htask : run.taskId = row.runJson.taskId) (hruns : s'.runs = (s.writeRunLocked run).runs) :
    run.runId = runId ∧ run.taskId = taskId ∧ s.SetsRun run s' := by
  obtain ⟨hrowId, hopen⟩ := h.row hrow
  have hrun : run.runId = runId := hid.trans hrowId
  exact ⟨hrun, htask.trans hopen.taskId_eq, Store.setsRun_write (hrun ▸ hrow) hruns⟩

theorem advance_creatingRun {run : RunRecord}
    (hclock : clock ≤ c.time) (hin : InTime taskId clock s)
    (hfacts : (ProcessPc.creatingRun task workspace run).Facts taskId clock s)
    (h : processNext o taskId c (.creatingRun task workspace run) s = some (pc', s')) :
    Advance taskId c.time s (.creatingRun task workspace run) s' pc' := by
  obtain ⟨hqueued, hopen⟩ := hfacts
  simp only [processNext] at h
  split at h <;> cases h
  · rename_i created hcall
    obtain ⟨rfl, hsame, hfree, hruns⟩ := call_createRun hcall
    have hsets := Store.setsRun_create hruns
    refine ⟨?_, ⟨created, by rw [hsets, Function.update_self], rfl, hopen.mono hclock⟩,
      hin.mono hclock (hsame.task? taskId)⟩
    show Ledger.Work _ (s'.ledger taskId (.opened created.runId))
    rw [ledger_setRun .running _ hsame hsets hopen.taskId_eq, hqueued]
    refine .openRun rfl ?_
    have hnone : s.run? created.runId = none := by
      rw [Store.run?, Option.map_eq_none_iff]
      exact hfree
    show s.runStatus taskId created.runId = none
    rw [Store.runStatus, hnone]
    rfl
  · exact ⟨.giveUp rfl, trivial, hin.mono hclock rfl⟩

theorem advance_startingRun (hclock : clock ≤ c.time) (hin : InTime taskId clock s)
    (hfacts : HasOpen taskId clock s runId)
    (h : processNext o taskId c (.startingRun task workspace runId) s = some (pc', s')) :
    Advance taskId c.time s (.startingRun task workspace runId) s' pc' := by
  simp only [processNext] at h
  split at h <;> cases h
  · rename_i run hcall
    obtain ⟨hsame, row, hrow, _, hfields, hruns⟩ := call_startRun hcall
    obtain ⟨rfl, htask, hsets⟩ :=
      hfacts.setsRun hrow (by rw [hfields]) (by rw [hfields]) hruns
    obtain ⟨_, hopen⟩ := hfacts.row hrow
    have hstatus : run.status = .running := by rw [hfields]
    refine ⟨?_, ⟨run, by rw [hsets, Function.update_self], rfl, ?_⟩,
      hin.mono hclock (hsame.task? taskId)⟩
    · show Ledger.Work _ (s'.ledger taskId (.opened run.runId))
      rw [ledger_setRun (.opened run.runId) _ hsame hsets htask, hstatus]
      exact .startRun rfl
    · refine ⟨htask, by rw [hstatus]; rfl, ?_, ?_⟩
      · rw [hfields]
        exact hopen.created.trans hclock
      · rw [hfields]
        rintro t ht
        cases ht
        exact le_rfl
  · exact ⟨.stay _, hfacts.mono hclock rfl, hin.mono hclock rfl⟩

theorem advance_finishingRun (hclock : clock ≤ c.time) (hin : InTime taskId clock s)
    (hfacts : HasOpen taskId clock s runId)
    (h : processNext o taskId c (.finishingRun task workspace runId result) s = some (pc', s')) :
    Advance taskId c.time s (.finishingRun task workspace runId result) s' pc' := by
  simp only [processNext] at h
  split at h <;> cases h
  · rename_i run hcall
    obtain ⟨hsame, row, hrow, _, hfields, hruns⟩ := call_finishRun hcall
    obtain ⟨rfl, htask, hsets⟩ :=
      hfacts.setsRun hrow (by rw [hfields]) (by rw [hfields]) hruns
    have hstatus : run.status = result.status.runStatus := by rw [hfields]
    refine ⟨?_, trivial, hin.mono hclock (hsame.task? taskId)⟩
    show Ledger.Work _ (s'.ledger taskId (.finished result.status))
    rw [ledger_setRun (.opened run.runId) _ hsame hsets htask, hstatus]
    exact .finishRun result.status rfl
  · exact ⟨.stay _, hfacts.mono hclock rfl, hin.mono hclock rfl⟩

/-- The handler closes the run. -/
theorem advance_closingRun (hfault : c.fault = false) (hclock : clock ≤ c.time)
    (hin : InTime taskId clock s) (hfacts : HasOpen taskId clock s runId)
    (h : processNext o taskId c (.closingRun task runId) s = some (pc', s')) :
    Advance taskId c.time s (.closingRun task runId) s' pc' := by
  simp only [processNext] at h
  split at h <;> cases h
  · rename_i run hcall
    obtain ⟨hsame, row, hrow, _, hfields, hruns⟩ := call_finishRun hcall
    obtain ⟨rfl, htask, hsets⟩ :=
      hfacts.setsRun hrow (by rw [hfields]) (by rw [hfields]) hruns
    have hstatus : run.status = .failed := by rw [hfields]
    refine ⟨?_, trivial, hin.mono hclock (hsame.task? taskId)⟩
    show Ledger.Work _ (s'.ledger taskId .held)
    rw [ledger_setRun (.opened run.runId) _ hsame hsets htask, hstatus]
    exact .closeRun rfl
  · rename_i hcall
    obtain ⟨run, hrun, _, hopen⟩ := hfacts
    obtain ⟨row, hrow, rfl⟩ := Option.map_eq_some_iff.1 hrun
    obtain ⟨r, hfinish⟩ := Store.finishRun_failed (some runtimeException) hrow
      hopen.active (hopen.created.trans hclock) fun t ht => (hopen.started t ht).trans hclock
    simp [call, hfault, hfinish, Except.toOption] at hcall

/-- The task is read after its run has ended. -/
theorem advance_gettingCurrent (hn : task.taskId = taskId) (hfault : c.fault = false)
    (hclock : clock ≤ c.time) (hin : InTime taskId clock s)
    (hbusy : s.IsBusy taskId)
    (h : processNext o taskId c (.gettingCurrent task workspace result) s = some (pc', s')) :
    Advance taskId c.time s (.gettingCurrent task workspace result) s' pc' := by
  subst hn
  have hread : readTask c task.taskId s = s.task? task.taskId := by
    rw [readTask, if_neg (by simp [hfault]), Store.task?]
  simp only [processNext, hread] at h
  split at h
  · rename_i hnone
    rcases hbusy with hst | hst <;> simp [Store.statusOf, hnone] at hst
  · rename_i current hcurrent
    split at h <;> cases h
    · rename_i hcancelled
      refine ⟨.seeCancelled rfl ?_, trivial, hin.mono hclock rfl⟩
      simp [Store.ledger, Store.statusOf, hcurrent, hcancelled]
    · obtain ⟨hcreated, hstarted⟩ := hin.mono hclock rfl current hcurrent
      exact ⟨.stay _, ⟨.inr hcurrent, hcreated, hstarted⟩, hin.mono hclock rfl⟩

theorem advance_gotCurrent (hclock : clock ≤ c.time) (hin : InTime taskId clock s)
    (hfacts : (ProcessPc.gotCurrent task current workspace result).Facts taskId clock s)
    (h : processNext o taskId c (.gotCurrent task current workspace result) s =
      some (pc', s')) :
    Advance taskId c.time s (.gotCurrent task current workspace result) s' pc' := by
  obtain ⟨hcur, hcreated, hstarted⟩ := hfacts
  obtain ⟨event, hevent, hlife, htime⟩ := o.finishEvent_ok c current result workspace.branch
  simp only [processNext, hevent] at h
  cases h
  refine ⟨.stay _, ⟨htime.le, hcur, hlife, ?_⟩, hin.mono hclock rfl⟩
  rw [htime]
  exact ⟨hcreated.trans hclock, fun t ht => (hstarted t ht).trans hclock⟩

theorem canTransition_finishTarget (status : RuntimeStatus) :
    canTransition .running (Orchestrator.finishTarget status) := by
  cases status <;> decide

/-- A task that has not been cancelled is moved to where its result puts it. -/
theorem advance_finishingTask (hc : s.Coherent) (hn : current.taskId = taskId)
    (hfault : c.fault = false) (hclock : clock ≤ c.time) (hin : InTime taskId clock s)
    (hfacts : (ProcessPc.finishingTask task current result event).Facts taskId clock s)
    (hbusy : s.IsBusy taskId)
    (h : processNext o taskId c (.finishingTask task current result event) s =
      some (pc', s')) :
    Advance taskId c.time s (.finishingTask task current result event) s' pc' := by
  subst hn
  obtain ⟨htime, hcur, hlife, hcreated, hstarted⟩ := hfacts
  simp only [processNext, Option.map_eq_some_iff, finishTask_eq] at h
  obtain ⟨_ | ⟨after, s₁⟩, hcommit, h⟩ := h <;> cases h
  · have hcancelled : s.statusOf current.taskId = some .cancelled := by
      rcases hcur with hcancelled | hstored
      · exact hcancelled
      · rcases hbusy with hst | hst
        · have hrunning : current.status = .running := by
            simpa [Store.statusOf, hstored] using hst
          refine absurd hcommit
            (commit_transition_legal hc hstored ?_ hlife hcreated hstarted hfault)
          rw [hrunning]
          exact canTransition_finishTarget _
        · exact hst
    exact ⟨.seeCancelled rfl hcancelled, trivial, hin.mono hclock rfl⟩
  · obtain ⟨before, hchange⟩ := commit_transition hc hcommit
    refine ⟨?_, trivial, hchange.inTime (htime.trans hclock)⟩
    show Ledger.Work _ (s'.ledger current.taskId .held)
    rw [ledger_moved (.finished result.status) _ hchange]
    exact .finish rfl hchange.statusOf.1 hchange.legal

/-- A handler that has no run to close goes on to settle the task. -/
theorem advance_handle (task : Task) (taskId : TaskId) (e : Raised) (time : Timestamp)
    (s : Store) :
    (ProcessPc.handle task none e).phase = .held ∧
      (ProcessPc.handle task none e).Facts taskId time s := by
  cases e <;> exact ⟨rfl, trivial⟩

theorem leave_of_exception {openRun : Option RunId} {body : Body} {exited : ExitOutcome}
    {e : Raised} (h : body.exception exited = some e) :
    ProcessPc.leave task openRun body exited = ProcessPc.handle task openRun e := by
  cases body <;> cases exited <;> cases h <;> rfl

/-- The workspace is left without an exception, or a handler takes over. -/
theorem advance_exiting {body : Body} {openRun : Option RunId} (hclock : clock ≤ c.time)
    (hin : InTime taskId clock s)
    (hfacts : (ProcessPc.exiting task body openRun).Facts taskId clock s)
    (hkeeps : ¬ (ProcessPc.exiting task body openRun).LosesRun c)
    (h : processNext o taskId c (.exiting task body openRun) s = some (pc', s')) :
    Advance taskId c.time s (.exiting task body openRun) s' pc' := by
  cases h
  cases openRun with
  | some runId =>
    rw [leave_of_exception (not_not.1 hkeeps)]
    exact ⟨.stay _, HasOpen.mono hfacts hclock rfl, hin.mono hclock rfl⟩
  | none =>
    cases he : body.exception c.exited with
    | some e =>
      obtain ⟨hphase, hfacts'⟩ := advance_handle task taskId e c.time s
      rw [leave_of_exception he]
      exact ⟨by rw [hphase]; exact .stay _, hfacts', hin.mono hclock rfl⟩
    | none =>
      have hidle : (ProcessPc.leave task none body c.exited).phase = .idle ∧
          (ProcessPc.leave task none body c.exited).Facts taskId c.time s := by
        revert he
        cases body <;> cases c.exited <;> intro he <;> cases he <;> exact ⟨rfl, trivial⟩
      exact ⟨by rw [hidle.1]; exact .release rfl, hidle.2, hin.mono hclock rfl⟩

/-- A step of a call that does not lose its run is a step of the ledger and keeps the facts. -/
theorem processNext_advance {pc : ProcessPc} (hc : s.Coherent) (hn : pc.Named taskId)
    (hfault : c.fault = false) (hclock : clock ≤ c.time) (hin : InTime taskId clock s)
    (hfacts : pc.Facts taskId clock s) (hbusy : pc.phase.isBusy = true → s.IsBusy taskId)
    (hkeeps : ¬ pc.LosesRun c) (h : processNext o taskId c pc s = some (pc', s')) :
    Advance taskId c.time s pc s' pc' := by
  cases pc with
  | waiting | done => simp [processNext] at h
  | creatingRun => exact advance_creatingRun hclock hin hfacts h
  | startingRun => exact advance_startingRun hclock hin hfacts h
  | finishingRun => exact advance_finishingRun hclock hin hfacts h
  | closingRun => exact advance_closingRun hfault hclock hin hfacts h
  | gettingCurrent task =>
    exact advance_gettingCurrent (hn task (by simp [ProcessPc.tasks])) hfault hclock hin
      (hbusy rfl) h
  | gotCurrent => exact advance_gotCurrent hclock hin hfacts h
  | finishingTask _ current =>
    exact advance_finishingTask hc (hn current (by simp [ProcessPc.tasks])) hfault hclock hin
      hfacts (hbusy rfl) h
  | exiting => exact advance_exiting hclock hin hfacts hkeeps h
  | planning task event =>
    obtain rfl : task.taskId = taskId := hn task (by simp [ProcessPc.tasks])
    simp only [processNext, Option.map_eq_some_iff] at h
    obtain ⟨_ | ⟨after, s₁⟩, hcommit, h⟩ := h <;> cases h
    · exact ⟨.stay _, trivial, hin.mono hclock rfl⟩
    · obtain ⟨before, hchange⟩ := commit_transition hc hcommit
      refine ⟨?_, trivial, hchange.inTime (le_trans (b := clock) hfacts hclock)⟩
      show Ledger.Work _ (s'.ledger task.taskId .held)
      rw [ledger_moved .idle _ hchange]
      refine .claim rfl ?_
      have hstatus := hchange.statusOf.1
      rcases canTransition_planning.1 hchange.legal with hst | hst
      · exact .inl (hst ▸ hstatus)
      · exact .inr (hst ▸ hstatus)
  | assigning task developer event =>
    obtain rfl : task.taskId = taskId := hn task (by simp [ProcessPc.tasks])
    simp only [processNext, Option.map_eq_some_iff] at h
    obtain ⟨_ | ⟨after, s₁⟩, hcommit, h⟩ := h <;> cases h
    · exact ⟨.release rfl, trivial, hin.mono hclock rfl⟩
    · obtain ⟨before, hchange⟩ := commit_assign hc hcommit
      refine ⟨?_, trivial, hchange.inTime hin hclock⟩
      show Ledger.Work _ (s'.ledger task.taskId .held)
      rw [ledger_same hchange.statusOf hchange.runs]
      exact .stay _
  | settingRunning task developer workspace event =>
    obtain rfl : task.taskId = taskId := hn task (by simp [ProcessPc.tasks])
    simp only [processNext, Option.map_eq_some_iff] at h
    obtain ⟨_ | ⟨after, s₁⟩, hcommit, h⟩ := h <;> cases h
    · exact ⟨.stay _, trivial, hin.mono hclock rfl⟩
    · obtain ⟨before, hchange⟩ := commit_transition hc hcommit
      refine ⟨?_, trivial, hchange.inTime (le_trans (b := clock) hfacts hclock)⟩
      show Ledger.Work _ (s'.ledger task.taskId .running)
      rw [ledger_moved .held _ hchange]
      exact .start rfl hchange.statusOf.1 hchange.legal
  | settling current settlement event =>
    obtain rfl : current.taskId = taskId := hn current (by simp [ProcessPc.tasks])
    simp only [processNext, Option.map_eq_some_iff] at h
    obtain ⟨_ | ⟨after, s₁⟩, hcommit, h⟩ := h <;> cases h
    · exact ⟨.release rfl, trivial, hin.mono hclock rfl⟩
    · obtain ⟨before, hchange⟩ := commit_transition hc hcommit
      refine ⟨?_, trivial, hchange.inTime (le_trans (b := clock) hfacts hclock)⟩
      show Ledger.Work _ (s'.ledger current.taskId .idle)
      rw [ledger_moved .held _ hchange]
      refine .settle rfl hchange.statusOf.1 hchange.legal ?_
      cases settlement
      · exact .inl rfl
      · exact .inr rfl
  | notifyingRunning task developer workspace =>
    simp only [processNext] at h
    split at h <;> cases h
    · rename_i run hvalid
      have hfields := RunRecord.modelValidate_eq_ok.1 hvalid
      have htask : task.taskId = taskId := hn task (by simp [ProcessPc.tasks])
      refine ⟨.stay _, ⟨by rw [hfields], ?_⟩, hin.mono hclock rfl⟩
      constructor <;> rw [hfields]
      · exact htask
      · rfl
      · rintro t ht
        cases ht
    · exact ⟨.giveUp rfl, trivial, hin.mono hclock rfl⟩
  | gotTask task =>
    simp only [processNext] at h
    split_ifs at h
    · cases h
      exact ⟨.stay _, trivial, hin.mono hclock rfl⟩
    · split at h <;> cases h
      · exact ⟨.stay _, (Orchestrator.event_ok ‹_›).le, hin.mono hclock rfl⟩
      · exact ⟨.stay _, trivial, hin.mono hclock rfl⟩
  | entering task developer =>
    simp only [processNext] at h
    split at h
    · rename_i e _
      cases h
      obtain ⟨hphase, hfacts'⟩ := advance_handle task taskId e c.time s
      exact ⟨by rw [hphase]; exact .stay _, hfacts', hin.mono hclock rfl⟩
    · split at h <;> cases h
      · exact ⟨.stay _, (Orchestrator.event_ok ‹_›).le, hin.mono hclock rfl⟩
      · exact ⟨.stay _, trivial, hin.mono hclock rfl⟩
  | gotSettled current settlement =>
    simp only [processNext] at h
    split at h <;> cases h
    · exact ⟨.stay _, (Orchestrator.event_ok ‹_›).le, hin.mono hclock rfl⟩
    · exact ⟨.release rfl, trivial, hin.mono hclock rfl⟩
  | runStarted task workspace runId | executing task workspace runId =>
    simp only [processNext] at h
    split at h <;> cases h <;>
      exact ⟨.stay _, HasOpen.mono hfacts hclock rfl, hin.mono hclock rfl⟩
  | planned task =>
    simp only [processNext] at h
    repeat' split at h
    all_goals cases h
    · exact ⟨.stay _, trivial, hin.mono hclock rfl⟩
    · exact ⟨.release rfl, trivial, hin.mono hclock rfl⟩
    · exact ⟨.stay _, trivial, hin.mono hclock rfl⟩
    · exact ⟨.release rfl, trivial, hin.mono hclock rfl⟩
  | gettingTask =>
    simp only [processNext] at h
    split at h <;> cases h <;> exact ⟨.stay _, trivial, hin.mono hclock rfl⟩
  | gettingFailed task =>
    simp only [processNext] at h
    repeat' split at h
    all_goals cases h
    · exact ⟨.release rfl, trivial, hin.mono hclock rfl⟩
    · exact ⟨.release rfl, trivial, hin.mono hclock rfl⟩
    · exact ⟨.stay _, trivial, hin.mono hclock rfl⟩
  | gettingSettled task settlement =>
    simp only [processNext] at h
    split at h <;> cases h
    · exact ⟨.release rfl, trivial, hin.mono hclock rfl⟩
    · exact ⟨.stay _, trivial, hin.mono hclock rfl⟩
  | notifyingCancelled | notifying =>
    cases h
    exact ⟨.stay _, trivial, hin.mono hclock rfl⟩

/-- All that a call that has not claimed the task can do to the store is to claim it. -/
theorem processNext_idle {pc : ProcessPc} (hc : s.Coherent) (hn : pc.Named taskId)
    (hphase : pc.phase = .idle) (h : processNext o taskId c pc s = some (pc', s')) :
    (pc'.phase = .idle ∧ s' = s) ∨
      ∃ event before after, StatusChange taskId .planning event s before after s' := by
  cases pc with
  | waiting | done => simp [processNext] at h
  | gettingTask =>
    simp only [processNext] at h
    split at h <;> cases h <;> exact .inl ⟨rfl, rfl⟩
  | gotTask task =>
    simp only [processNext] at h
    repeat' split at h
    all_goals
      cases h
      exact .inl ⟨rfl, rfl⟩
  | planning task event =>
    obtain rfl : task.taskId = taskId := hn task (by simp [ProcessPc.tasks])
    simp only [processNext, Option.map_eq_some_iff] at h
    obtain ⟨_ | ⟨after, s₁⟩, hcommit, h⟩ := h <;> cases h
    · exact .inl ⟨rfl, rfl⟩
    · obtain ⟨before, hchange⟩ := commit_transition hc hcommit
      exact .inr ⟨event, before, after, hchange⟩
  | notifying =>
    cases h
    exact .inl ⟨rfl, rfl⟩
  | exiting _ _ openRun => cases openRun <;> cases hphase
  | _ => cases hphase

/-- The event of a cancellation has a time that has passed. -/
def CancelPc.Facts (clock : Timestamp) : CancelPc → Prop
  | cancelling _ event => event.timestamp ≤ clock
  | _ => True

theorem CancelPc.Facts.mono {pc : CancelPc} (h : pc.Facts clock) (hclock : clock ≤ clock') :
    pc.Facts clock' := by
  cases pc with
  | cancelling => exact le_trans (b := clock) h hclock
  | _ => trivial

theorem cancelNext_facts {pc pc' : CancelPc} (h : cancelNext o taskId c pc s = some (pc', s')) :
    pc'.Facts c.time := by
  cases pc with
  | gotTask task =>
    simp only [cancelNext] at h
    split at h <;> cases h
    · exact (Orchestrator.event_ok ‹_›).le
    · trivial
  | cancelling task event =>
    simp only [cancelNext, Option.map_eq_some_iff] at h
    obtain ⟨_ | ⟨after, s₁⟩, _, h⟩ := h <;> cases h <;> trivial
  | _ =>
    simp only [cancelNext] at h
    repeat' split at h
    all_goals
      cases h
      try trivial

end

end AIHub
