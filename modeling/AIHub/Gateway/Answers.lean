import AIHub.Application.CreateTask
import AIHub.Gateway.Handle
import Mathlib.Algebra.Order.BigOperators.Group.List
import Mathlib.Data.List.Dedup
import Mathlib.Data.Nat.Digits.Defs

/-!
# Answers to commands

What `AgentGateway._dispatch` answers to a command. The answer is built as a `GatewayResponse`,
which takes at most 4000 characters of text and 100 tasks; an answer that is refused ends as an
internal error.

Only the list of tasks can be refused. It has a line for each of up to twenty tasks, which fits for
the task ids that the gateway makes itself, and not for all that are valid.

* `taskList_iff`: when the list of tasks is answered.
* `answersFit_iff`: every command is answered exactly if the tasks that it lists have short names.
-/

namespace AIHub

structure CancelTaskCommand where
  taskId : TaskId
  source : Identifier
  sourceEventId : SourceEventId
  actorId : OpaqueId
  deriving DecidableEq

/-- `GatewayResponse(...)`. -/
def GatewayResponse.construct (success : Bool) (code : GatewayCode) (message : String)
    (task : Option TaskView) (tasks : List TaskView) : Except HubError GatewayResponse := do
  let message ← validateField ⟨1, 4000, fun _ => true⟩ "message" message
  if bounded : tasks.length ≤ 100 then
    return { success, code, message, task, tasks, bounded }
  else throw (.validation "tasks has more than 100 items")

/-- The ports of the gateway, by what they answer. -/
structure AgentGateway where
  uuid5 : String → Uuid
  createdTask : CreateTaskCommand → Except PortError TaskView
  cancelledTask : CancelTaskCommand → Except PortError TaskView
  foundTask : TaskId → Except PortError (Option TaskView)
  listedTasks : Nat → Except PortError (List TaskView)
  enqueuedTask : TaskId → Except PortError TaskView

/-! ## Commands -/

def formatTask (task : TaskView) : String :=
  s!"{task.taskId.val}: project={task.project.val}; team={task.team.val}; " ++
    s!"status={task.status.value}"

/-- `sorted(counts)`, for the counter of the statuses. -/
def sortedStatuses (tasks : List TaskView) : List String :=
  (tasks.map (·.status.value)).dedup.mergeSort (· ≤ ·)

def statusCount (tasks : List TaskView) (status : String) : Nat :=
  (tasks.map (·.status.value)).count status

namespace AgentGateway

variable (gateway : AgentGateway)

def help : Except PortError GatewayResponse :=
  (GatewayResponse.construct true .ok ("Commands: help | dev <project> <instruction> | " ++
    "status | tasks | task <TASK-ID> | stop <TASK-ID>") none []).mapError .other

def createTask (request : GatewayRequest) : Except PortError GatewayResponse := do
  let command ← (createTaskCommand gateway.uuid5 request).mapError .other
  let task ← gateway.createdTask command
  match gateway.enqueuedTask task.taskId with
  | .error _ =>
    (GatewayResponse.construct false .unavailable
      (s!"Task {task.taskId.val} was saved but could not be queued. " ++
        "Check its status before retrying.") (some task) []).mapError .other
  | .ok task =>
    (GatewayResponse.construct true .accepted
      (s!"Task created. ID: {task.taskId.val}; project: {task.project.val}; " ++
        s!"team: {task.team.val}; status: {task.status.value}.") (some task) []).mapError .other

def taskDetail (request : GatewayRequest) : Except PortError GatewayResponse :=
  match request.taskId with
  | none => .error (.other (.value "validated task request is missing task_id"))
  | some taskId => do
    match ← gateway.foundTask taskId with
    | none => throw (.taskNotFound taskId.val)
    | some task =>
      (GatewayResponse.construct true .ok (formatTask task) (some task) []).mapError .other

def taskList : Except PortError GatewayResponse := do
  let tasks ← gateway.listedTasks 20
  let message :=
    if tasks = [] then "No tasks found." else "\n".intercalate (tasks.map formatTask)
  (GatewayResponse.construct true .ok message none tasks).mapError .other

def status : Except PortError GatewayResponse := do
  let tasks ← gateway.listedTasks 100
  let message :=
    if sortedStatuses tasks = [] then "AI Hub is available. No tasks are recorded."
    else
      let summary := ", ".intercalate ((sortedStatuses tasks).map fun status =>
        s!"{status}={statusCount tasks status}")
      s!"AI Hub is available. Task status: {summary}."
  (GatewayResponse.construct true .ok message none tasks).mapError .other

def cancel (request : GatewayRequest) : Except PortError GatewayResponse :=
  match request.taskId with
  | none => .error (.other (.value "validated stop request is missing task_id"))
  | some taskId => do
    let task ← gateway.cancelledTask
      ⟨taskId, request.source, request.sourceEventId, request.actorId⟩
    (GatewayResponse.construct true .ok
      s!"Cancellation recorded for {task.taskId.val}; status: {task.status.value}."
      (some task) []).mapError .other

def dispatch (request : GatewayRequest) : Except PortError GatewayResponse :=
  match request.command with
  | .help => help
  | .dev => gateway.createTask request
  | .task => gateway.taskDetail request
  | .tasks => gateway.taskList
  | .status => gateway.status
  | .stop => gateway.cancel request

/-- What becomes of the dispatch, as `handle` sees it. -/
def outcome (request : GatewayRequest) : DispatchOutcome :=
  match gateway.dispatch request with
  | .ok response => .response response
  | .error e => .error e

/-- The query port lists no more tasks than it is asked for. -/
def WithinLimit : Prop :=
  ∀ limit tasks, gateway.listedTasks limit = .ok tasks → tasks.length ≤ limit

/-- What the ports return is answered. -/
structure AnswersFit : Prop where
  created : ∀ request command task, createTaskCommand gateway.uuid5 request = .ok command →
    gateway.createdTask command = .ok task → ∃ response, gateway.createTask request = .ok response
  found : ∀ (request : GatewayRequest) taskId task, request.taskId = some taskId →
    gateway.foundTask taskId = .ok (some task) →
      ∃ response, gateway.taskDetail request = .ok response
  listed : ∀ tasks, gateway.listedTasks 20 = .ok tasks →
    ∃ response, gateway.taskList = .ok response
  counted : ∀ tasks, gateway.listedTasks 100 = .ok tasks →
    ∃ response, gateway.status = .ok response
  cancelled : ∀ (request : GatewayRequest) taskId task, request.taskId = some taskId →
    gateway.cancelledTask ⟨taskId, request.source, request.sourceEventId, request.actorId⟩ =
      .ok task → ∃ response, gateway.cancel request = .ok response

end AgentGateway

/-- The characters of the lines of the tasks, each with its line break. -/
def listingSize (tasks : List TaskView) : Nat :=
  (tasks.map fun task => task.taskId.val.length + task.project.val.length +
    task.team.val.length + task.status.value.length + 27).sum

/-! ## Messages -/

namespace GatewayResponse

variable {success : Bool} {code : GatewayCode} {message : String} {task : Option TaskView}
  {tasks : List TaskView}

/-- A text that is not blank and not too long is a message. -/
theorem construct_ok (htext : ∃ c ∈ message.toList, Text.isSpace c = false)
    (hlength : message.length ≤ 4000) (htasks : tasks.length ≤ 100) :
    ∃ response, construct success code message task tasks = .ok response := by
  obtain ⟨v, hv⟩ := validateField_ok (C := ⟨1, 4000, fun _ => true⟩) "message" (le_refl 1)
    (fun _ _ _ => rfl) htext hlength
  unfold construct
  rw [hv]
  exact ⟨_, dif_pos htasks⟩

theorem code_of_construct {response : GatewayResponse}
    (h : construct success code message task tasks = .ok response) : response.code = code := by
  simp only [construct, bind_eq_ok] at h
  obtain ⟨_, _, h⟩ := h
  split at h <;> cases h
  rfl

/-- A message is not longer than its text, once that is stripped. -/
theorem length_of_construct {response : GatewayResponse} (htext : Text.Tight message.toList)
    (h : construct success code message task tasks = .ok response) : message.length ≤ 4000 := by
  unfold construct at h
  cases hmessage : validateField ⟨1, 4000, fun _ => true⟩ "message" message with
  | error e =>
    rw [hmessage] at h
    cases h
  | ok v =>
    have hv : v.val = message := by
      unfold validateField at hmessage
      split at hmessage
      · rename_i hparse
        cases hmessage
        rw [StringConstraints.val_of_parse hparse, htext.strip_eq, String.ofList_toList]
      · cases hmessage
    exact hv ▸ StringConstraints.length_val v

end GatewayResponse

/-! ## Lines -/

section

variable {separator : String} {lines : List String}

theorem tight_intercalate (separator : String) (hne : lines ≠ [])
    (h : ∀ line ∈ lines, Text.Tight line.toList) :
    Text.Tight (separator.intercalate lines).toList := by
  induction lines with
  | nil => exact absurd rfl hne
  | cons line lines ih =>
    obtain ⟨hline, hlines⟩ := List.forall_mem_cons.1 h
    cases lines with
    | nil => rwa [String.intercalate_singleton]
    | cons next lines =>
      rw [String.intercalate_cons_cons, String.toList_append, String.toList_append,
        List.append_assoc]
      exact hline.append _ (ih (List.cons_ne_nil _ _) hlines)

/-- Each line with a separator, but for the last. -/
theorem length_intercalate (separator : String) (hne : lines ≠ []) :
    (separator.intercalate lines).length + separator.length =
      (lines.map fun line => line.length + separator.length).sum := by
  induction lines with
  | nil => exact absurd rfl hne
  | cons line lines ih =>
    cases lines with
    | nil => simp
    | cons next lines =>
      have h := ih (List.cons_ne_nil _ _)
      rw [List.map_cons, List.sum_cons, ← h, String.intercalate_cons_cons, String.length_append,
        String.length_append]
      omega

end

/-! ## The list of tasks -/

theorem TaskStatus.tight_value (status : TaskStatus) : Text.Tight status.value.toList :=
  .of_graphic (by cases status <;> decide) status.value_graphic

theorem formatTask_eq (task : TaskView) : formatTask task = task.taskId.val ++
    (": project=" ++ task.project.val ++ "; team=" ++ task.team.val ++ "; status=" ++
      task.status.value) := by
  have h : formatTask task = task.taskId.val ++ ": project=" ++ task.project.val ++ "; team=" ++
      task.team.val ++ "; " ++ ("status=" ++ task.status.value) := rfl
  rw [h, show "; status=" = "; " ++ "status=" from rfl]
  simp only [String.append_assoc]

theorem length_formatTask (task : TaskView) : (formatTask task).length =
    task.taskId.val.length + task.project.val.length + task.team.val.length +
      task.status.value.length + 26 := by
  have hliterals : ": project=".length + "; team=".length + "; status=".length = 26 := by decide
  rw [formatTask_eq]
  simp only [String.length_append]
  omega

theorem tight_formatTask (task : TaskView) : Text.Tight (formatTask task).toList := by
  rw [formatTask_eq, String.toList_append, String.toList_append]
  exact task.taskId.tight.append _ task.status.tight_value

/-- The text of the lines. -/
theorem length_listing {tasks : List TaskView} (hne : tasks ≠ []) :
    ("\n".intercalate (tasks.map formatTask)).length + 1 = listingSize tasks := by
  have hbreak : "\n".length = 1 := by decide
  have hlines : tasks.map formatTask ≠ [] := mt List.map_eq_nil_iff.1 hne
  have h := length_intercalate "\n" hlines
  rw [hbreak, List.map_map] at h
  rw [h, listingSize]
  refine congrArg List.sum (List.map_congr_left fun task _ => ?_)
  show (formatTask task).length + 1 = _
  rw [length_formatTask]

/-- Twenty tasks fit if their ids are no longer than those the gateway makes. -/
theorem listingSize_le {tasks : List TaskView} (hlimit : tasks.length ≤ 20)
    (hids : ∀ task ∈ tasks, task.taskId.val.length ≤ 37) : listingSize tasks ≤ 4001 := by
  have hsum : listingSize tasks ≤ tasks.length * 199 := by
    refine (List.sum_le_card_nsmul _ 199 fun n hn => ?_).trans_eq (by simp)
    obtain ⟨task, htask, rfl⟩ := List.mem_map.1 hn
    have hid := hids task htask
    have hproject := StringConstraints.length_val task.project
    have hteam := StringConstraints.length_val task.team
    have hstatus := task.status.length_value
    dsimp only at hproject hteam ⊢
    omega
  omega

theorem mapError_eq_ok {r : Except HubError GatewayResponse} {response : GatewayResponse} :
    r.mapError PortError.other = .ok response ↔ r = .ok response := by
  cases r <;> simp [Except.mapError]

theorem mapError_ok_iff {r : Except HubError GatewayResponse} :
    (∃ response, r.mapError PortError.other = .ok response) ↔ ∃ response, r = .ok response :=
  exists_congr fun _ => mapError_eq_ok

namespace AgentGateway

variable {gateway : AgentGateway} {tasks : List TaskView}

/-- The list of tasks is answered exactly if its lines fit. -/
theorem taskList_iff (htasks : gateway.listedTasks 20 = .ok tasks) (hlimit : tasks.length ≤ 20) :
    (∃ response, gateway.taskList = .ok response) ↔ listingSize tasks ≤ 4001 := by
  have heq : gateway.taskList = (GatewayResponse.construct true .ok
      (if tasks = [] then "No tasks found." else "\n".intercalate (tasks.map formatTask)) none
        tasks).mapError .other := by
    rw [taskList, htasks]
    dsimp only [bind, Except.bind]
  rw [heq, mapError_ok_iff]
  by_cases hne : tasks = []
  · have hsize : listingSize tasks ≤ 4001 := by
      rw [hne]
      exact Nat.zero_le _
    rw [if_pos hne]
    exact iff_of_true (GatewayResponse.construct_ok ⟨'N', by decide, by decide⟩ (by decide)
      (by omega)) hsize
  · rw [if_neg hne]
    have hlength := length_listing hne
    have htight : Text.Tight ("\n".intercalate (tasks.map formatTask)).toList := by
      refine tight_intercalate _ (mt List.map_eq_nil_iff.1 hne) fun line hline => ?_
      obtain ⟨task, -, rfl⟩ := List.mem_map.1 hline
      exact tight_formatTask task
    constructor
    · intro h
      obtain ⟨response, h⟩ := h
      have := GatewayResponse.length_of_construct htight h
      omega
    · intro h
      obtain ⟨c, hc, hspace⟩ := htight.head
      exact GatewayResponse.construct_ok ⟨c, List.mem_of_head? hc, hspace⟩ (by omega) (by omega)

/-- A task that was created is answered, whether it was queued or not. -/
theorem createTask_ok {request : GatewayRequest} {command : CreateTaskCommand} {task : TaskView}
    (hcommand : createTaskCommand gateway.uuid5 request = .ok command)
    (htask : gateway.createdTask command = .ok task) :
    ∃ response, gateway.createTask request = .ok response := by
  have hid := fun task : TaskView => StringConstraints.length_val task.taskId
  dsimp only at hid
  have hmapped : (createTaskCommand gateway.uuid5 request).mapError PortError.other =
      .ok command := by
    rw [hcommand]
    rfl
  rw [createTask, hmapped]
  dsimp only [bind, Except.bind]
  rw [htask]
  dsimp only
  cases gateway.enqueuedTask task.taskId with
  | error e =>
    refine mapError_ok_iff.2 (GatewayResponse.construct_ok ⟨'T', ?_, by decide⟩ ?_ (Nat.zero_le _))
    · dsimp only [toString]
      simp
    · have hliterals : "Task ".length + " was saved but could not be queued. ".length +
          "Check its status before retrying.".length ≤ 100 := by decide
      have := hid task
      dsimp only [toString]
      simp only [String.length_append]
      omega
  | ok task =>
    refine mapError_ok_iff.2 (GatewayResponse.construct_ok ⟨'T', ?_, by decide⟩ ?_ (Nat.zero_le _))
    · dsimp only [toString]
      simp
    · have hliterals : "Task created. ID: ".length + "; project: ".length + "; ".length +
          "team: ".length + "; status: ".length + ".".length ≤ 100 := by decide
      have hproject := StringConstraints.length_val task.project
      have hteam := StringConstraints.length_val task.team
      have hstatus := task.status.length_value
      have := hid task
      dsimp only [toString] at hproject hteam ⊢
      simp only [String.length_append]
      omega

theorem taskDetail_ok {request : GatewayRequest} {taskId : TaskId} {task : TaskView}
    (hid : request.taskId = some taskId) (htask : gateway.foundTask taskId = .ok (some task)) :
    ∃ response, gateway.taskDetail request = .ok response := by
  have heq : gateway.taskDetail request = (GatewayResponse.construct true .ok (formatTask task)
      (some task) []).mapError .other := by
    rw [taskDetail, hid]
    dsimp only [bind, Except.bind]
    rw [htask]
  obtain ⟨c, hc, hspace⟩ := (tight_formatTask task).head
  have hlength := length_formatTask task
  have htaskId := StringConstraints.length_val task.taskId
  have hproject := StringConstraints.length_val task.project
  have hteam := StringConstraints.length_val task.team
  have hstatus := task.status.length_value
  dsimp only at htaskId hproject hteam
  rw [heq, mapError_ok_iff]
  exact GatewayResponse.construct_ok ⟨c, List.mem_of_head? hc, hspace⟩ (by omega) (Nat.zero_le _)

theorem cancel_ok {request : GatewayRequest} {taskId : TaskId} {task : TaskView}
    (hid : request.taskId = some taskId) (htask : gateway.cancelledTask
      ⟨taskId, request.source, request.sourceEventId, request.actorId⟩ = .ok task) :
    ∃ response, gateway.cancel request = .ok response := by
  have htaskId := StringConstraints.length_val task.taskId
  have hstatus := task.status.length_value
  dsimp only at htaskId
  rw [cancel, hid]
  dsimp only [bind, Except.bind]
  rw [htask]
  refine mapError_ok_iff.2 (GatewayResponse.construct_ok ⟨'C', ?_, by decide⟩ ?_ (Nat.zero_le _))
  · dsimp only [toString]
    simp
  · have hliterals : "Cancellation recorded for ".length + "; status: ".length + ".".length ≤
        100 := by decide
    dsimp only [toString]
    simp only [String.length_append]
    omega

/-- There are ten statuses. -/
theorem length_sortedStatuses (tasks : List TaskView) : (sortedStatuses tasks).length ≤ 10 := by
  have hsubset : (tasks.map (·.status.value)).dedup ⊆
      ["pending", "queued", "planning", "running", "review", "qa", "blocked", "completed",
        "failed", "cancelled"] := by
    intro value hvalue
    obtain ⟨task, -, rfl⟩ := List.mem_map.1 (List.mem_dedup.1 hvalue)
    cases task.status <;> simp [TaskStatus.value]
  have hlength := (List.subperm_of_subset (List.nodup_dedup _) hsubset).length_le
  rw [sortedStatuses, (List.mergeSort_perm _ _).length_eq]
  exact hlength

theorem length_count {tasks : List TaskView} (hlimit : tasks.length ≤ 100) {status : String}
    (hstatus : status ∈ sortedStatuses tasks) :
    s!"{status}={statusCount tasks status}".length ≤ 13 := by
  have hvalue : status.length ≤ 9 := by
    rw [sortedStatuses, (List.mergeSort_perm _ _).mem_iff, List.mem_dedup] at hstatus
    obtain ⟨task, -, rfl⟩ := List.mem_map.1 hstatus
    exact task.status.length_value
  have hcount : statusCount tasks status ≤ 100 := by
    have hle := @List.count_le_length _ _ status (tasks.map (·.status.value))
    rw [List.length_map] at hle
    exact hle.trans hlimit
  have hdigits : (Nat.repr (statusCount tasks status)).length ≤ 3 :=
    Nat.repr_length _ 3 (by decide) (by omega)
  have hequals : "=".length = 1 := by decide
  dsimp only [toString]
  simp only [String.length_append]
  omega

theorem status_ok (htasks : gateway.listedTasks 100 = .ok tasks) (hlimit : tasks.length ≤ 100) :
    ∃ response, gateway.status = .ok response := by
  rw [status, htasks]
  dsimp only [bind, Except.bind]
  refine mapError_ok_iff.2 ?_
  by_cases hnone : sortedStatuses tasks = []
  · rw [if_pos hnone]
    exact GatewayResponse.construct_ok ⟨'A', by decide, by decide⟩ (by decide) hlimit
  · rw [if_neg hnone]
    have hentries : (sortedStatuses tasks).map
        (fun status => s!"{status}={statusCount tasks status}") ≠ [] :=
      mt List.map_eq_nil_iff.1 hnone
    have hsummary := length_intercalate ", " hentries
    have hsum : (((sortedStatuses tasks).map fun status =>
        s!"{status}={statusCount tasks status}").map fun line => line.length + ", ".length).sum ≤
        (sortedStatuses tasks).length * 15 := by
      rw [List.map_map]
      refine (List.sum_le_card_nsmul _ 15 fun n hn => ?_).trans_eq (by simp)
      obtain ⟨status, hstatus, rfl⟩ := List.mem_map.1 hn
      have hlength := length_count hlimit hstatus
      have hseparator : ", ".length = 2 := by decide
      show (s!"{status}={statusCount tasks status}").length + ", ".length ≤ 15
      omega
    have hten := length_sortedStatuses tasks
    have hliterals : "AI Hub is available. Task status: ".length + ".".length ≤ 100 := by decide
    refine GatewayResponse.construct_ok ⟨'A', ?_, by decide⟩ ?_ hlimit
    · dsimp only [toString]
      simp
    · dsimp only [toString] at hsummary hsum ⊢
      simp only [String.length_append]
      omega

/-- Every command is answered exactly if the tasks to be listed have short names. -/
theorem answersFit_iff (hlimit : gateway.WithinLimit) : gateway.AnswersFit ↔
    ∀ tasks, gateway.listedTasks 20 = .ok tasks → listingSize tasks ≤ 4001 := by
  constructor
  · intro h tasks htasks
    exact (taskList_iff htasks (hlimit 20 tasks htasks)).1 (h.listed tasks htasks)
  · intro h
    exact {
      created := fun _ _ _ hcommand htask => createTask_ok hcommand htask
      found := fun _ _ _ hid htask => taskDetail_ok hid htask
      listed := fun tasks htasks =>
        (taskList_iff htasks (hlimit 20 tasks htasks)).2 (h tasks htasks)
      counted := fun tasks htasks => status_ok htasks (hlimit 100 tasks htasks)
      cancelled := fun _ _ _ hid htask => cancel_ok hid htask }

/-- A list of tasks that does not fit is an internal error. -/
theorem dispatched_tasks {request : GatewayRequest} (hcommand : request.command = .tasks)
    (htasks : gateway.listedTasks 20 = .ok tasks) (hlimit : tasks.length ≤ 20)
    (hlong : 4001 < listingSize tasks) :
    HandleStage.dispatched (gateway.outcome request) = .releasing (some .internalError) := by
  have hnone := mt (taskList_iff htasks hlimit).1 (Nat.not_le.2 hlong)
  have hother : ∃ e, gateway.taskList = .error (.other e) := by
    rw [taskList, htasks] at hnone ⊢
    dsimp only [bind, Except.bind] at hnone ⊢
    cases hanswer : GatewayResponse.construct true .ok
        (if tasks = [] then "No tasks found." else "\n".intercalate (tasks.map formatTask)) none
          tasks with
    | error e => exact ⟨e, rfl⟩
    | ok response =>
      rw [hanswer] at hnone
      exact absurd ⟨response, rfl⟩ hnone
  obtain ⟨e, he⟩ := hother
  rw [outcome, dispatch, hcommand]
  dsimp only
  rw [he]
  rfl

end AgentGateway

/-! ## Long names -/

namespace Sample

/-- What follows the start of a long task id. -/
def longName (i : Fin 20) : List Char :=
  [Nat.digitChar (i / 10), Nat.digitChar (i % 10)] ++ List.replicate 62 'L'

theorem longName_upper (i : Fin 20) :
    ∀ c ∈ longName i, (Text.isUpper c || Text.isDigit c) = true := by
  have hdigits : ∀ i : Fin 20, [Nat.digitChar (i / 10), Nat.digitChar (i % 10)].all
      (fun c => Text.isUpper c || Text.isDigit c) = true := by decide
  intro c hc
  rcases List.mem_append.1 hc with hc | hc
  · exact List.all_eq_true.1 (hdigits i) c hc
  · rw [List.eq_of_mem_replicate hc]
    decide

/-- Twenty completed tasks with the longest names. -/
def longTask (i : Fin 20) : TaskView where
  taskId := ⟨"TASK-" ++ String.ofList (longName i),
    taskId_accepts (List.cons_ne_nil _ _) (by simp [longName]) (longName_upper i)⟩
  project := ⟨String.ofList (List.replicate 63 'l'), by decide +kernel⟩
  team := ⟨String.ofList (List.replicate 63 'm'), by decide +kernel⟩
  status := .completed

def longListing : AgentGateway where
  uuid5 := fun _ => 0
  createdTask := fun _ => .error (.dependencyUnavailable "task store is unavailable")
  cancelledTask := fun _ => .error (.dependencyUnavailable "task store is unavailable")
  foundTask := fun _ => .ok none
  listedTasks := fun limit => .ok (((List.finRange 20).map longTask).take limit)
  enqueuedTask := fun _ => .error (.dependencyUnavailable "task store is unavailable")

end Sample

open Sample in
theorem longListing_withinLimit : longListing.WithinLimit := by
  intro limit tasks htasks
  cases htasks
  exact List.length_take_le _ _

open Sample in
theorem answersFit_sample : longListing.AnswersFit ↔
    ∀ tasks, longListing.listedTasks 20 = .ok tasks → listingSize tasks ≤ 4001 :=
  AgentGateway.answersFit_iff longListing_withinLimit

open Sample in
/-- Twenty tasks with long names are too many for one message. -/
theorem listing_refused : ¬ ∀ gateway : AgentGateway, gateway.WithinLimit →
    gateway.AnswersFit := by
  intro h
  have hlisted := (h longListing longListing_withinLimit).listed _ rfl
  rw [AgentGateway.taskList_iff rfl (longListing_withinLimit 20 _ rfl)] at hlisted
  have hline : ∀ i, (longTask i).taskId.val.length + (longTask i).project.val.length +
      (longTask i).team.val.length + (longTask i).status.value.length + 27 = 231 := by
    intro i
    have hstart : "TASK-".length = 5 := by decide
    have hstatus : TaskStatus.completed.value.length = 9 := by decide
    simp only [longTask, longName, String.length_append, String.length_ofList, List.length_append,
      List.length_cons, List.length_nil, List.length_replicate, hstart, hstatus]
  have hsize : listingSize (((List.finRange 20).map longTask).take 20) = 4620 := by
    rw [List.take_of_length_le (by simp), listingSize, List.map_map]
    simp [Function.comp_def, hline]
  omega

end AIHub
