import AIHub.Slack.Delivery
import AIHub.Storage.Listings

/-!
# Task updates

What the notifier sends for a task: the route it decodes, the update it projects from the stored
events and runs, and the text of the message. The redaction of a text is a parameter.

* `updateRequest_deliveryId`: the request for a task carries the delivery id of its status, which
  no update on another task has (`taskId_of_updateDeliveryId`).
-/

namespace AIHub

/-- `redact_sensitive_text`, with its `max_length`. -/
abbrev Redaction := Nat → String → String

abbrev SafeLine := Constrained ⟨1, 500, opaqueIdPattern⟩

/-! ## Routes -/

/-- `[A-Za-z0-9][A-Za-z0-9._-]{0,99}`. -/
def slackRouteComponent (cs : List Char) : Bool :=
  cs.length ≤ 100 && Text.headThen Text.isAlnum
    (fun c => Text.isAlnum c || c == '.' || c == '_' || c == '-') cs

def SlackRoute.components (route : SlackRoute) : List String :=
  route.channel.val :: route.threadTs.toList.map (·.val)

def encodeSlackRouteTarget (redact : Redaction) (route : SlackRoute) : Except HubError String :=
  if route.components.any fun c => !slackRouteComponent c.toList || redact 4000 c ≠ c then
    .error (.value "Slack route contains an unsupported or secret-shaped component")
  else
    let target :=
      "slack-v1:" ++ route.channel.val ++ ":" ++ (route.threadTs.map (·.val)).getD "_"
    if 200 < target.length then
      .error (.value "Slack route exceeds the durable target limit")
    else .ok target

def SlackRoute.validate (channel : String) (threadTs : Option String) :
    Except HubError SlackRoute := do
  let channel ← validateField ⟨1, 255, opaqueIdPattern⟩ "channel" channel
  match threadTs with
  | none => return { channel }
  | some thread =>
    let thread ← validateField ⟨1, 255, opaqueIdPattern⟩ "thread_ts" thread
    return { channel, threadTs := some thread }

/-- `text.removeprefix(start)`, if the text starts with it. -/
def removePrefix? (start text : String) : Option (List Char) :=
  if start.toList.isPrefixOf text.toList then some (text.toList.drop start.toList.length) else none

/-- Decode current and legacy targets. -/
def decodeSlackRouteTarget (target : String) : Except HubError SlackRoute :=
  match removePrefix? "slack-v1:" target with
  | some encoded =>
    let channel := encoded.takeWhile (· ≠ ':')
    let rest := encoded.dropWhile (· ≠ ':')
    let thread := rest.drop 1
    if rest = [] ∨ ¬ slackRouteComponent channel ∨
        (thread ≠ ['_'] ∧ ¬ slackRouteComponent thread) then
      .error (.value "stored Slack route target is invalid")
    else
      SlackRoute.validate (String.ofList channel)
        (if thread = ['_'] then none else some (String.ofList thread))
  | none =>
    match removePrefix? "channel:" target with
    | some channel => SlackRoute.validate (String.ofList channel) none
    | none => SlackRoute.validate target none

/-! ## Updates -/

structure TaskLifecycleUpdate where
  notificationId : OpaqueId
  taskId : TaskId
  status : TaskStatus
  project : Identifier
  team : Identifier
  summary : List SafeLine := []
  changedFiles : List SafeLine := []
  tests : List SafeLine := []
  runtimeOutcome : Option SafeLine := none
  branch : Option SafeLine := none
  error : Option SafeLine := none
  bounded : summary.length ≤ 20 ∧ changedFiles.length ≤ 20 ∧ tests.length ≤ 20
  deriving DecidableEq

def isControl (c : Char) : Bool := c.toNat ≤ 0x1f || c.toNat = 0x7f

/-- Each run of control characters becomes a space. -/
def spaceControls : List Char → List Char
  | [] => []
  | c :: cs =>
    if ¬ isControl c then c :: spaceControls cs
    else if cs.head?.any isControl then spaceControls cs
    else ' ' :: spaceControls cs

section

variable (redact : Redaction)

def safeOptionalLine (value : Option JsonValue) : Option String :=
  match value with
  | some (.string s) =>
    let singleLine := Text.strip (spaceControls s.toList)
    if singleLine = [] then none else some (redact 500 (String.ofList singleLine))
  | _ => none

/-- At most twenty lines. -/
def safeLines (value : Option JsonValue) : List String :=
  match value with
  | some (.array items) => (items.filterMap fun item => safeOptionalLine redact (some item)).take 20
  | _ => []

/-- The payload of the last event that says what the task's status is. -/
def matchingLifecyclePayload (task : Task) (events : List StoredEvent) : JsonObject :=
  match events.reverse.find? fun stored => stored.envelope.taskId = some task.taskId ∧
      stored.envelope.payloadStatus = some (.string task.status.value) with
  | some stored => stored.envelope.payload
  | none => []

def taskUpdate (task : Task) (events : List StoredEvent) (runs : List RunRecord) :
    Except HubError TaskLifecycleUpdate := do
  let payload := matchingLifecyclePayload task events
  let latestRun := runs.getLast?
  let runtimeOutcome := latestRun.bind fun run =>
    safeOptionalLine redact (some (.string s!"{run.runtime.val}: {run.status.value}"))
  let reason := (payload.get? "reason").filter (· ≠ .null)
  let errorValue := reason.or (latestRun.bind fun run => run.errorCode.map fun code =>
    .string code.val)
  let error :=
    if task.status ∈ [.blocked, .failed, .cancelled] then safeOptionalLine redact errorValue
    else none
  let notificationId ← validateField ⟨1, 255, opaqueIdPattern⟩ "notification_id"
    s!"{task.taskId.val}:{task.status.value}"
  let changedFiles ← validateFields ⟨1, 500, opaqueIdPattern⟩ "changed_files"
    (safeLines redact (payload.get? "changed_files"))
  let runtimeOutcome ← validateOptional ⟨1, 500, opaqueIdPattern⟩
    "runtime_outcome" runtimeOutcome
  let branch ← validateOptional ⟨1, 500, opaqueIdPattern⟩ "branch"
    (safeOptionalLine redact (payload.get? "branch"))
  let error ← validateOptional ⟨1, 500, opaqueIdPattern⟩ "error" error
  if bounded : changedFiles.length ≤ 20 then
    return {
      notificationId, taskId := task.taskId, status := task.status, project := task.project
      team := task.team, changedFiles, runtimeOutcome, branch, error
      bounded := ⟨Nat.zero_le _, bounded, Nat.zero_le _⟩ }
  else throw (.validation "changed_files has more than 20 items")

/-- A heading and its items, unless there are none. -/
def updateSection (heading : String) (items : List SafeLine) : List String :=
  if items = [] then [] else heading :: items.map fun item => "- " ++ item.val

/-- A line about a value, unless there is none. -/
def updateLine (label : String) (value : Option SafeLine) : List String :=
  value.toList.map fun v => label ++ v.val

def formatTaskUpdate (update : TaskLifecycleUpdate) : String :=
  redact 4000 ("\n".intercalate (
    [s!"{update.taskId.val} {update.status.value}", s!"Project: {update.project.val}",
      s!"Team: {update.team.val}"] ++
    updateSection "Summary:" update.summary ++
    updateSection "Changed files:" update.changedFiles ++
    updateSection "Tests:" update.tests ++
    updateLine "Runtime: " update.runtimeOutcome ++ updateLine "Branch: " update.branch ++
    updateLine "Error: " update.error))

/-- The request of `SlackTaskNotifier.notify`. -/
def notifyRequest (route : SlackRoute) (update : TaskLifecycleUpdate) :
    Except HubError SlackDeliveryRequest := do
  let deliveryId ← validateField ⟨1, 255, opaqueIdPattern⟩ "delivery_id"
    s!"task-update:{update.notificationId.val}"
  let text ← validateField ⟨1, 20000, fun _ => true⟩ "text"
    (formatTaskUpdate redact update)
  return { deliveryId, route, text }

/-- What `notify_task` makes of the route and the rows it has read. -/
def updateRequest (task : Task) (route : TaskRoute) (events : List StoredEvent)
    (runs : List RunRecord) : Except HubError SlackDeliveryRequest := do
  let update ← taskUpdate redact task events runs
  let slackRoute ← decodeSlackRouteTarget route.target.val
  notifyRequest redact slackRoute update

end

/-! ## Delivery ids -/

/-- The delivery id of the update on a task in its status. -/
def updateDeliveryId (task : Task) : String :=
  s!"task-update:{task.taskId.val}:{task.status.value}"

theorem TaskId.tight (id : TaskId) : Text.Tight id.val.toList := by
  refine .of_graphic (fun hnil => ?_) fun c hc => graphic_of_isIdChar (id.chars c hc)
  have h := id.ok
  simp only [StringConstraints.accepts, decide_eq_true_eq, hnil] at h
  exact absurd h.2.1 (by decide)

theorem TaskStatus.value_graphic (status : TaskStatus) :
    ∀ c ∈ status.value.toList, Text.inRange '!' '~' c = true := by
  have hall : status.value.toList.all (Text.inRange '!' '~') = true := by cases status <;> decide
  exact List.all_eq_true.1 hall

/-- The text that names a task and its status. -/
theorem notificationId_graphic (id : TaskId) (status : TaskStatus) :
    ∀ c ∈ (id.val ++ ":" ++ status.value).toList, Text.inRange '!' '~' c = true := by
  intro c hc
  have hcolon : ":".toList.all (Text.inRange '!' '~') = true := by decide
  simp only [String.toList_append, List.mem_append] at hc
  rcases hc with (hc | hc) | hc
  · exact graphic_of_isIdChar (id.chars c hc)
  · exact List.all_eq_true.1 hcolon c hc
  · exact status.value_graphic c hc

theorem updateDeliveryId_eq (task : Task) :
    updateDeliveryId task = "task-update:" ++ (task.taskId.val ++ ":" ++ task.status.value) := by
  rw [← String.append_assoc, ← String.append_assoc]
  rfl

theorem updateDeliveryId_graphic (task : Task) :
    ∀ c ∈ (updateDeliveryId task).toList, Text.inRange '!' '~' c = true := by
  have hstart : "task-update:".toList.all (Text.inRange '!' '~') = true := by decide
  rw [updateDeliveryId_eq, String.toList_append]
  intro c hc
  rcases List.mem_append.1 hc with hc | hc
  · exact List.all_eq_true.1 hstart c hc
  · exact notificationId_graphic task.taskId task.status c hc

/-- The receipt of an update is stored under its delivery id as it is. -/
theorem receiptKey_updateDeliveryId (task : Task) :
    receiptKey (updateDeliveryId task) = updateDeliveryId task := by
  unfold receiptKey RouteValue.validate
  split
  · rename_i id hid
    split at hid
    · rename_i v hparse
      cases hid
      rw [StringConstraints.val_of_parse hparse, Text.strip_of_graphic
        (updateDeliveryId_graphic task), String.ofList_toList]
    · split at hid <;> cases hid
  · rfl

/-- Updates on different tasks have different delivery ids. -/
theorem taskId_of_updateDeliveryId {task task' : Task}
    (h : updateDeliveryId task = updateDeliveryId task') : task.taskId = task'.taskId := by
  have hchars := congrArg String.toList h
  simp only [updateDeliveryId_eq, String.toList_append, List.append_assoc,
    List.append_cancel_left_eq] at hchars
  have hname : ∀ t : Task, (t.taskId.val.toList ++ (":".toList ++ t.status.value.toList)).takeWhile
      (· ≠ ':') = t.taskId.val.toList := by
    intro t
    rw [List.takeWhile_append_of_pos]
    · simp
    · intro c hc
      have hid := t.taskId.chars c hc
      by_contra hcolon
      obtain rfl : c = ':' := by simpa using hcolon
      revert hid
      decide
  have hids := hname task
  rw [hchars, hname task'] at hids
  exact Constrained.ext (String.toList_injective hids.symm)

/-- An update is named after its task and status. -/
theorem notificationId_of_taskUpdate {redact : Redaction} {task : Task}
    {events : List StoredEvent} {runs : List RunRecord} {update : TaskLifecycleUpdate}
    (h : taskUpdate redact task events runs = .ok update) :
    update.notificationId.val = task.taskId.val ++ ":" ++ task.status.value := by
  simp only [taskUpdate, bind_eq_ok] at h
  obtain ⟨notificationId, hnotification, _, _, _, _, _, _, _, _, h⟩ := h
  split_ifs at h
  cases h
  exact validateField_val hnotification (notificationId_graphic task.taskId task.status)

/-- The request for a task carries the delivery id of its status. -/
theorem updateRequest_deliveryId {redact : Redaction} {task : Task} {route : TaskRoute}
    {events : List StoredEvent} {runs : List RunRecord} {request : SlackDeliveryRequest}
    (h : updateRequest redact task route events runs = .ok request) :
    request.deliveryId.val = updateDeliveryId task := by
  simp only [updateRequest, bind_eq_ok] at h
  obtain ⟨update, hupdate, slackRoute, _, h⟩ := h
  simp only [notifyRequest, bind_eq_ok, pure_eq_ok] at h
  obtain ⟨deliveryId, hid, text, _, rfl⟩ := h
  have hnamed := notificationId_of_taskUpdate hupdate
  have htext : s!"task-update:{update.notificationId.val}" = updateDeliveryId task := by
    rw [updateDeliveryId_eq, hnamed]
    rfl
  rw [htext] at hid
  exact validateField_val hid (updateDeliveryId_graphic task)

end AIHub
