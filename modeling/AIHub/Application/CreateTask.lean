import AIHub.Config.Workspaces
import AIHub.Slack.RouteTargets

/-!
# Tasks of requests

What becomes of a dev request before the store sees it: the command that the gateway makes of it,
and the task, the events and the route that `GatewayTaskAdapter.create_task` makes of the command.
Each of these records validates its fields anew.

The route is where a request may fail. The gateway takes every reply target of the right
characters, and the Slack encoder refuses what the redaction of a text changes; the storage model
refuses what has the shape of a secret, by a third rule.

Main result: `carried_iff`, when a dev request for a registered project gets its records.
-/

namespace AIHub

open Config

/-! ## Commands -/

/-- `UuidTaskIdFactory.new`. -/
def taskIdText (uuid5 : String → Uuid) (idempotencyKey : String) : String :=
  "TASK-" ++ String.ofList
    ((Uuid.hex (uuid5 ("macmini-ai-hub:gateway:" ++ idempotencyKey))).map Char.toUpper)

/-- The command of `AgentGateway._create_task`. -/
def createTaskCommand (uuid5 : String → Uuid) (request : GatewayRequest) :
    Except HubError CreateTaskCommand :=
  match request.project, request.instruction with
  | some project, some instruction => do
    let taskId ← validateField ⟨6, 69, upperIdPattern "TASK-"⟩ "task_id"
      (taskIdText uuid5 request.idempotencyKey)
    return {
      taskId, source := request.source, sourceEventId := request.sourceEventId
      actorId := request.actorId, replyTarget := request.replyTarget, project, instruction }
  | _, _ => .error (.value "validated dev request is missing required fields")

/-! ## Records -/

/-- The identifiers and times that the defaults of the records draw. -/
structure TaskDraws where
  createdAt : Timestamp
  createdId : Uuid
  createdTime : Timestamp
  queuedId : Uuid
  queuedTime : Timestamp

/-- What `create_task` gives the store. -/
structure NewTask where
  task : Task
  created : EventEnvelope
  queued : EventEnvelope
  route : Option TaskRoute

def taskRoute (command : CreateTaskCommand) : Except HubError (Option TaskRoute) :=
  match command.replyTarget with
  | none => .ok none
  | some target => do
    let source ← RouteValue.validate "source" command.source.val
    let target ← RouteValue.validate "target" target.val
    return some ⟨command.taskId, source, target⟩

def newTask (uuid5 : String → Uuid) (draws : TaskDraws) (team : Identifier)
    (command : CreateTaskCommand) : Except HubError NewTask := do
  let request ← validateField ⟨1, 100000, fun _ => true⟩ "request" command.instruction.val
  let task ← Task.modelValidate {
    taskId := command.taskId, source := command.source, project := command.project, team, request
    createdAt := draws.createdAt }
  let correlationId := uuid5 ("macmini-ai-hub:" ++ task.taskId.val)
  let created ← EventEnvelope.modelValidate {
    eventId := draws.createdId, eventType := .taskCreated, timestamp := draws.createdTime
    taskId := some task.taskId, project := some task.project, team := some task.team
    correlationId := some correlationId
    payload := [("status", .string TaskStatus.pending.value)] }
  let queued ← EventEnvelope.modelValidate {
    eventId := draws.queuedId, eventType := .taskQueued, timestamp := draws.queuedTime
    taskId := some task.taskId, project := some task.project, team := some task.team
    correlationId := some correlationId, causationId := some created.eventId
    payload := [("status", .string TaskStatus.queued.value)] }
  let route ← taskRoute command
  return { task, created, queued, route }

/-- The records that `GatewayTaskAdapter.create_task` makes, before it calls the store. -/
def newTaskRecords (bundle : ConfigBundle) (uuid5 : String → Uuid) (draws : TaskDraws)
    (command : CreateTaskCommand) : Except PortError NewTask :=
  match bundle.projects.get? command.project with
  | none => .error (.taskNotFound "project is not registered")
  | some (_, project) => (newTask uuid5 draws project.team command).mapError .other

/-- The request gets through to the store: its key is accepted, no other source or event has that
key, and its records are made, whatever the defaults draw, if they draw two event ids. -/
structure Carried (bundle : ConfigBundle) (uuid5 : String → Uuid) (request : GatewayRequest) :
    Prop where
  accepted : ∃ key, Store.keyOf request.idempotencyKey = some key ∧ key.val = request.idempotencyKey
  distinct : ∀ other : GatewayRequest, other.idempotencyKey = request.idempotencyKey →
    other.source = request.source ∧ other.sourceEventId = request.sourceEventId
  constructed : ∃ command, createTaskCommand uuid5 request = .ok command ∧
    ∀ draws : TaskDraws, draws.createdId ≠ draws.queuedId →
      ∃ records, newTaskRecords bundle uuid5 draws command = .ok records

/-! ## Records other than the route -/

section

variable {uuid5 : String → Uuid} {draws : TaskDraws} {request : GatewayRequest}
  {command : CreateTaskCommand}

theorem digitChar_upper (i : Fin 16) :
    (Text.isUpper (Nat.digitChar i).toUpper || Text.isDigit (Nat.digitChar i).toUpper) = true := by
  revert i
  decide

theorem hex_upper (id : Uuid) : ∀ c ∈ (Uuid.hex id).map Char.toUpper,
    (Text.isUpper c || Text.isDigit c) = true := by
  intro c hc
  simp only [Uuid.hex, List.map_map, List.mem_map] at hc
  obtain ⟨i, _, rfl⟩ := hc
  exact digitChar_upper ⟨_, Nat.mod_lt _ (by decide)⟩

/-- Letters and digits after the start of a task id make one. -/
theorem taskId_accepts {digits : List Char} (hne : digits ≠ []) (hlength : digits.length ≤ 64)
    (hdigits : ∀ c ∈ digits, (Text.isUpper c || Text.isDigit c) = true) :
    StringConstraints.accepts ⟨6, 69, upperIdPattern "TASK-"⟩ ("TASK-" ++ String.ofList digits) =
      true := by
  have htext : ("TASK-" ++ String.ofList digits).toList = "TASK-".toList ++ digits := by simp
  have hstart : "TASK-".toList.length = 5 := by decide
  have hpos := List.length_pos_of_ne_nil hne
  simp only [StringConstraints.accepts, decide_eq_true_eq, htext, List.length_append, hstart]
  refine ⟨Text.strip_of_graphic fun c hc => ?_, by omega, by omega, ?_⟩
  · have hall : "TASK-".toList.all (Text.inRange '!' '~') = true := by decide
    rcases List.mem_append.1 hc with hc | hc
    · exact List.all_eq_true.1 hall c hc
    · refine graphic_of_isIdChar ?_
      rw [isIdChar, hdigits c hc, Bool.true_or]
  · rw [upperIdPattern, Bool.and_eq_true, List.isPrefixOf_iff_prefix, List.drop_left]
    refine ⟨List.prefix_append _ _, ?_⟩
    cases digits with
    | nil => exact absurd rfl hne
    | cons d ds =>
      obtain ⟨hd, hds⟩ := List.forall_mem_cons.1 hdigits
      rw [Text.headThen, hd, Bool.true_and, List.all_eq_true]
      intro c hc
      rw [hds c hc, Bool.true_or]

/-- The text that is made for a task id is one. -/
theorem taskIdText_accepted (uuid5 : String → Uuid) (idempotencyKey : String) :
    ∃ id : TaskId, id.val = taskIdText uuid5 idempotencyKey := by
  have hlength : ((Uuid.hex (uuid5 ("macmini-ai-hub:gateway:" ++ idempotencyKey))).map
      Char.toUpper).length = 32 := by
    simp [Uuid.hex]
  refine ⟨⟨taskIdText uuid5 idempotencyKey, taskId_accepts (fun hnil => ?_) (by omega)
    (hex_upper _)⟩, rfl⟩
  rw [hnil] at hlength
  cases hlength

/-- A dev request always gets its command. -/
theorem createTaskCommand_ok (uuid5 : String → Uuid) (hdev : request.command = .dev) :
    ∃ command, createTaskCommand uuid5 request = .ok command ∧
      request.project = some command.project ∧ command.source = request.source ∧
      command.replyTarget = request.replyTarget := by
  obtain ⟨project, instruction, hproject, hinstruction⟩ := request.dev_arguments hdev
  obtain ⟨taskId, htaskId⟩ := taskIdText_accepted uuid5 request.idempotencyKey
  have hvalid := validateField_of_val "task_id" taskId
  rw [htaskId] at hvalid
  refine ⟨{
    taskId, source := request.source, sourceEventId := request.sourceEventId
    actorId := request.actorId, replyTarget := request.replyTarget, project, instruction },
    ?_, hproject, rfl, rfl⟩
  unfold createTaskCommand
  rw [hproject, hinstruction]
  simp only [hvalid]
  rfl

/-- Only the route may refuse a command. -/
theorem newTask_ok_iff (team : Identifier) (hids : draws.createdId ≠ draws.queuedId) :
    (∃ records, newTask uuid5 draws team command = .ok records) ↔
      ∃ route, taskRoute command = .ok route := by
  have hpending : EventType.taskCreated.category ≠ "agent" ∧
      EventType.taskCreated.category ≠ "team" := by decide
  have hqueue : EventType.taskQueued.category ≠ "agent" ∧
      EventType.taskQueued.category ≠ "team" := by decide
  have hrequest : validateField ⟨1, 100000, fun _ => true⟩ "request" command.instruction.val =
      .ok command.instruction := validateField_of_val _ _
  obtain ⟨task, htask, hfields⟩ := Task.modelValidate_of_valid (f := {
    taskId := command.taskId, source := command.source, project := command.project, team
    request := command.instruction, createdAt := draws.createdAt })
    ⟨List.nodup_nil, nofun, nofun, rfl⟩
  obtain ⟨created, hcreated, hcreatedFields⟩ := EventEnvelope.modelValidate_of_context
    (EventFields.validateContext_ok (e := {
      eventId := draws.createdId, eventType := .taskCreated, timestamp := draws.createdTime
      taskId := some task.taskId, project := some task.project, team := some task.team
      correlationId := some (uuid5 ("macmini-ai-hub:" ++ task.taskId.val))
      payload := [("status", .string TaskStatus.pending.value)] })
      rfl (fun h => absurd h hpending.1) ⟨hpending.2, nofun⟩ nofun rfl)
  have hid : created.eventId = draws.createdId := congrArg EventFields.eventId hcreatedFields
  obtain ⟨queued, hqueued, _⟩ := EventEnvelope.modelValidate_of_context
    (EventFields.validateContext_ok (e := {
      eventId := draws.queuedId, eventType := .taskQueued, timestamp := draws.queuedTime
      taskId := some task.taskId, project := some task.project, team := some task.team
      correlationId := some (uuid5 ("macmini-ai-hub:" ++ task.taskId.val))
      causationId := some created.eventId
      payload := [("status", .string TaskStatus.queued.value)] })
      rfl (fun h => absurd h hqueue.1) ⟨hqueue.2, nofun⟩
      (fun h => hids (hid ▸ Option.some.inj h)) rfl)
  unfold newTask
  simp only [hrequest, htask, hcreated, hqueued, bind, Except.bind, pure, Except.pure]
  cases taskRoute command with
  | ok route => simp
  | error e => simp

/-! ## Routes -/

/-- A text that is opaque and not too long is a route value unless it is secret-shaped. -/
theorem routeValue_validate_iff {field s : String} (h : opaquePattern s.toList = true)
    (hlength : s.toList.length ≤ 200) :
    (∃ value, RouteValue.validate field s = .ok value) ↔ secretShaped s.toList = false := by
  have hopaque := opaque_accepts h hlength
  simp only [StringConstraints.accepts, decide_eq_true_eq] at hopaque
  obtain ⟨hstrip, hmin, hmax, _⟩ := hopaque
  constructor
  · intro hvalue
    obtain ⟨value, hvalue⟩ := hvalue
    unfold RouteValue.validate at hvalue
    split at hvalue
    · rename_i v hparse
      have hok := v.ok
      rw [StringConstraints.val_of_parse hparse, hstrip, String.ofList_toList] at hok
      simp only [StringConstraints.accepts, decide_eq_true_eq, Bool.and_eq_true,
        Bool.not_eq_true'] at hok
      exact hok.2.2.2.2
    · split at hvalue <;> cases hvalue
  · intro hsecret
    have hok : StringConstraints.accepts
        ⟨1, 200, fun cs => opaquePattern cs && !secretShaped cs⟩ s = true := by
      simp only [StringConstraints.accepts, decide_eq_true_eq, h, hsecret]
      exact ⟨hstrip, hmin, hmax, rfl⟩
    exact ⟨⟨s, hok⟩, RouteValue.validate_val field ⟨s, hok⟩⟩

/-- A value that is valid as a text is taken as it is. -/
theorem RouteValue.val_of_validate {C : StringConstraints} {field : String} {v : Constrained C}
    {value : RouteValue} (h : RouteValue.validate field v.val = .ok value) : value.val = v.val := by
  have hok := v.ok
  simp only [StringConstraints.accepts, decide_eq_true_eq] at hok
  unfold RouteValue.validate at h
  split at h
  · rename_i hparse
    cases h
    rw [StringConstraints.val_of_parse hparse, hok.1, String.ofList_toList]
  · split at h <;> cases h

theorem taskRoute_ok_iff :
    (∃ route, taskRoute command = .ok route) ↔ ∀ target ∈ command.replyTarget,
      secretShaped command.source.val.toList = false ∧ secretShaped target.val.toList = false := by
  obtain ⟨hsource, hsourceLength⟩ := identifier_opaquePattern command.source
  have hsource : (∃ value, RouteValue.validate "source" command.source.val = .ok value) ↔
      secretShaped command.source.val.toList = false :=
    routeValue_validate_iff hsource (by omega)
  unfold taskRoute
  cases command.replyTarget with
  | none => simp
  | some target =>
    obtain ⟨htarget, htargetLength⟩ := opaquePattern_val target
    have htarget : (∃ value, RouteValue.validate "target" target.val = .ok value) ↔
        secretShaped target.val.toList = false := routeValue_validate_iff htarget htargetLength
    simp only [Option.mem_some_iff, forall_eq', bind_eq_ok, pure_eq_ok, ← hsource, ← htarget]
    constructor
    · intro h
      obtain ⟨_, source, hs, target', ht, _⟩ := h
      exact ⟨⟨source, hs⟩, target', ht⟩
    · intro h
      obtain ⟨⟨source, hs⟩, target', ht⟩ := h
      exact ⟨_, source, hs, target', ht, rfl⟩

end

/-! ## Slack targets -/

/-- The markers of secrets that have neither a colon nor an equals sign. -/
def nameMarkers : List String := ["api_key", "apikey", "password", "private_key"]

/-- The component of a Slack target contains one of them. -/
def hasMarker (component : List Char) : Bool :=
  nameMarkers.any fun marker =>
    Text.contains marker.toList (component.flatMap Text.lowerChar)

/-- A marker is found in a target where it is found in a component. -/
theorem contains_target {marker a b : List Char} (hcolon : ':' ∉ marker)
    (hstart : Text.contains marker "slack-v1".toList = false) :
    Text.contains marker ("slack-v1:".toList ++ (a ++ ':' :: b)) =
      (Text.contains marker a || Text.contains marker b) := by
  have hsplit : "slack-v1:".toList ++ (a ++ ':' :: b) =
      "slack-v1".toList ++ ':' :: (a ++ ':' :: b) := rfl
  rw [Bool.eq_iff_iff, Bool.or_eq_true, Text.contains_iff, Text.contains_iff, Text.contains_iff,
    hsplit, Text.infix_append_cons hcolon, Text.infix_append_cons hcolon, ← Text.contains_iff,
    hstart]
  simp

/-- There is no `=` in the lower case of an opaque text. -/
theorem equals_notMem_lower {cs : List Char} (h : ∀ c ∈ cs, isOpaqueChar c = true) :
    '=' ∉ cs.flatMap Text.lowerChar := by
  have hascii : ∀ n : Fin 128, isOpaqueChar (Char.ofNat n) = true →
      '=' ∉ Text.lowerChar (Char.ofNat n) := by decide
  intro hmem
  obtain ⟨c, hc, hlower⟩ := List.mem_flatMap.1 hmem
  have hgraphic := graphic_of_isOpaqueChar (h c hc)
  simp only [Text.inRange, Bool.and_eq_true, decide_eq_true_eq, Char.reduceToNat] at hgraphic
  have hchar := hascii ⟨c.toNat, by omega⟩
  simp only [Char.ofNat_toNat] at hchar
  exact hchar (h c hc) hlower

/-- A target is secret-shaped exactly if a component has a marker. -/
theorem secretShaped_target {a b : List Char} (ha : ∀ c ∈ a, isOpaqueChar c = true)
    (hb : ∀ c ∈ b, isOpaqueChar c = true) :
    secretShaped ("slack-v1:".toList ++ (a ++ ':' :: b)) = (hasMarker a || hasMarker b) := by
  have hlower : ("slack-v1:".toList ++ (a ++ ':' :: b)).flatMap Text.lowerChar =
      "slack-v1:".toList ++ (a.flatMap Text.lowerChar ++ ':' :: b.flatMap Text.lowerChar) := by
    rw [List.flatMap_append, List.flatMap_append, List.flatMap_cons]
    rfl
  have hequals : '=' ∉ ("slack-v1:".toList ++ (a ++ ':' :: b)).flatMap Text.lowerChar := by
    refine equals_notMem_lower fun c hc => ?_
    have hstart : "slack-v1:".toList.all isOpaqueChar = true := by decide
    rw [List.mem_append, List.mem_append, List.mem_cons] at hc
    rcases hc with hc | hc | rfl | hc
    · exact List.all_eq_true.1 hstart c hc
    · exact ha c hc
    · decide
    · exact hb c hc
  have hassignments : (["secret=", "token="].any fun marker => Text.contains marker.toList
      (("slack-v1:".toList ++ (a ++ ':' :: b)).flatMap Text.lowerChar)) = false := by
    have hmem : ∀ marker ∈ ["secret=", "token="], '=' ∈ marker.toList := by decide
    refine List.any_eq_false.2 fun marker hmarker hcontains => hequals ?_
    exact (Text.contains_iff.1 hcontains).subset (hmem marker hmarker)
  have hnames : (nameMarkers.any fun marker => Text.contains marker.toList
      (("slack-v1:".toList ++ (a ++ ':' :: b)).flatMap Text.lowerChar)) =
        (hasMarker a || hasMarker b) := by
    have hmarkers : ∀ marker ∈ nameMarkers, ':' ∉ marker.toList ∧
        Text.contains marker.toList "slack-v1".toList = false := by decide
    rw [Bool.eq_iff_iff, Bool.or_eq_true, hasMarker, hasMarker, List.any_eq_true,
      List.any_eq_true, List.any_eq_true, ← exists_or]
    refine exists_congr fun marker => ?_
    rw [← and_or_left]
    refine and_congr_right fun hmarker => ?_
    obtain ⟨hcolon, hstart⟩ := hmarkers marker hmarker
    rw [hlower, contains_target hcolon hstart, Bool.or_eq_true]
  have hprefixes : (["sk-", "xapp-", "xoxa-", "xoxb-", "xoxp-", "xoxr-", "xoxs-"].any fun p =>
      p.toList.isPrefixOf (("slack-v1:".toList ++ (a ++ ':' :: b)).flatMap Text.lowerChar)) =
        false := by
    rw [hlower]
    rfl
  unfold secretShaped
  dsimp only
  rw [hprefixes, Bool.false_or, ← hnames, show ["api_key", "apikey", "password", "private_key",
    "secret=", "token="] = nameMarkers ++ ["secret=", "token="] from rfl, List.any_append,
    hassignments, Bool.or_false]

/-- What the Slack encoder produces is a reply target as it is, and is secret-shaped exactly if a
component of the route has a marker. -/
theorem encoded_target {redact : Redaction} {route : SlackRoute} {target : String}
    (h : encodeSlackRouteTarget redact route = .ok target) :
    (∃ t : ReplyTarget, t.val = target) ∧ (secretShaped target.toList = true ↔
      ∃ component ∈ route.components, hasMarker component.toList = true) := by
  obtain ⟨hcomponents, hlength, rfl⟩ := encodeSlackRouteTarget_ok.1 h
  have hchars : ∀ component ∈ route.components, ∀ c ∈ component.toList, isOpaqueChar c = true :=
    fun component hmem => (slackRouteComponent_chars (hcomponents component hmem).1).1
  have hchannel := hchars route.channel.val List.mem_cons_self
  have hthread : ∀ c ∈ route.threadText.toList, isOpaqueChar c = true := by
    unfold SlackRoute.threadText
    cases hts : route.threadTs with
    | none =>
      have hall : "_".toList.all isOpaqueChar = true := by decide
      exact List.all_eq_true.1 hall
    | some thread => exact hchars thread.val (by simp [SlackRoute.components, hts])
  rw [toList_encoded, secretShaped_target hchannel hthread]
  constructor
  · refine ⟨⟨_, opaque_accepts ?_ (by rwa [String.length_toList])⟩, rfl⟩
    rw [toList_encoded]
    refine opaquePattern_append (by decide) (List.forall_mem_append.2 ⟨hchannel, ?_⟩)
    exact List.forall_mem_cons.2 ⟨by decide, hthread⟩
  · cases hts : route.threadTs with
    | none =>
      have hnone : hasMarker ['_'] = false := by decide
      simp [SlackRoute.components, SlackRoute.threadText, hts, hnone]
    | some thread => simp [SlackRoute.components, SlackRoute.threadText, hts]

/-! ## The main result -/

/-- A dev request for a registered project gets its records exactly if it has no reply target, or
if neither its source nor the target is secret-shaped. The targets that the Slack encoder produces
are reply targets; they are secret-shaped exactly if the channel or the thread has a marker. -/
theorem carried_iff (bundle : ConfigBundle) (uuid5 : String → Uuid) (request : GatewayRequest)
    (hdev : request.command = .dev)
    (hregistered : ∀ project ∈ request.project, (bundle.projects.get? project).isSome = true) :
    (Carried bundle uuid5 request ↔ ∀ target ∈ request.replyTarget,
      secretShaped request.source.val.toList = false ∧ secretShaped target.val.toList = false) ∧
    ∀ redact route target, encodeSlackRouteTarget redact route = .ok target →
      (∃ t : ReplyTarget, t.val = target) ∧ (secretShaped target.toList = true ↔
        ∃ component ∈ route.components, hasMarker component.toList = true) := by
  refine ⟨?_, fun _ _ _ => encoded_target⟩
  obtain ⟨command, hcommand, hproject, hsource, htarget⟩ := createTaskCommand_ok uuid5 hdev
  obtain ⟨⟨_, project⟩, hfound⟩ := Option.isSome_iff_exists.1 (hregistered _ hproject)
  have hrecords : ∀ draws : TaskDraws, draws.createdId ≠ draws.queuedId →
      ((∃ records, newTaskRecords bundle uuid5 draws command = .ok records) ↔
        ∀ target ∈ request.replyTarget, secretShaped request.source.val.toList = false ∧
          secretShaped target.val.toList = false) := by
    intro draws hids
    have hnew : (∃ records, newTask uuid5 draws project.team command = .ok records) ↔
        ∃ route, taskRoute command = .ok route := newTask_ok_iff project.team hids
    rw [← hsource, ← htarget, ← taskRoute_ok_iff, ← hnew, newTaskRecords, hfound]
    dsimp only
    cases newTask uuid5 draws project.team command <;> simp [Except.mapError]
  constructor
  · intro h
    obtain ⟨command', hcommand', hconstructed⟩ := h.constructed
    rw [hcommand] at hcommand'
    cases hcommand'
    let draws : TaskDraws := ⟨⟨0, 0⟩, 0, ⟨0, 0⟩, 1, ⟨0, 0⟩⟩
    have hids : draws.createdId ≠ draws.queuedId := by decide
    exact (hrecords draws hids).1 (hconstructed draws hids)
  · intro h
    obtain ⟨key, hkey⟩ := request.idempotencyKey_accepted
    exact {
      accepted := ⟨key, hkey ▸ key.parse_val, hkey⟩
      distinct := fun other hother => GatewayRequestFields.idempotencyKey_inj hother
      constructed := ⟨command, hcommand, fun draws hids => (hrecords draws hids).2 h⟩ }

namespace Sample

/-- A dev request from Slack for the shop. -/
def devRequest (target : ReplyTarget) : GatewayRequest :=
  ⟨{ source := taskFields.source, sourceEventId := ⟨"Ev1", by decide⟩
     actorId := ⟨"U1", by decide⟩, replyTarget := some target, command := .dev
     project := some Config.Sample.shop, instruction := some ⟨"Add a cart", by decide⟩ }, rfl⟩

def channelTarget : ReplyTarget := ⟨"slack-v1:C0123:_", by decide +kernel⟩

/-- The channel has a marker, which the redaction of a text leaves alone. -/
def markedTarget : ReplyTarget := ⟨"slack-v1:Cpassword:_", by decide +kernel⟩

def markedRoute : SlackRoute := { channel := ⟨"Cpassword", by decide⟩ }

theorem shop_registered : ∀ project ∈ (devRequest channelTarget).project,
    (Config.Sample.besides.projects.get? project).isSome = true := by
  decide +kernel

end Sample

open Sample in
theorem carried_iff_sample :
    Carried Config.Sample.besides (fun _ => 7) (devRequest channelTarget) := by
  refine (carried_iff _ _ _ rfl shop_registered).1.2 fun target htarget => ?_
  cases htarget
  decide +kernel

open Sample in
/-- The encoder lets a channel through that the storage model refuses. -/
theorem marked_channel_refused :
    encodeSlackRouteTarget (fun _ text => text) markedRoute = .ok markedTarget.val ∧
    ¬ ∀ (bundle : ConfigBundle) (uuid5 : String → Uuid) (request : GatewayRequest),
      request.command = .dev →
      (∀ project ∈ request.project, (bundle.projects.get? project).isSome = true) →
      Carried bundle uuid5 request := by
  refine ⟨by decide +kernel, fun h => ?_⟩
  have hcarried := h Config.Sample.besides (fun _ => 7) (devRequest markedTarget) rfl
    shop_registered
  obtain ⟨command, hcommand, hconstructed⟩ := hcarried.constructed
  obtain ⟨records, hrecords⟩ := hconstructed ⟨⟨0, 0⟩, 0, ⟨0, 0⟩, 1, ⟨0, 0⟩⟩ (by decide)
  have hrefused : ((createTaskCommand (fun _ => 7) (devRequest markedTarget)).toOption.all
      fun command => (newTaskRecords Config.Sample.besides (fun _ => 7)
        ⟨⟨0, 0⟩, 0, ⟨0, 0⟩, 1, ⟨0, 0⟩⟩ command).toOption.isNone) = true := by
    decide +kernel
  rw [hcommand, Except.toOption, Option.all_some, hrecords] at hrefused
  cases hrefused

end AIHub
