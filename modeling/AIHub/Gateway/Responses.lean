import AIHub.Gateway.Models

/-!
# Responses as documents

`GatewayResponse.model_dump(mode="json")` and `GatewayResponse.model_validate`. A response is
stored as the document that the first makes of it, and read back by the second.

* `modelValidate_modelDump`: a response is read back as it was.
* `findForbiddenKey_modelDump`: no key of its document names a secret.
-/

namespace AIHub

abbrev SafeMessage := Constrained ⟨1, 4000, fun _ => true⟩

inductive GatewayCode where
  | ok | accepted | duplicate | unauthorized | invalidRequest | notFound | conflict | unavailable
  | internalError
  deriving DecidableEq, Repr

namespace GatewayCode

def value : GatewayCode → String
  | ok => "ok"
  | accepted => "accepted"
  | duplicate => "duplicate"
  | unauthorized => "unauthorized"
  | invalidRequest => "invalid_request"
  | notFound => "not_found"
  | conflict => "conflict"
  | unavailable => "unavailable"
  | internalError => "internal_error"

/-- `GatewayCode(value)`: the code a text names. -/
def ofValue? (s : String) : Option GatewayCode :=
  [ok, accepted, duplicate, unauthorized, invalidRequest, notFound, conflict, unavailable,
    internalError].find? fun code => code.value = s

@[simp] theorem ofValue?_value (code : GatewayCode) : ofValue? code.value = some code := by
  cases code <;> decide

end GatewayCode

/-- A task as an interface shows it. -/
structure TaskView where
  taskId : TaskId
  project : Identifier
  team : Identifier
  status : TaskStatus
  assignedAgents : List Identifier := []
  deriving DecidableEq

structure GatewayResponse where
  success : Bool
  code : GatewayCode
  message : SafeMessage
  task : Option TaskView := none
  tasks : List TaskView := []
  replayed : Bool := false
  bounded : tasks.length ≤ 100 := by decide
  deriving DecidableEq

/-- A response that lists no task is bounded. -/
theorem GatewayResponse.bounded_nil : ([] : List TaskView).length ≤ 100 :=
  Nat.zero_le _

/-! ## Fields of a document -/

section

variable {α : Type}

/-- A field of a document, with its default if it has one. -/
def documentField (document : JsonObject) (name : String) (parse : JsonValue → Except HubError α)
    (default : Option α) : Except HubError α :=
  match document.get? name, default with
  | some value, _ => parse value
  | none, some value => .ok value
  | none, none => .error (.validation s!"{name} is required")

/-- Fields that the model does not have are refused. -/
def forbidExtra (document : JsonObject) (names : List String) : Except HubError Unit :=
  match document.find? fun m => !names.contains m.1 with
  | some (name, _) => .error (.validation s!"{name} is not permitted")
  | none => .ok ()

def textField (C : StringConstraints) (name : String) : JsonValue → Except HubError (Constrained C)
  | .string s => validateField C name s
  | _ => .error (.validation s!"{name} is not a string")

def boolField (name : String) : JsonValue → Except HubError Bool
  | .bool b => .ok b
  | _ => .error (.validation s!"{name} is not a boolean")

/-- A member of an enumeration. -/
def enumField (ofValue? : String → Option α) (name : String) : JsonValue → Except HubError α
  | .string s =>
    match ofValue? s with
    | some a => .ok a
    | none => .error (.validation s!"{name} is not a member of the enumeration")
  | _ => .error (.validation s!"{name} is not a string")

def arrayField (parse : JsonValue → Except HubError α) (name : String) :
    JsonValue → Except HubError (List α)
  | .array items => items.mapM parse
  | _ => .error (.validation s!"{name} is not an array")

def optionalField (parse : JsonValue → Except HubError α) : JsonValue → Except HubError (Option α)
  | .null => .ok none
  | value => (parse value).map some

end

/-! ## Models as documents -/

namespace TaskView

def modelDump (v : TaskView) : JsonValue :=
  .object [("assigned_agents", .array (v.assignedAgents.map fun agent => .string agent.val)),
    ("project", .string v.project.val), ("status", .string v.status.value),
    ("task_id", .string v.taskId.val), ("team", .string v.team.val)]

def identifierField (name : String) : JsonValue → Except HubError Identifier :=
  textField ⟨1, 63, identifierPattern⟩ name

def modelValidate : JsonValue → Except HubError TaskView
  | .object document => do
    forbidExtra document ["assigned_agents", "project", "status", "task_id", "team"]
    let taskId ← documentField document "task_id"
      (textField ⟨6, 69, upperIdPattern "TASK-"⟩ "task_id") none
    let project ← documentField document "project" (identifierField "project") none
    let team ← documentField document "team" (identifierField "team") none
    let status ← documentField document "status" (enumField TaskStatus.ofValue? "status") none
    let assignedAgents ← documentField document "assigned_agents"
      (arrayField (identifierField "assigned_agents") "assigned_agents") (some [])
    return { taskId, project, team, status, assignedAgents }
  | _ => .error (.validation "task is not an object")

end TaskView

namespace GatewayResponse

/-- `model_dump(mode="json")`. -/
def modelDump (r : GatewayResponse) : JsonObject :=
  [("code", .string r.code.value), ("message", .string r.message.val),
    ("replayed", .bool r.replayed), ("success", .bool r.success),
    ("task", (r.task.map TaskView.modelDump).getD .null),
    ("tasks", .array (r.tasks.map TaskView.modelDump))]

/-- `GatewayResponse.model_validate`. A field of another JSON type is refused. -/
def modelValidate (document : JsonObject) : Except HubError GatewayResponse := do
  forbidExtra document ["code", "message", "replayed", "success", "task", "tasks"]
  let success ← documentField document "success" (boolField "success") none
  let code ← documentField document "code" (enumField GatewayCode.ofValue? "code") none
  let message ← documentField document "message"
    (textField ⟨1, 4000, fun _ => true⟩ "message") none
  let task ← documentField document "task" (optionalField TaskView.modelValidate) (some none)
  let tasks ← documentField document "tasks" (arrayField TaskView.modelValidate "tasks") (some [])
  let replayed ← documentField document "replayed" (boolField "replayed") (some false)
  if bounded : tasks.length ≤ 100 then
    return { success, code, message, task, tasks, replayed, bounded }
  else throw (.validation "tasks has more than 100 items")

end GatewayResponse

/-! ## Reading back -/

theorem mapM_map_ok {α β : Type} {f : α → JsonValue} {parse : JsonValue → Except HubError β}
    {g : α → β} (h : ∀ a, parse (f a) = .ok (g a)) (l : List α) :
    (l.map f).mapM parse = .ok (l.map g) := by
  induction l with
  | nil => rfl
  | cons a l ih => simp [List.mapM_cons, h, ih, bind, Except.bind, pure, Except.pure]

section

variable {α : Type} {document : JsonObject} {name : String} {value : JsonValue}
  {parse : JsonValue → Except HubError α} {default : Option α} {a : α}

theorem documentField_ok (hget : document.get? name = some value) (hparse : parse value = .ok a) :
    documentField document name parse default = .ok a := by
  unfold documentField
  rw [hget]
  exact hparse

theorem forbidExtra_ok {names : List String} (h : ∀ m ∈ document, m.1 ∈ names) :
    forbidExtra document names = .ok () := by
  have hnone : (document.find? fun m => !names.contains m.1) = none := by
    refine List.find?_eq_none.2 fun m hm => ?_
    simpa using h m hm
  rw [forbidExtra, hnone]

theorem textField_val {C : StringConstraints} (name : String) (v : Constrained C) :
    textField C name (.string v.val) = .ok v := validateField_of_val name v

theorem enumField_value {ofValue? : String → Option α} {s : String} (name : String)
    (h : ofValue? s = some a) : enumField ofValue? name (.string s) = .ok a := by
  unfold enumField
  simp only [h]

end

namespace TaskView

theorem identifierField_val (name : String) (v : Identifier) :
    identifierField name (.string v.val) = .ok v := textField_val name v

theorem agentsField_map (agents : List Identifier) :
    arrayField (identifierField "assigned_agents") "assigned_agents"
      (.array (agents.map fun agent => .string agent.val)) = .ok agents := by
  have hagents := mapM_map_ok (g := id) (identifierField_val "assigned_agents") agents
  rwa [List.map_id] at hagents

/-- A view is read back as it was. -/
theorem modelValidate_modelDump (v : TaskView) : modelValidate v.modelDump = .ok v := by
  unfold modelDump modelValidate
  dsimp only
  rw [forbidExtra_ok (by simp),
    documentField_ok (by simp [JsonObject.get?]) (textField_val _ v.taskId),
    documentField_ok (by simp [JsonObject.get?]) (identifierField_val _ v.project),
    documentField_ok (by simp [JsonObject.get?]) (identifierField_val _ v.team),
    documentField_ok (by simp [JsonObject.get?])
      (enumField_value _ (TaskStatus.ofValue?_value v.status)),
    documentField_ok (by simp [JsonObject.get?]) (agentsField_map v.assignedAgents)]
  rfl

end TaskView

namespace GatewayResponse

theorem taskField_map (task : Option TaskView) :
    optionalField TaskView.modelValidate ((task.map TaskView.modelDump).getD .null) = .ok task := by
  cases task with
  | none => rfl
  | some v =>
    show (TaskView.modelValidate v.modelDump).map some = .ok (some v)
    rw [v.modelValidate_modelDump]
    rfl

theorem tasksField_map (tasks : List TaskView) :
    arrayField TaskView.modelValidate "tasks" (.array (tasks.map TaskView.modelDump)) =
      .ok tasks := by
  have htasks := mapM_map_ok (g := id) TaskView.modelValidate_modelDump tasks
  rwa [List.map_id] at htasks

/-- A response is read back as it was. -/
theorem modelValidate_modelDump (r : GatewayResponse) : modelValidate r.modelDump = .ok r := by
  unfold modelDump modelValidate
  rw [forbidExtra_ok (by simp),
    documentField_ok (by simp [JsonObject.get?]) (rfl : boolField "success" (.bool r.success) = _),
    documentField_ok (by simp [JsonObject.get?])
      (enumField_value _ (GatewayCode.ofValue?_value r.code)),
    documentField_ok (by simp [JsonObject.get?]) (textField_val _ r.message),
    documentField_ok (by simp [JsonObject.get?]) (taskField_map r.task),
    documentField_ok (by simp [JsonObject.get?]) (tasksField_map r.tasks),
    documentField_ok (by simp [JsonObject.get?])
      (rfl : boolField "replayed" (.bool r.replayed) = _)]
  show (if bounded : r.tasks.length ≤ 100 then _ else _) = _
  rw [dif_pos r.bounded]
  rfl

/-! ## Keys -/

/-- The keys of the documents of responses. -/
def documentKeys : List String :=
  ["code", "message", "replayed", "success", "task", "tasks", "assigned_agents", "project",
    "status", "task_id", "team"]

theorem keys_texts (agents : List Identifier) :
    itemKeys (agents.map fun agent => .string agent.val) = [] := by
  induction agents with
  | nil => rfl
  | cons agent agents ih => simp [itemKeys, JsonValue.keys, ih]

theorem keys_modelDump (v : TaskView) : ∀ key ∈ v.modelDump.keys, key ∈ documentKeys := by
  simp [TaskView.modelDump, JsonValue.keys, memberKeys, keys_texts, documentKeys]

theorem keys_tasks (tasks : List TaskView) :
    ∀ key ∈ itemKeys (tasks.map TaskView.modelDump), key ∈ documentKeys := by
  induction tasks with
  | nil => simp [itemKeys]
  | cons v tasks ih =>
    rw [List.map_cons, itemKeys]
    exact List.forall_mem_append.2 ⟨keys_modelDump v, ih⟩

theorem memberKeys_modelDump (r : GatewayResponse) :
    ∀ key ∈ memberKeys r.modelDump, key ∈ documentKeys := by
  have htask : ∀ key ∈ ((r.task.map TaskView.modelDump).getD .null).keys, key ∈ documentKeys := by
    cases r.task with
    | none => simp [JsonValue.keys]
    | some v => exact keys_modelDump v
  intro key hkey
  simp only [modelDump, memberKeys, JsonValue.keys, List.nil_append, List.append_nil,
    List.mem_cons, List.mem_append] at hkey
  rcases hkey with rfl | rfl | rfl | rfl | rfl | hkey | rfl | hkey
  · simp [documentKeys]
  · simp [documentKeys]
  · simp [documentKeys]
  · simp [documentKeys]
  · simp [documentKeys]
  · exact htask key hkey
  · simp [documentKeys]
  · exact keys_tasks r.tasks key hkey

/-- No key of the document of a response names a secret. -/
theorem findForbiddenKey_modelDump (r : GatewayResponse) : findForbiddenKey r.modelDump = none := by
  have hkeys : ∀ key ∈ documentKeys, forbiddenResponseKey (normalizeKey key) = false := by
    decide +kernel
  exact (findForbidden_eq_none _ _).2 fun key hkey => hkeys key (memberKeys_modelDump r key hkey)

end GatewayResponse

end AIHub
