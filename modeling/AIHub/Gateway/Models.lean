import AIHub.Storage.Models

/-!
# Gateway requests and responses

What the interfaces send to the gateway, and what it answers. A `GatewayRequest` carries the proof
that `validate_command_arguments` accepts its arguments.

* `idempotencyKey_accepted`: the key of a request is one that the store takes, as it is.
* `idempotencyKey_inj`: it determines the source and the event of the request.
-/

namespace AIHub

/-! ## Texts -/

/-- `[^\x00-\x1f\x7f]+`. -/
def opaqueIdPattern (cs : List Char) : Bool :=
  cs ≠ [] && cs.all fun c => 0x1f < c.toNat && c.toNat ≠ 0x7f

abbrev OpaqueId := Constrained ⟨1, 255, opaqueIdPattern⟩
abbrev ReplyTarget := Constrained ⟨1, 200, opaquePattern⟩
abbrev SourceEventId := Constrained ⟨1, 135, opaquePattern⟩
abbrev TaskInstruction := Constrained ⟨1, 100000, fun _ => true⟩

/-! ## Requests -/

inductive GatewayCommand where
  | help | dev | status | task | tasks | stop
  deriving DecidableEq, Repr

def GatewayCommand.value : GatewayCommand → String
  | help => "help"
  | dev => "dev"
  | status => "status"
  | task => "task"
  | tasks => "tasks"
  | stop => "stop"

structure GatewayRequestFields where
  source : Identifier
  sourceEventId : SourceEventId
  actorId : OpaqueId
  replyTarget : Option ReplyTarget := none
  command : GatewayCommand
  project : Option Identifier := none
  taskId : Option TaskId := none
  instruction : Option TaskInstruction := none
  deriving DecidableEq

namespace GatewayRequestFields

def idempotencyKey (r : GatewayRequestFields) : String := s!"{r.source.val}:{r.sourceEventId.val}"

def validateCommandArguments (r : GatewayRequestFields) : Except HubError Unit :=
  match r.command with
  | .dev =>
    if r.project.isNone || r.instruction.isNone then
      .error (.validation "dev requires project and instruction")
    else if r.taskId.isSome then .error (.validation "dev must not include task_id")
    else .ok ()
  | .task | .stop =>
    if r.taskId.isNone then .error (.validation s!"{r.command.value} requires task_id")
    else if r.project.isSome || r.instruction.isSome then
      .error (.validation s!"{r.command.value} accepts only task_id")
    else .ok ()
  | .help | .status | .tasks =>
    if r.project.isSome || r.taskId.isSome || r.instruction.isSome then
      .error (.validation s!"{r.command.value} does not accept task arguments")
    else .ok ()

end GatewayRequestFields

/-- A request its validator accepts. -/
structure GatewayRequest extends GatewayRequestFields where
  arguments : toGatewayRequestFields.validateCommandArguments = .ok ()
  deriving DecidableEq

/-- A dev request has a project and an instruction. -/
theorem GatewayRequest.dev_arguments {r : GatewayRequest} (h : r.command = .dev) :
    ∃ project instruction, r.project = some project ∧ r.instruction = some instruction := by
  have harguments := r.arguments
  simp only [GatewayRequestFields.validateCommandArguments, h] at harguments
  split_ifs at harguments with hmissing
  simp only [Bool.or_eq_true, not_or, Bool.not_eq_true, Option.isNone_eq_false_iff,
    Option.isSome_iff_exists] at hmissing
  obtain ⟨⟨project, hproject⟩, instruction, hinstruction⟩ := hmissing
  exact ⟨project, instruction, hproject, hinstruction⟩

structure CreateTaskCommand where
  taskId : TaskId
  source : Identifier
  sourceEventId : SourceEventId
  actorId : OpaqueId
  replyTarget : Option ReplyTarget := none
  project : Identifier
  instruction : TaskInstruction
  deriving DecidableEq

/-- What an adapter raises. -/
inductive PortError where
  | taskNotFound (message : String)
  | taskConflict (message : String)
  | dependencyUnavailable (message : String)
  /-- An error of the layers below that is passed on. -/
  | other (error : HubError)
  deriving DecidableEq

/-! ## Idempotency keys -/

/-- A character of an opaque text. -/
def isOpaqueChar (c : Char) : Bool :=
  Text.isAlnum c || c == '.' || c == '_' || c == ':' || c == '-'

theorem opaquePattern_chars {cs : List Char} (h : opaquePattern cs = true) :
    ∀ c ∈ cs, isOpaqueChar c = true := by
  cases cs with
  | nil => cases h
  | cons c cs =>
    simp only [opaquePattern, Text.headThen, Bool.and_eq_true, List.all_eq_true] at h
    refine List.forall_mem_cons.2 ⟨?_, h.2⟩
    simp only [isOpaqueChar, h.1, Bool.true_or]

theorem opaquePattern_append {a b : List Char} (ha : opaquePattern a = true)
    (hb : ∀ c ∈ b, isOpaqueChar c = true) : opaquePattern (a ++ b) = true := by
  cases a with
  | nil => cases ha
  | cons c cs =>
    simp only [opaquePattern, Text.headThen, List.cons_append, Bool.and_eq_true, List.all_eq_true,
      List.forall_mem_append] at ha ⊢
    exact ⟨ha.1, ha.2, hb⟩

theorem graphic_of_isOpaqueChar {c : Char} (h : isOpaqueChar c = true) :
    Text.inRange '!' '~' c = true := by
  simp only [isOpaqueChar, Text.isAlnum, Text.isDigit, Text.isLower, Text.isUpper, Text.inRange,
    Bool.or_eq_true, Bool.and_eq_true, decide_eq_true_eq, beq_iff_eq, Char.reduceToNat] at h ⊢
  rcases h with ((((((h | h) | h) | rfl) | rfl) | rfl) | rfl)
  all_goals first | omega | decide

/-- A text of the pattern is accepted as it is, if it is not too long. -/
theorem opaque_accepts {s : String} {maxLength : Nat} (h : opaquePattern s.toList = true)
    (hlength : s.toList.length ≤ maxLength) :
    StringConstraints.accepts ⟨1, maxLength, opaquePattern⟩ s = true := by
  have hstrip : Text.strip s.toList = s.toList :=
    Text.strip_of_graphic fun c hc => graphic_of_isOpaqueChar (opaquePattern_chars h c hc)
  have hpos : 1 ≤ s.toList.length := by
    refine List.length_pos_of_ne_nil fun hnil => ?_
    rw [hnil] at h
    cases h
  simp only [StringConstraints.accepts, decide_eq_true_eq]
  exact ⟨hstrip, hpos, hlength, h⟩

theorem opaquePattern_val {maxLength : Nat}
    (v : Constrained ⟨1, maxLength, opaquePattern⟩) :
    opaquePattern v.val.toList = true ∧ v.val.toList.length ≤ maxLength := by
  have h := v.ok
  simp only [StringConstraints.accepts, decide_eq_true_eq] at h
  exact ⟨h.2.2.2, h.2.2.1⟩

/-- An identifier is an opaque text. -/
theorem identifier_opaquePattern (id : Identifier) :
    opaquePattern id.val.toList = true ∧ id.val.toList.length ≤ 63 := by
  obtain ⟨⟨c, cs, hcs, hlower⟩, hname⟩ := id.chars
  have h := id.ok
  simp only [StringConstraints.accepts, decide_eq_true_eq] at h
  refine ⟨?_, h.2.2.1⟩
  rw [hcs] at hname ⊢
  simp only [opaquePattern, Text.headThen, Bool.and_eq_true, List.all_eq_true]
  refine ⟨by rw [Text.isAlnum, hlower, Bool.or_true, Bool.true_or], fun d hd => ?_⟩
  have hd := hname d (List.mem_cons_of_mem _ hd)
  simp only [isNameChar, Bool.or_eq_true] at hd
  simp only [Text.isAlnum, Bool.or_eq_true]
  tauto

namespace GatewayRequestFields

theorem toList_idempotencyKey (r : GatewayRequestFields) :
    r.idempotencyKey.toList = r.source.val.toList ++ ':' :: r.sourceEventId.val.toList := by
  show (r.source.val ++ ":" ++ r.sourceEventId.val).toList = _
  simp

/-- The store takes the key as it is. -/
theorem idempotencyKey_accepted (r : GatewayRequestFields) :
    ∃ key : IdempotencyKey, key.val = r.idempotencyKey := by
  obtain ⟨hsource, hsourceLength⟩ := identifier_opaquePattern r.source
  obtain ⟨hevent, heventLength⟩ := opaquePattern_val r.sourceEventId
  refine ⟨⟨r.idempotencyKey, opaque_accepts ?_ ?_⟩, rfl⟩
  · rw [toList_idempotencyKey]
    exact opaquePattern_append hsource
      (List.forall_mem_cons.2 ⟨by decide, opaquePattern_chars hevent⟩)
  · rw [toList_idempotencyKey, List.length_append, List.length_cons]
    omega

/-- A source has no colon, so the key determines the source and the event. -/
theorem idempotencyKey_inj {a b : GatewayRequestFields} (h : a.idempotencyKey = b.idempotencyKey) :
    a.source = b.source ∧ a.sourceEventId = b.sourceEventId := by
  have hsource : ∀ r : GatewayRequestFields,
      r.idempotencyKey.toList.takeWhile (· ≠ ':') = r.source.val.toList := by
    intro r
    rw [toList_idempotencyKey, List.takeWhile_append_of_pos]
    · simp
    · intro c hc
      have hname := r.source.chars.2 c hc
      by_contra hcolon
      obtain rfl : c = ':' := by simpa using hcolon
      revert hname
      decide
  have hsources : a.source.val.toList = b.source.val.toList := by rw [← hsource, h, hsource]
  have hchars := congrArg String.toList h
  rw [toList_idempotencyKey, toList_idempotencyKey, hsources, List.append_cancel_left_eq,
    List.cons.injEq] at hchars
  exact ⟨Constrained.ext (String.toList_injective hsources),
    Constrained.ext (String.toList_injective hchars.2)⟩

end GatewayRequestFields

end AIHub
