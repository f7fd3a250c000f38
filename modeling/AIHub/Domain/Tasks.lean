import AIHub.Lib.Text
import Mathlib.Data.Int.Order.Basic
import Mathlib.Order.Basic

/-!
# Tasks and their lifecycle

The task snapshot and the rules for moving it through its lifecycle. A `Task` carries the proof
that its validators accept it, so a task with repeated agents, or with a completion time it
should not have, cannot be built. `transitionTask` is the only rule that moves a task:
`transitionTask_ok` says what a successful call has checked and built, and
`transitionTask_eq_ok` that nothing else can refuse the call.
-/

namespace AIHub

/-! ## Identifiers -/

/-- `[a-z0-9]*(?:-[a-z0-9]+)*`, after the first letter of an identifier. -/
def identifierTail : List Char → Bool
  | [] => true
  | ['-'] => false
  | '-' :: c :: cs => (Text.isLower c || Text.isDigit c) && identifierTail cs
  | c :: cs => (Text.isLower c || Text.isDigit c) && identifierTail cs

def identifierPattern : List Char → Bool
  | [] => false
  | c :: cs => Text.isLower c && identifierTail cs

/-- `[A-Z0-9][A-Z0-9-]*` after a fixed prefix. -/
def upperIdPattern (start : String) (cs : List Char) : Bool :=
  start.toList.isPrefixOf cs &&
    Text.headThen (fun c => Text.isUpper c || Text.isDigit c)
      (fun c => Text.isUpper c || Text.isDigit c || c == '-') (cs.drop start.toList.length)

abbrev Identifier := Constrained ⟨1, 63, identifierPattern⟩
abbrev TaskId := Constrained ⟨6, 69, upperIdPattern "TASK-"⟩
abbrev TaskRequest := Constrained ⟨1, 100000, fun _ => true⟩

/-- The characters of `Identifier`. -/
def isNameChar (c : Char) : Bool := Text.isLower c || Text.isDigit c || c == '-'

theorem identifierTail_chars {cs : List Char} (h : identifierTail cs = true) :
    ∀ c ∈ cs, isNameChar c = true := by
  induction cs using identifierTail.induct with
  | case1 => simp
  | case2 => cases h
  | case3 c cs ih =>
    simp only [identifierTail, Bool.and_eq_true] at h
    refine List.forall_mem_cons.2 ⟨rfl, List.forall_mem_cons.2 ⟨?_, ih h.2⟩⟩
    rw [isNameChar, h.1, Bool.true_or]
  | case4 c cs h₁ h₂ ih =>
    rw [identifierTail.eq_4 c cs h₁ h₂, Bool.and_eq_true] at h
    refine List.forall_mem_cons.2 ⟨?_, ih h.2⟩
    rw [isNameChar, h.1, Bool.true_or]

/-- An identifier starts with a letter. -/
theorem Identifier.chars (id : Identifier) :
    (∃ c cs, id.val.toList = c :: cs ∧ Text.isLower c = true) ∧
      ∀ c ∈ id.val.toList, isNameChar c = true := by
  have h := id.ok
  simp only [StringConstraints.accepts, decide_eq_true_eq] at h
  have hpattern := h.2.2.2
  cases hcs : id.val.toList with
  | nil =>
    rw [hcs] at hpattern
    cases hpattern
  | cons c cs =>
    rw [hcs, identifierPattern, Bool.and_eq_true] at hpattern
    refine ⟨⟨c, cs, rfl, hpattern.1⟩, List.forall_mem_cons.2 ⟨?_, identifierTail_chars hpattern.2⟩⟩
    rw [isNameChar, hpattern.1, Bool.true_or, Bool.true_or]

/-- The characters of an identifier that may be part of it in any place. -/
def isIdChar (c : Char) : Bool := Text.isUpper c || Text.isDigit c || c == '-'

theorem upperIdPattern_chars {start : String} {cs : List Char}
    (hstart : ∀ c ∈ start.toList, isIdChar c = true) (h : upperIdPattern start cs = true) :
    ∀ c ∈ cs, isIdChar c = true := by
  simp only [upperIdPattern, Bool.and_eq_true, List.isPrefixOf_iff_prefix] at h
  obtain ⟨⟨rest, rfl⟩, hrest⟩ := h
  rw [List.drop_left] at hrest
  intro c hc
  rcases List.mem_append.1 hc with hc | hc
  · exact hstart c hc
  · cases rest with
    | nil => cases hc
    | cons d ds =>
      simp only [Text.headThen, Bool.and_eq_true, List.all_eq_true] at hrest
      rcases List.mem_cons.1 hc with rfl | hc
      · rw [isIdChar, hrest.1, Bool.true_or]
      · exact hrest.2 c hc

theorem TaskId.chars (id : TaskId) : ∀ c ∈ id.val.toList, isIdChar c = true := by
  have h := id.ok
  simp only [StringConstraints.accepts, decide_eq_true_eq] at h
  have hstart : "TASK-".toList.all isIdChar = true := by decide
  exact upperIdPattern_chars (List.all_eq_true.1 hstart) h.2.2.2

theorem graphic_of_isIdChar {c : Char} (h : isIdChar c = true) :
    Text.inRange '!' '~' c = true := by
  simp only [isIdChar, Text.isUpper, Text.isDigit, Text.inRange, Bool.or_eq_true,
    Bool.and_eq_true, decide_eq_true_eq, beq_iff_eq, Char.reduceToNat] at h ⊢
  rcases h with (h | h) | rfl
  · omega
  · omega
  · decide

/-! ## Time -/

/-- A timezone-aware time: the instant in microseconds since 1970, and the UTC offset it is written
with, in microseconds too. Times are ordered by their instant. -/
structure Timestamp where
  instant : Int
  offset : Int := 0
  deriving DecidableEq

instance : Preorder Timestamp where
  le a b := a.instant ≤ b.instant
  lt a b := a.instant < b.instant
  le_refl a := Int.le_refl a.instant
  le_trans a b c := Int.le_trans
  lt_iff_le_not_ge a b := by omega

namespace Timestamp

theorem le_def {a b : Timestamp} : a ≤ b ↔ a.instant ≤ b.instant := Iff.rfl

theorem lt_def {a b : Timestamp} : a < b ↔ a.instant < b.instant := Iff.rfl

instance : DecidableLE Timestamp := fun _ _ => decidable_of_iff _ le_def.symm

instance : DecidableLT Timestamp := fun _ _ => decidable_of_iff _ lt_def.symm

theorem not_lt {a b : Timestamp} : ¬ a < b ↔ b ≤ a := by
  rw [lt_def, le_def, Int.not_lt]

end Timestamp

theorem any_eq_false_iff {α : Type*} {o : Option α} {p : α → Bool} :
    o.any p = false ↔ ∀ a ∈ o, p a = false := by
  cases o <;> simp

/-- No time in `o` lies before `a`. -/
theorem Timestamp.any_lt_eq_false {o : Option Timestamp} {a : Timestamp} :
    o.any (· < a) = false ↔ ∀ s ∈ o, a ≤ s := by
  simp only [any_eq_false_iff, decide_eq_false_iff_not, Timestamp.not_lt]

/-- No time in `o` lies after `a`. -/
theorem Timestamp.any_gt_eq_false {o : Option Timestamp} {a : Timestamp} :
    o.any (a < ·) = false ↔ ∀ s ∈ o, s ≤ a := by
  simp only [any_eq_false_iff, decide_eq_false_iff_not, Timestamp.not_lt]

/-! ## Statuses -/

inductive TaskStatus where
  | pending | queued | planning | running | review | qa | blocked | completed | failed | cancelled
  deriving DecidableEq, Repr

namespace TaskStatus

def value : TaskStatus → String
  | pending => "pending"
  | queued => "queued"
  | planning => "planning"
  | running => "running"
  | review => "review"
  | qa => "qa"
  | blocked => "blocked"
  | completed => "completed"
  | failed => "failed"
  | cancelled => "cancelled"

/-- `TaskStatus(value)`: the status a text names. -/
def ofValue? (s : String) : Option TaskStatus :=
  [pending, queued, planning, running, review, qa, blocked, completed, failed, cancelled].find?
    fun t => t.value = s

theorem value_injective : Function.Injective value := by
  intro a b h
  cases a <;> cases b <;> first
    | rfl
    | exact absurd h (by decide)

@[simp] theorem ofValue?_value (t : TaskStatus) : ofValue? t.value = some t := by
  cases t <;> decide

theorem length_value (status : TaskStatus) : status.value.length ≤ 9 := by
  cases status <;> decide

def isTerminal : TaskStatus → Bool
  | completed | failed | cancelled => true
  | _ => false

end TaskStatus

open TaskStatus in
/-- The explicit transition table. -/
def legalTaskTransitions : TaskStatus → List TaskStatus
  | pending => [queued, cancelled]
  | queued => [planning, running, failed, cancelled]
  | planning => [running, blocked, failed, cancelled]
  | running => [review, qa, blocked, completed, failed, cancelled]
  | review => [running, qa, blocked, completed, failed, cancelled]
  | qa => [running, review, blocked, completed, failed, cancelled]
  | blocked => [queued, planning, running, review, qa, failed, cancelled]
  | completed => []
  | failed => []
  | cancelled => []

def canTransition (current target : TaskStatus) : Prop := target ∈ legalTaskTransitions current

instance (current target : TaskStatus) : Decidable (canTransition current target) :=
  inferInstanceAs (Decidable (target ∈ legalTaskTransitions current))

/-- A terminal status has no way out. -/
theorem not_canTransition_of_terminal {current target : TaskStatus}
    (h : current.isTerminal = true) : ¬ canTransition current target := by
  cases current <;> simp_all [TaskStatus.isTerminal, canTransition, legalTaskTransitions]

/-- Only a queued or a blocked task can be planned. -/
theorem canTransition_planning {current : TaskStatus} :
    canTransition current .planning ↔ current = .queued ∨ current = .blocked := by
  cases current <;> decide

/-! ## Errors -/

/-- The exceptions of the modelled code. A text is the exception's message. -/
inductive HubError where
  /-- A model validator refused its input (a `ValueError`). -/
  | validation (message : String)
  | value (message : String)
  /-- A `ValueError` too. -/
  | invalidTaskTransition (current target : TaskStatus)
  | projection (message : String)
  /-- A `TypeError`. -/
  | type (message : String)
  | dataIntegrity (message : String)
  | recordNotFound (message : String)
  | duplicateTask (message : String)
  | duplicateRun (message : String)
  | duplicateArtifact (message : String)
  | idempotencyConflict (message : String)
  /-- SQLite failed (`StorageBusyError`, `StorageUnavailableError`, `StorageCorruptionError`). -/
  | unavailable (message : String)
  deriving DecidableEq

namespace HubError

def message : HubError → String
  | invalidTaskTransition current target =>
    s!"illegal task transition: {current.value} -> {target.value}"
  | validation m | value m | projection m | type m | dataIntegrity m | recordNotFound m
  | duplicateTask m | duplicateRun m | duplicateArtifact m | idempotencyConflict m
  | unavailable m => m

/-- `isinstance(error, DataIntegrityError)`. -/
def isDataIntegrity : HubError → Bool
  | dataIntegrity _ | duplicateTask _ | duplicateRun _ | duplicateArtifact _
  | idempotencyConflict _ => true
  | _ => false

/-- `isinstance(error, StorageError)`. -/
def isStorage (e : HubError) : Bool :=
  e.isDataIntegrity || match e with
    | recordNotFound _ | unavailable _ => true
    | _ => false

/-- `isinstance(error, ValueError)`. -/
def isValue : HubError → Bool
  | validation _ | value _ | invalidTaskTransition _ _ | projection _ => true
  | _ => false

end HubError

/-! ## Fields of records -/

/-- A field of a validated record. -/
def validateField (C : StringConstraints) (name s : String) :
    Except HubError (Constrained C) :=
  match C.parse s with
  | some v => .ok v
  | none => .error (.validation s!"{name} is not a valid string")

def validateOptional (C : StringConstraints) (name : String) :
    Option String → Except HubError (Option (Constrained C))
  | none => .ok none
  | some s => (validateField C name s).map some

def validateFields (C : StringConstraints) (name : String) :
    List String → Except HubError (List (Constrained C))
  | [] => .ok []
  | s :: ss => do
    let v ← validateField C name s
    let vs ← validateFields C name ss
    return v :: vs

/-- The field is the stripped text. -/
theorem val_of_validateField {C : StringConstraints} {name s : String} {v : Constrained C}
    (h : validateField C name s = .ok v) : v.val = String.ofList (Text.strip s.toList) := by
  unfold validateField at h
  split at h
  · rename_i hparse
    cases h
    exact StringConstraints.val_of_parse hparse
  · cases h

theorem validateField_val {C : StringConstraints} {name s : String} {v : Constrained C}
    (h : validateField C name s = .ok v) (hs : ∀ c ∈ s.toList, Text.inRange '!' '~' c = true) :
    v.val = s := by
  rw [val_of_validateField h, Text.strip_of_graphic hs, String.ofList_toList]

/-- A field takes the stripped text, if it is accepted. -/
theorem validateField_of_accepts {C : StringConstraints} (name : String) {s : String}
    (h : C.accepts (String.ofList (Text.strip s.toList)) = true) :
    validateField C name s = .ok ⟨String.ofList (Text.strip s.toList), h⟩ := by
  rw [validateField, StringConstraints.parse_of_accepts h]

/-- A text that is not blank, of allowed characters, is accepted if it is not too long. -/
theorem validateField_ok {C : StringConstraints} (name : String) {s : String}
    (hmin : C.minLength ≤ 1)
    (hpattern : ∀ cs, cs ≠ [] → (∀ c ∈ cs, c ∈ s.toList) → C.pattern cs = true)
    (htext : ∃ c ∈ s.toList, Text.isSpace c = false) (hlength : s.length ≤ C.maxLength) :
    ∃ v, validateField C name s = .ok v := by
  have hne : Text.strip s.toList ≠ [] := by
    obtain ⟨c, hc, hspace⟩ := htext
    intro hnil
    rw [Text.strip_eq_nil.1 hnil c hc] at hspace
    cases hspace
  have haccepts : C.accepts (String.ofList (Text.strip s.toList)) = true := by
    simp only [StringConstraints.accepts, String.toList_ofList, Text.strip_strip,
      decide_eq_true_eq]
    exact ⟨trivial, hmin.trans (List.length_pos_of_ne_nil hne),
      (Text.strip_infix _).length_le.trans hlength,
      hpattern _ hne fun c hc => (Text.strip_infix _).subset hc⟩
  exact ⟨_, validateField_of_accepts name haccepts⟩

/-- Validating an accepted text gives the value it is the text of. -/
theorem validateField_of_val {C : StringConstraints} (name : String) (v : Constrained C) :
    validateField C name v.val = .ok v := by
  rw [validateField, v.parse_val]

/-! ## Tasks -/

structure TaskFields where
  taskId : TaskId
  source : Identifier
  project : Identifier
  team : Identifier
  request : TaskRequest
  status : TaskStatus := .pending
  assignedAgents : List Identifier := []
  createdAt : Timestamp
  startedAt : Option Timestamp := none
  completedAt : Option Timestamp := none
  deriving DecidableEq

namespace TaskFields

def validateUniqueAgents (f : TaskFields) : Except HubError Unit :=
  if f.assignedAgents.Nodup then .ok ()
  else .error (.validation "assigned_agents must not contain duplicates")

def validateTimestamps (f : TaskFields) : Except HubError Unit :=
  if f.startedAt.any (· < f.createdAt) then
    .error (.validation "started_at must not precede created_at")
  else if f.completedAt.any (· < f.createdAt) then
    .error (.validation "completed_at must not precede created_at")
  else if f.completedAt.any fun done => f.startedAt.any (done < ·) then
    .error (.validation "completed_at must not precede started_at")
  else if f.status.isTerminal && f.completedAt.isNone then
    .error (.validation "terminal tasks require completed_at")
  else if !f.status.isTerminal && f.completedAt.isSome then
    .error (.validation "non-terminal tasks must not have completed_at")
  else .ok ()

def validate (f : TaskFields) : Except HubError Unit :=
  f.validateUniqueAgents.bind fun _ => f.validateTimestamps

/-- What the validators establish. -/
structure Valid (f : TaskFields) : Prop where
  agents : f.assignedAgents.Nodup
  started : ∀ s ∈ f.startedAt, f.createdAt ≤ s
  completed : ∀ c ∈ f.completedAt, f.createdAt ≤ c ∧ ∀ s ∈ f.startedAt, s ≤ c
  terminal : f.completedAt.isSome = f.status.isTerminal

theorem validate_eq_ok {f : TaskFields} : f.validate = .ok () ↔ f.Valid := by
  unfold validate validateUniqueAgents validateTimestamps
  constructor
  · intro h
    by_cases h₁ : f.assignedAgents.Nodup
    · rw [if_pos h₁, Except.bind] at h
      split_ifs at h with h₂ h₃ h₄ h₅ h₆
      simp only [Bool.not_eq_true, Timestamp.any_lt_eq_false] at h₂ h₃
      rw [Bool.not_eq_true, any_eq_false_iff] at h₄
      refine ⟨h₁, h₂, fun c hc => ⟨h₃ c hc, Timestamp.any_gt_eq_false.1 (h₄ c hc)⟩, ?_⟩
      cases hc : f.completedAt <;> cases ht : f.status.isTerminal <;> simp_all
    · rw [if_neg h₁] at h
      cases h
  · rintro ⟨h₁, h₂, h₃, h₄⟩
    rw [if_pos h₁, Except.bind, Timestamp.any_lt_eq_false.2 h₂,
      Timestamp.any_lt_eq_false.2 fun c hc => (h₃ c hc).1,
      any_eq_false_iff.2 fun c hc => Timestamp.any_gt_eq_false.2 (h₃ c hc).2]
    cases hc : f.completedAt <;> simp_all

end TaskFields

/-- A task its validators accept. -/
structure Task extends TaskFields where
  valid : toTaskFields.validate = .ok ()
  deriving DecidableEq

namespace Task

@[ext] theorem ext {a b : Task} (h : a.toTaskFields = b.toTaskFields) : a = b := by
  cases a; cases b; cases h; rfl

/-- `Task.model_validate`. -/
def modelValidate (f : TaskFields) : Except HubError Task :=
  match h : f.validate with
  | .ok () => .ok ⟨f, h⟩
  | .error e => .error e

theorem modelValidate_eq_ok {f : TaskFields} {t : Task} :
    modelValidate f = .ok t ↔ t.toTaskFields = f := by
  unfold modelValidate
  split
  · rename_i h
    exact Iff.intro (fun ht => by cases ht; rfl) (fun ht => by subst ht; rfl)
  · rename_i e h
    constructor
    · intro ht
      cases ht
    · intro ht
      rw [← ht, t.valid] at h
      cases h

theorem modelValidate_of_valid {f : TaskFields} (h : f.Valid) :
    ∃ t : Task, modelValidate f = .ok t ∧ t.toTaskFields = f :=
  ⟨⟨f, TaskFields.validate_eq_ok.2 h⟩, modelValidate_eq_ok.2 rfl, rfl⟩

theorem validity (t : Task) : t.toTaskFields.Valid := TaskFields.validate_eq_ok.1 t.valid

end Task

/-! ## The transition rule -/

/-- The statuses whose first entry starts a task. -/
def TaskStatus.isActive : TaskStatus → Bool
  | planning | running | review | qa | blocked => true
  | _ => false

/-- The fields of `task` after a move to `target` at `time`. -/
def TaskFields.moved (task : TaskFields) (target : TaskStatus) (time : Timestamp) : TaskFields :=
  { task with
    status := target
    startedAt := if target.isActive && task.startedAt.isNone then some time else task.startedAt
    completedAt := if target.isTerminal then some time else task.completedAt }

/-- Return a new task snapshot after enforcing lifecycle and timestamp rules. -/
def transitionTask (task : Task) (target : TaskStatus) (time : Timestamp) :
    Except HubError Task :=
  if ¬ canTransition task.status target then
    .error (.invalidTaskTransition task.status target)
  else if time < task.createdAt then
    .error (.value "transition time must not precede task creation")
  else if task.startedAt.any (time < ·) then
    .error (.value "transition time must not precede task start")
  else Task.modelValidate (task.moved target time)

theorem transitionTask_ok {task updated : Task} {target : TaskStatus} {time : Timestamp}
    (h : transitionTask task target time = .ok updated) :
    canTransition task.status target ∧ task.createdAt ≤ time ∧
      (∀ s ∈ task.startedAt, s ≤ time) ∧ updated.toTaskFields = task.moved target time := by
  unfold transitionTask at h
  split_ifs at h with h₁ h₂ h₃
  exact ⟨h₁, Timestamp.not_lt.1 h₂, Timestamp.any_gt_eq_false.1 (Bool.eq_false_iff.2 h₃),
    Task.modelValidate_eq_ok.1 h⟩

/-- The final validation never refuses what the checks before it let through. -/
theorem valid_moved {task : TaskFields} {target : TaskStatus} {time : Timestamp}
    (hv : task.Valid) (hlegal : canTransition task.status target) (hc : task.createdAt ≤ time)
    (hs : ∀ s ∈ task.startedAt, s ≤ time) : (task.moved target time).Valid := by
  have hnt : task.status.isTerminal = false := by
    cases ht : task.status.isTerminal with
    | false => rfl
    | true => exact absurd hlegal (not_canTransition_of_terminal ht)
  have hnone : task.completedAt = none := by
    have h := hv.terminal
    rw [hnt] at h
    simpa using h
  refine ⟨hv.agents, ?_, ?_, ?_⟩
  · intro s hmem
    simp only [TaskFields.moved] at hmem
    split_ifs at hmem
    · cases hmem
      exact hc
    · exact hv.started s hmem
  · intro c hmem
    simp only [TaskFields.moved, hnone] at hmem
    split_ifs at hmem
    · cases hmem
      refine ⟨hc, fun s hst => ?_⟩
      simp only [TaskFields.moved] at hst
      split_ifs at hst
      · cases hst
        exact le_rfl
      · exact hs s hst
    · cases hmem
  · simp only [TaskFields.moved, hnone]
    cases target.isTerminal <;> rfl

theorem transitionTask_eq_ok {task : Task} {target : TaskStatus} {time : Timestamp}
    (hlegal : canTransition task.status target) (hc : task.createdAt ≤ time)
    (hs : ∀ s ∈ task.startedAt, s ≤ time) :
    ∃ updated, transitionTask task target time = .ok updated ∧
      updated.toTaskFields = task.moved target time := by
  obtain ⟨t, ht, hf⟩ :=
    Task.modelValidate_of_valid (valid_moved task.validity hlegal hc hs)
  refine ⟨t, ?_, hf⟩
  have h₃ : task.startedAt.any (time < ·) = false := Timestamp.any_gt_eq_false.2 hs
  rw [transitionTask, if_neg (not_not.2 hlegal), if_neg (Timestamp.not_lt.2 hc), h₃]
  exact ht

end AIHub
