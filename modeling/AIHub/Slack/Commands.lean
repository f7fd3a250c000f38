import AIHub.Gateway.Models
import AIHub.Observability.Patterns

/-!
# Slack commands

What `parse_slack_command` makes of the text of a message, and the texts that say a request: a
`CommandText` is the request written down, with the white space, the mention of the bot and the
letter case that are left to the writer.

The parser removes the mention once, at the start, and splits off the first word, and for `dev` the
second one, at runs of white space. What follows is taken as it is, with the white space, the line
breaks and the mentions that it has inside.

Main result: `slackCommand_parsed`.
-/

namespace AIHub

open Regex

/-! ## Validation -/

namespace GatewayCommand

/-- `GatewayCommand(value)`. -/
def ofValue? (s : String) : Option GatewayCommand :=
  [help, dev, status, task, tasks, stop].find? fun command => command.value = s

@[simp] theorem ofValue?_value (command : GatewayCommand) :
    ofValue? command.value = some command := by
  cases command <;> decide

end GatewayCommand

/-- The fields of a request before validation. -/
structure GatewayRequestInput where
  source : String
  sourceEventId : String
  actorId : String
  replyTarget : Option String := none
  command : GatewayCommand
  project : Option String := none
  taskId : Option String := none
  instruction : Option String := none
  deriving DecidableEq

namespace GatewayRequest

/-- `GatewayRequest.model_validate`. -/
def modelValidate (i : GatewayRequestInput) : Except HubError GatewayRequest := do
  let source ← validateField ⟨1, 63, identifierPattern⟩ "source" i.source
  let sourceEventId ← validateField ⟨1, 135, opaquePattern⟩ "source_event_id" i.sourceEventId
  let actorId ← validateField ⟨1, 255, opaqueIdPattern⟩ "actor_id" i.actorId
  let replyTarget ← validateOptional ⟨1, 200, opaquePattern⟩ "reply_target" i.replyTarget
  let project ← validateOptional ⟨1, 63, identifierPattern⟩ "project" i.project
  let taskId ← validateOptional ⟨6, 69, upperIdPattern "TASK-"⟩ "task_id" i.taskId
  let instruction ← validateOptional ⟨1, 100000, fun _ => true⟩ "instruction" i.instruction
  let fields : GatewayRequestFields := {
    source, sourceEventId, actorId, replyTarget, command := i.command, project, taskId
    instruction }
  match h : fields.validateCommandArguments with
  | .ok () => return ⟨fields, h⟩
  | .error e => throw e

/-- The texts of the fields. -/
def input (r : GatewayRequest) : GatewayRequestInput where
  source := r.source.val
  sourceEventId := r.sourceEventId.val
  actorId := r.actorId.val
  replyTarget := r.replyTarget.map (·.val)
  command := r.command
  project := r.project.map (·.val)
  taskId := r.taskId.map (·.val)
  instruction := r.instruction.map (·.val)

theorem validateOptional_val {C : StringConstraints} (name : String) (v : Option (Constrained C)) :
    validateOptional C name (v.map (·.val)) = .ok v := by
  cases v with
  | none => rfl
  | some v =>
    rw [Option.map_some, validateOptional, validateField_of_val]
    rfl

/-- A request is valid as it is. -/
theorem modelValidate_input (r : GatewayRequest) : modelValidate r.input = .ok r := by
  unfold modelValidate input
  simp only [validateField_of_val, validateOptional_val]
  dsimp only [bind, Except.bind]
  split
  · rfl
  · rename_i e h
    cases r.arguments.symm.trans h

end GatewayRequest

/-! ## White space -/

/-- `str.strip`. -/
def stripBlanks (cs : List Char) : List Char := (cs.dropWhile isBlank).rdropWhile isBlank

/-- `str.split(maxsplit=1)`. -/
def splitOnce (cs : List Char) : List (List Char) :=
  match cs.dropWhile isBlank with
  | [] => []
  | c :: cs =>
    let word := (c :: cs).takeWhile fun c => !isBlank c
    let rest := ((c :: cs).dropWhile fun c => !isBlank c).dropWhile isBlank
    if rest = [] then [word] else [word, rest]

/-! ## Parsing -/

/-- A letter of a pattern that ignores case. Which letters beyond ASCII are the same as another one
is given by `other`. -/
def sameIgnoringCase (other : Char → Char → Bool) (p c : Char) : Bool :=
  sameLetter p.toLower c || other p c

section

variable (other : Char → Char → Bool)

/-- What a mention has between `<@` and `>`: the id of the bot, or `[A-Z0-9]+` if that is not
known. -/
def mentionId : Option String → Regex
  | none => plus (char isAlnumIgnoringCase)
  | some botUserId =>
    botUserId.toList.foldr (fun p r => seq (char (sameIgnoringCase other p)) r) empty

/-- `<@...>\s*`. -/
def leadingMention (botUserId : Option String) : Regex :=
  concat [literal "<@", mentionId other botUserId, literal ">", star true (char isBlank)]

/-- `re.sub("^<@...>\s*", "", text, count=1)`. There are no word boundaries in the pattern. -/
def removeMention (botUserId : Option String) (cs : List Char) : List Char :=
  match (leadingMention other botUserId).first (fun _ => false) none cs with
  | some found => cs.drop found.text.length
  | none => cs

/-- What a command takes of its arguments. -/
def readArguments (fields : GatewayRequestInput) (arguments : List Char) :
    Except HubError GatewayRequestInput :=
  match fields.command with
  | .dev =>
    match splitOnce arguments with
    | [project, instruction] => .ok { fields with
        project := some (String.ofList project)
        instruction := some (String.ofList instruction) }
    | _ => .error (.value "Usage: dev <project> <instruction>")
  | .task | .stop =>
    let normalizedTaskId := arguments.flatMap Text.upperChar
    if upperIdPattern "TASK-" normalizedTaskId then
      .ok { fields with taskId := some (String.ofList normalizedTaskId) }
    else .error (.value s!"Usage: {fields.command.value} <TASK-ID>")
  | .help | .status | .tasks =>
    if arguments = [] then .ok fields
    else .error (.value s!"{fields.command.value} does not accept arguments")

def parseSlackCommand (text sourceEventId actorId replyTarget : String)
    (botUserId : Option String) : Except HubError GatewayRequest :=
  let cleaned := removeMention other botUserId (stripBlanks text.toList)
  let cleaned := if cleaned = [] then GatewayCommand.help.value.toList else cleaned
  match splitOnce cleaned with
  | [] => .error (.value "not enough values to unpack (expected at least 1, got 0)")
  | commandName :: remainder =>
    match GatewayCommand.ofValue? (Text.lower (String.ofList commandName)) with
    | none => .error (.value "Unknown command. Use: help, dev, status, task, tasks, or stop.")
    | some command => do
      let fields ← readArguments {
          source := "slack", sourceEventId, actorId, replyTarget := some replyTarget, command }
        (remainder.head?.elim [] stripBlanks)
      match GatewayRequest.modelValidate fields with
      | .ok request => .ok request
      | .error _ => .error (.value "The command contains invalid identifiers or text.")

/-! ## Commands as texts -/

/-- Neither the first nor the last character is white space. -/
def Trimmed (cs : List Char) : Prop :=
  (∀ c ∈ cs.head?, isBlank c = false) ∧ ∀ c ∈ cs.getLast?, isBlank c = false

/-- Some white space. -/
structure IsGap (cs : List Char) : Prop where
  nonempty : cs ≠ []
  blank : ∀ c ∈ cs, isBlank c = true

/-- The id in a mention of the bot. -/
def NamesBot : Option String → List Char → Prop
  | none, id => id ≠ [] ∧ ∀ c ∈ id, isAlnumIgnoringCase c = true
  | some botUserId, id =>
    List.Forall₂ (fun p c => sameIgnoringCase other p c = true) botUserId.toList id

/-- A mention of the bot, and the white space after it, if there is any. -/
def IsMention (botUserId : Option String) (mention : List Char) : Prop :=
  ∃ id blanks, NamesBot other botUserId id ∧ (∀ c ∈ blanks, isBlank c = true) ∧
    mention = "<@".toList ++ (id ++ (">".toList ++ blanks))

/-- The arguments of a request, each after some white space. -/
def IsArguments (r : GatewayRequest) (arguments : List Char) : Prop :=
  match r.command with
  | .dev => ∃ project ∈ r.project, ∃ instruction ∈ r.instruction, ∃ gap gap', IsGap gap ∧
      IsGap gap' ∧
      arguments = gap ++ (project.val.toList ++ (gap' ++ instruction.val.toList))
  | .task | .stop => ∃ taskId ∈ r.taskId, ∃ gap id, IsGap gap ∧
      Text.SameLetters id taskId.val.toList ∧ arguments = gap ++ id
  | .help | .status | .tasks => arguments = []

/-- A request as the text of a command. -/
structure CommandText (botUserId : Option String) (r : GatewayRequest) where
  before : List Char
  mention : List Char
  word : List Char
  arguments : List Char
  after : List Char
  before_blank : ∀ c ∈ before, isBlank c = true
  isMention : mention = [] ∨ IsMention other botUserId mention
  isWord : Text.SameLetters word r.command.value.toList
  isArguments : IsArguments r arguments
  after_blank : ∀ c ∈ after, isBlank c = true

variable {other} in
def CommandText.text {botUserId : Option String} {r : GatewayRequest}
    (t : CommandText other botUserId r) : String :=
  String.ofList (t.before ++ ((t.mention ++ (t.word ++ t.arguments)) ++ t.after))

end

/-! ## White space and words -/

theorem isBlank_of_graphic {c : Char} (h : Text.inRange '!' '~' c = true) : isBlank c = false := by
  have hspace := Text.isSpace_of_graphic h
  simp only [Text.inRange, Bool.and_eq_true, decide_eq_true_eq, Char.reduceToNat] at h
  simp only [isBlank, hspace, Bool.false_or, Bool.and_eq_false_iff, decide_eq_false_iff_not]
  omega

theorem Trimmed.of_graphic {cs : List Char} (h : ∀ c ∈ cs, isBlank c = false) : Trimmed cs :=
  ⟨fun c hc => h c (List.mem_of_mem_head? hc), fun c hc => h c (List.mem_of_getLast? hc)⟩

/-- A text that starts as one and ends as another one. -/
theorem Trimmed.append {a b : List Char} (ha : Trimmed a) (hne : a ≠ []) (hb : Trimmed b)
    (hne' : b ≠ []) (between : List Char) : Trimmed (a ++ (between ++ b)) := by
  refine ⟨fun c hc => ha.1 c ?_, fun c hc => hb.2 c ?_⟩
  · rwa [List.head?_append_of_ne_nil _ hne] at hc
  · rwa [List.getLast?_append_of_ne_nil _ (List.append_ne_nil_of_right_ne_nil _ hne'),
      List.getLast?_append_of_ne_nil _ hne'] at hc

theorem dropWhile_of_head {cs : List Char} (h : ∀ c ∈ cs.head?, isBlank c = false) :
    cs.dropWhile isBlank = cs := by
  cases cs with
  | nil => rfl
  | cons c cs => exact List.dropWhile_cons_of_neg (by simp [h c rfl])

/-- Stripping takes the white space around a text away. -/
theorem stripBlanks_around {before core after : List Char}
    (hbefore : ∀ c ∈ before, isBlank c = true) (hafter : ∀ c ∈ after, isBlank c = true)
    (hne : core ≠ []) (hcore : Trimmed core) :
    stripBlanks (before ++ (core ++ after)) = core := by
  have hhead : ∀ c ∈ (core ++ after).head?, isBlank c = false := by
    rw [List.head?_append_of_ne_nil _ hne]
    exact hcore.1
  have hlast : ∀ c ∈ core.reverse.head?, isBlank c = false := by
    rw [List.head?_reverse]
    exact hcore.2
  unfold stripBlanks List.rdropWhile
  rw [List.dropWhile_append_of_pos hbefore, dropWhile_of_head hhead, List.reverse_append,
    List.dropWhile_append_of_pos (by simpa using hafter), dropWhile_of_head hlast,
    List.reverse_reverse]

theorem stripBlanks_of_trimmed {cs : List Char} (hne : cs ≠ []) (h : Trimmed cs) :
    stripBlanks cs = cs := by
  have hstrip : stripBlanks ([] ++ (cs ++ [])) = cs :=
    stripBlanks_around (List.forall_mem_nil _) (List.forall_mem_nil _) hne h
  rwa [List.nil_append, List.append_nil] at hstrip

/-- A word alone. -/
theorem splitOnce_word {word : List Char} (hne : word ≠ [])
    (hword : ∀ c ∈ word, isBlank c = false) : splitOnce word = [word] := by
  have hkept : ∀ c ∈ word, (!isBlank c) = true := fun c hc => by rw [hword c hc]; rfl
  have hdrop := dropWhile_of_head fun c hc => hword c (List.mem_of_mem_head? hc)
  unfold splitOnce
  rw [hdrop]
  cases word with
  | nil => exact absurd rfl hne
  | cons c cs =>
    dsimp only
    rw [List.takeWhile_eq_self_iff.2 hkept, List.dropWhile_eq_nil_iff.2 hkept,
      List.dropWhile_nil, if_pos rfl]

/-- A word, and what follows some white space. -/
theorem splitOnce_gap {word gap rest : List Char} (hne : word ≠ [])
    (hword : ∀ c ∈ word, isBlank c = false) (hgap : IsGap gap) (hne' : rest ≠ [])
    (hrest : ∀ c ∈ rest.head?, isBlank c = false) :
    splitOnce (word ++ (gap ++ rest)) = [word, rest] := by
  have hkept : ∀ c ∈ word, (!isBlank c) = true := fun c hc => by rw [hword c hc]; rfl
  have hstop : (gap ++ rest).takeWhile (fun c => !isBlank c) = [] ∧
      (gap ++ rest).dropWhile (fun c => !isBlank c) = gap ++ rest := by
    cases gap with
    | nil => exact absurd rfl hgap.nonempty
    | cons c gap =>
      have hc : ¬ (!isBlank c) = true := by simp [hgap.blank c List.mem_cons_self]
      exact ⟨List.takeWhile_cons_of_neg hc, List.dropWhile_cons_of_neg hc⟩
  have hdrop : (word ++ (gap ++ rest)).dropWhile isBlank = word ++ (gap ++ rest) := by
    refine dropWhile_of_head fun c hc => hword c ?_
    rw [List.head?_append_of_ne_nil _ hne] at hc
    exact List.mem_of_mem_head? hc
  unfold splitOnce
  rw [hdrop]
  have htake : (word ++ (gap ++ rest)).takeWhile (fun c => !isBlank c) = word := by
    rw [List.takeWhile_append_of_pos hkept, hstop.1, List.append_nil]
  have hafter : ((word ++ (gap ++ rest)).dropWhile fun c => !isBlank c).dropWhile isBlank =
      rest := by
    rw [List.dropWhile_append_of_pos hkept, hstop.2, List.dropWhile_append_of_pos hgap.blank,
      dropWhile_of_head hrest]
  cases hcs : word ++ (gap ++ rest) with
  | nil => exact absurd (List.append_eq_nil_iff.1 hcs).1 hne
  | cons c cs =>
    rw [hcs] at htake hafter
    dsimp only
    rw [htake, hafter, if_neg hne']

/-! ## The mention -/

section

variable {other : Char → Char → Bool} {botUserId : Option String}

/-- Between `<@` and `>` the pattern takes the id of the bot. -/
theorem takes_mentionId {id rest : List Char} (h : NamesBot other botUserId id)
    (hrest : ∀ c ∈ rest.head?, isAlnumIgnoringCase c = false) {prev : Option Char} :
    Takes (fun _ => false) (mentionId other botUserId) prev id rest [] [] := by
  cases botUserId with
  | none => exact takes_plus h.1 h.2 hrest
  | some botUserId => exact takes_chars h

/-- A mention is removed with the white space after it. -/
theorem removeMention_mention {mention rest : List Char} (h : IsMention other botUserId mention)
    (hrest : ∀ c ∈ rest.head?, isBlank c = false) :
    removeMention other botUserId (mention ++ rest) = rest := by
  obtain ⟨id, blanks, hid, hblanks, rfl⟩ := h
  have hclose : ∀ c ∈ (">".toList ++ (blanks ++ rest)).head?, isAlnumIgnoringCase c = false := by
    intro c hc
    obtain rfl := Option.some.inj hc
    decide
  have hfirst : Takes (fun _ => false) (leadingMention other botUserId) none
      ("<@".toList ++ (id ++ (">".toList ++ blanks))) rest [] [] := by
    refine (takes_literal "<@").seq (.seq (takes_mentionId hid ?_)
      ((takes_literal ">").seq (takes_star hblanks hrest)))
    rwa [List.append_assoc]
  unfold removeMention first
  rw [hfirst]
  exact List.drop_left

/-- Without a mention nothing is removed. -/
theorem removeMention_none {cs : List Char} (h : ∀ c ∈ cs.head?, c ≠ '<') :
    removeMention other botUserId cs = cs := by
  have hbegins : Begins (fun _ => false) (· == '<') (leadingMention other botUserId) :=
    (begins_literal rfl).concat _
  have hnone : (leadingMention other botUserId).first (fun _ => false) none cs = none := by
    refine first_eq_none.2 fun w rest groups hcs hmatch => ?_
    have hw := hbegins _ _ _ _ _ hmatch
    cases w with
    | nil => cases hw
    | cons c w =>
      rw [hcs] at h
      exact h c rfl (beq_iff_eq.1 hw)
  unfold removeMention
  rw [hnone]

end

/-! ## The arguments -/

namespace GatewayRequest

variable {r : GatewayRequest}

theorem dev_taskId (h : r.command = .dev) : r.taskId = none := by
  have harguments := r.arguments
  simp only [GatewayRequestFields.validateCommandArguments, h] at harguments
  split_ifs at harguments with hmissing htask
  simpa using htask

theorem task_others (h : r.command = .task ∨ r.command = .stop) :
    r.project = none ∧ r.instruction = none := by
  have harguments := r.arguments
  rcases h with h | h <;>
  · simp only [GatewayRequestFields.validateCommandArguments, h] at harguments
    split_ifs at harguments with hmissing hothers
    simpa using hothers

theorem no_arguments (h : r.command = .help ∨ r.command = .status ∨ r.command = .tasks) :
    r.project = none ∧ r.taskId = none ∧ r.instruction = none := by
  have harguments := r.arguments
  rcases h with h | h | h <;>
  · simp only [GatewayRequestFields.validateCommandArguments, h] at harguments
    split_ifs at harguments with hothers
    simpa [and_assoc] using hothers

/-- The fields that a command starts from. -/
def metadata (r : GatewayRequest) : GatewayRequestInput :=
  { r.input with project := none, taskId := none, instruction := none }

end GatewayRequest

theorem Identifier.notBlank (id : Identifier) : ∀ c ∈ id.val.toList, isBlank c = false :=
  fun c hc => isBlank_of_graphic
    (graphic_of_isOpaqueChar (opaquePattern_chars (identifier_opaquePattern id).1 c hc))

theorem text_ne_nil {m : Nat} {pattern : List Char → Bool}
    (v : Constrained ⟨1, m, pattern⟩) : v.val.toList ≠ [] := by
  have h := v.ok
  simp only [StringConstraints.accepts, decide_eq_true_eq] at h
  exact List.ne_nil_of_length_pos h.2.1

/-- A graphic character in the other case is one, too. -/
theorem graphic_of_toLower {c d : Char} (h : c.toLower = d.toLower)
    (hd : Text.inRange '!' '~' d = true) : Text.inRange '!' '~' c = true := by
  have hnat := congrArg Char.toNat h
  rw [Text.toNat_toLower, Text.toNat_toLower] at hnat
  simp only [Text.isUpper, Text.inRange, Bool.and_eq_true, decide_eq_true_eq,
    Char.reduceToNat] at hd hnat ⊢
  split_ifs at hnat <;> omega

/-- Graphic characters in whatever case are not white space. -/
theorem notBlank_of_sameLetters {a b : List Char} (h : Text.SameLetters a b)
    (hb : ∀ c ∈ b, Text.inRange '!' '~' c = true) : ∀ c ∈ a, isBlank c = false := fun c hc =>
  isBlank_of_graphic (h.forall_mem (fun _ _ => graphic_of_toLower) hb c hc)

/-- An id in whatever case is read as it is written in upper case. -/
theorem TaskId.upper (id : TaskId) {cs : List Char} (h : Text.SameLetters cs id.val.toList) :
    cs.flatMap Text.upperChar = id.val.toList := by
  refine h.upper fun c hc => ?_
  have hchar := id.chars c hc
  have hdash : c = '-' ↔ c.toNat = 45 := by
    rw [← Char.toNat_inj]
    rfl
  simp only [isIdChar, Text.isUpper, Text.isDigit, Text.isLower, Text.inRange, Bool.or_eq_true,
    Bool.and_eq_true, Bool.and_eq_false_iff, decide_eq_true_eq, decide_eq_false_iff_not,
    beq_iff_eq, hdash, Char.reduceToNat] at hchar ⊢
  omega

/-- What follows the word of a command is read as the arguments of the request. -/
theorem IsArguments.read {r : GatewayRequest} {arguments : List Char}
    (h : IsArguments r arguments)
    (htrim : ∀ instruction ∈ r.instruction, Trimmed instruction.val.toList) :
    ∃ rest, Trimmed rest ∧ readArguments r.metadata rest = .ok r.input ∧
      (arguments = [] ∧ rest = [] ∨ ∃ gap, IsGap gap ∧ rest ≠ [] ∧ arguments = gap ++ rest) := by
  have hcommand : r.metadata.command = r.command := rfl
  unfold IsArguments at h
  cases hr : r.command with
  | dev =>
    rw [hr] at h
    obtain ⟨project, hproject, instruction, hinstruction, gap, gap', hgap, hgap', rfl⟩ := h
    have hne := text_ne_nil project
    have hne' := text_ne_nil instruction
    have hblank := project.notBlank
    have hends := htrim instruction hinstruction
    refine ⟨_, (Trimmed.of_graphic hblank).append hne hends hne' gap', ?_,
      .inr ⟨gap, hgap, ?_, rfl⟩⟩
    · unfold readArguments
      rw [hcommand, hr]
      dsimp only
      rw [splitOnce_gap hne hblank hgap' hne' hends.1]
      simp only [GatewayRequest.metadata, GatewayRequest.input, hr, r.dev_taskId hr,
        Option.mem_def.1 hproject, Option.mem_def.1 hinstruction, Option.map_some, Option.map_none,
        String.ofList_toList]
    · exact List.append_ne_nil_of_left_ne_nil hne _
  | task | stop =>
    rw [hr] at h
    obtain ⟨taskId, htaskId, gap, id, hgap, hid, rfl⟩ := h
    have hpattern : upperIdPattern "TASK-" taskId.val.toList = true := by
      have h := taskId.ok
      simp only [StringConstraints.accepts, decide_eq_true_eq] at h
      exact h.2.2.2
    obtain ⟨hproject, hinstruction⟩ := r.task_others (by simp [hr])
    have hblank := notBlank_of_sameLetters hid fun c hc => graphic_of_isIdChar (taskId.chars c hc)
    refine ⟨id, Trimmed.of_graphic hblank, ?_, .inr ⟨gap, hgap, ?_, rfl⟩⟩
    · unfold readArguments
      rw [hcommand, hr]
      dsimp only
      rw [taskId.upper hid, if_pos hpattern]
      simp only [GatewayRequest.metadata, GatewayRequest.input, hr, hproject, hinstruction,
        Option.mem_def.1 htaskId, Option.map_some, Option.map_none, String.ofList_toList]
    · rintro rfl
      have hnil : taskId.val.toList = [] := (taskId.upper hid).symm
      rw [hnil] at hpattern
      cases hpattern
  | help | status | tasks =>
    rw [hr] at h
    obtain ⟨hproject, htaskId, hinstruction⟩ := r.no_arguments (by simp [hr])
    refine ⟨[], ⟨fun c hc => (by cases hc), fun c hc => (by cases hc)⟩, ?_, .inl ⟨h, rfl⟩⟩
    unfold readArguments
    rw [hcommand, hr]
    dsimp only
    rw [if_pos rfl]
    simp only [GatewayRequest.metadata, GatewayRequest.input, hr, hproject, htaskId, hinstruction,
      Option.map_none]

/-! ## The main result -/

theorem GatewayCommand.value_lower (command : GatewayCommand) :
    command.value.toList ≠ [] ∧ ∀ c ∈ command.value.toList, Text.isLower c = true := by
  have hall : command.value.toList.all Text.isLower = true := by cases command <;> decide
  exact ⟨by cases command <;> decide, List.all_eq_true.1 hall⟩

theorem graphic_of_isLower {c : Char} (h : Text.isLower c = true) :
    Text.inRange '!' '~' c = true := by
  simp only [Text.isLower, Text.inRange, Bool.and_eq_true, decide_eq_true_eq,
    Char.reduceToNat] at h ⊢
  omega

/-- The word of a command does not begin a mention. -/
theorem ne_lt_of_sameLetters {a b : List Char} (h : Text.SameLetters a b)
    (hb : ∀ c ∈ b, Text.isLower c = true) : ∀ c ∈ a, c ≠ '<' := by
  refine h.forall_mem (P := fun c => c ≠ '<') (fun c d heq hd hc => hd ?_) fun c hc hlt => ?_
  · have hnat := congrArg Char.toNat heq
    rw [hc, Text.toNat_toLower, Text.toNat_toLower] at hnat
    simp only [Text.isUpper, Text.inRange, Bool.and_eq_true, decide_eq_true_eq,
      Char.reduceToNat] at hnat
    refine Char.toNat_inj.1 ?_
    show d.toNat = 60
    split_ifs at hnat <;> omega
  · have hlower := hb c hc
    rw [hlt] at hlower
    cases hlower

/-- A request from Slack, written as a command in whatever way, is parsed as it is. -/
theorem slackCommand_parsed {other : Char → Char → Bool} {botUserId : Option String}
    {r : GatewayRequest} {replyTarget : ReplyTarget} (hsource : r.source.val = "slack")
    (hreply : r.replyTarget = some replyTarget)
    (htrim : ∀ instruction ∈ r.instruction, Trimmed instruction.val.toList)
    (t : CommandText other botUserId r) :
    parseSlackCommand other t.text r.sourceEventId.val r.actorId.val replyTarget.val botUserId =
      .ok r := by
  obtain ⟨rest, hrest, hread, harguments⟩ := t.isArguments.read htrim
  obtain ⟨hvalue, hlower⟩ := r.command.value_lower
  have hword : ∀ c ∈ t.word, isBlank c = false :=
    notBlank_of_sameLetters t.isWord fun c hc => graphic_of_isLower (hlower c hc)
  have hne : t.word ≠ [] := by
    intro hnil
    have hmap := t.isWord
    rw [hnil] at hmap
    exact hvalue (List.map_eq_nil_iff.1 hmap.symm)
  have hhead : ∀ c ∈ (t.word ++ t.arguments).head?, c ∈ t.word := by
    intro c hc
    rw [List.head?_append_of_ne_nil _ hne] at hc
    exact List.mem_of_mem_head? hc
  have hends : Trimmed (t.word ++ t.arguments) := by
    rcases harguments with ⟨hnil, -⟩ | ⟨gap, -, hrest', heq⟩
    · rw [hnil, List.append_nil]
      exact .of_graphic hword
    · rw [heq]
      exact (Trimmed.of_graphic hword).append hne hrest hrest' gap
  have hne' : t.word ++ t.arguments ≠ [] := List.append_ne_nil_of_left_ne_nil hne _
  have hcore : Trimmed (t.mention ++ (t.word ++ t.arguments)) := by
    rcases t.isMention with hnone | ⟨id, blanks, -, -, hmention⟩
    · rwa [hnone, List.nil_append]
    · have hfree : "<@".toList.all (fun c => !isBlank c) = true := by decide
      have hopen : Trimmed "<@".toList := .of_graphic fun c hc => by
        simpa using List.all_eq_true.1 hfree c hc
      rw [hmention, List.append_assoc]
      exact hopen.append (by decide) hends hne' _
  have hstrip : stripBlanks t.text.toList = t.mention ++ (t.word ++ t.arguments) := by
    rw [CommandText.text, String.toList_ofList]
    exact stripBlanks_around t.before_blank t.after_blank
      (List.append_ne_nil_of_right_ne_nil _ hne') hcore
  have hremoved : removeMention other botUserId (t.mention ++ (t.word ++ t.arguments)) =
      t.word ++ t.arguments := by
    rcases t.isMention with hnone | hmention
    · rw [hnone, List.nil_append]
      refine removeMention_none fun c hc => ?_
      exact ne_lt_of_sameLetters t.isWord hlower c (hhead c hc)
    · exact removeMention_mention hmention fun c hc => hword c (hhead c hc)
  have hsplit : splitOnce (t.word ++ t.arguments) =
      t.word :: (if rest = [] then [] else [rest]) := by
    rcases harguments with ⟨hnil, rfl⟩ | ⟨gap, hgap, hrest', heq⟩
    · rw [hnil, List.append_nil, splitOnce_word hne hword, if_pos rfl]
    · rw [heq, splitOnce_gap hne hword hgap hrest' hrest.1, if_neg hrest']
  have hcommand : Text.lower (String.ofList t.word) = r.command.value := by
    rw [Text.lower, String.toList_ofList, t.isWord.lower hlower, String.ofList_toList]
  have hremainder : (if rest = [] then [] else [rest]).head?.elim [] stripBlanks = rest := by
    split_ifs with hnil
    · exact hnil.symm
    · exact stripBlanks_of_trimmed hnil hrest
  have hmetadata : r.metadata = {
      source := "slack", sourceEventId := r.sourceEventId.val, actorId := r.actorId.val
      replyTarget := some replyTarget.val, command := r.command } := by
    simp only [GatewayRequest.metadata, GatewayRequest.input, hsource, hreply, Option.map_some]
  unfold parseSlackCommand
  rw [hstrip, hremoved]
  dsimp only
  rw [if_neg hne', hsplit]
  dsimp only
  rw [hcommand, GatewayCommand.ofValue?_value]
  dsimp only
  rw [hremainder, ← hmetadata, hread]
  dsimp only [bind, Except.bind]
  rw [r.modelValidate_input]

namespace Sample

theorem slack_accepted : StringConstraints.accepts ⟨1, 63, identifierPattern⟩ "slack" = true := by
  decide

def mentionRequest : GatewayRequest where
  source := ⟨"slack", slack_accepted⟩
  sourceEventId := ⟨"Ev46", by decide⟩
  actorId := ⟨"U7", by decide⟩
  replyTarget := some ⟨"C123", by decide⟩
  command := .dev
  project := some ⟨"store", by decide⟩
  instruction := some ⟨"Ask <@U2>,\n  then test.", by decide⟩
  arguments := rfl

def mentionCommand : CommandText (fun _ _ => false) (some "UBOT") mentionRequest where
  before := ['\t']
  mention := "<@ubot>  ".toList
  word := "Dev".toList
  arguments := "\tstore \n Ask <@U2>,\n  then test.".toList
  after := ['\n']
  before_blank := List.all_eq_true.1 (by decide)
  isMention := .inr ⟨"ubot".toList, [' ', ' '],
    .cons rfl (.cons rfl (.cons rfl (.cons rfl .nil))), List.all_eq_true.1 (by decide), rfl⟩
  isWord := by unfold Text.SameLetters; decide
  isArguments := ⟨_, rfl, _, rfl, ['\t'], [' ', '\n', ' '],
    ⟨by decide, List.all_eq_true.1 (by decide)⟩, ⟨by decide, List.all_eq_true.1 (by decide)⟩, rfl⟩
  after_blank := List.all_eq_true.1 (by decide)

end Sample

open Sample in
/-- The bot is mentioned in lower case, and the instruction has a mention and two lines. -/
theorem slackCommand_parsed_sample : parseSlackCommand (fun _ _ => false)
    "\t<@ubot>  Dev\tstore \n Ask <@U2>,\n  then test.\n" "Ev46" "U7" "C123" (some "UBOT") =
      .ok mentionRequest := by
  have htrim : ∀ instruction ∈ mentionRequest.instruction, Trimmed instruction.val.toList := by
    intro instruction h
    obtain rfl := Option.some.inj h
    refine ⟨fun c hc => ?_, fun c hc => ?_⟩
    · obtain rfl := Option.some.inj hc
      decide
    · obtain rfl := Option.some.inj hc
      decide
  have htext : mentionCommand.text = "\t<@ubot>  Dev\tstore \n Ask <@U2>,\n  then test.\n" := by
    decide
  have hreply : mentionRequest.replyTarget = some ⟨"C123", by decide⟩ := rfl
  rw [← htext]
  exact slackCommand_parsed rfl hreply htrim mentionCommand

end AIHub
