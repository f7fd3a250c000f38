import AIHub.Gateway.Security
import AIHub.Slack.Updates

/-!
# Texts of updates

Whatever the payload of an event holds, the update on its task is valid, and so is the request that
carries the text of the update. A value from the payload becomes one line: its control characters
become spaces, it is stripped, redacted and cut to the length of the field. What the redaction puts
in has no control characters and is never blank.

Main result: `updateTexts_accepted`.
-/

namespace AIHub

/-- The redaction of the gateway. -/
def gatewayRedaction (alnum : Char → Bool) : Redaction :=
  fun maxLength text => redactSensitiveText alnum text maxLength

/-! ## Lines -/

section

variable {C : StringConstraints} {name : String}

theorem validateOptional_ok {o : Option String}
    (h : ∀ s ∈ o, ∃ v, validateField C name s = .ok v) :
    ∃ v, validateOptional C name o = .ok v := by
  cases o with
  | none => exact ⟨none, rfl⟩
  | some s =>
    obtain ⟨v, hv⟩ := h s rfl
    exact ⟨some v, by rw [validateOptional, hv]; rfl⟩

theorem validateFields_ok {ss : List String}
    (h : ∀ s ∈ ss, ∃ v, validateField C name s = .ok v) :
    ∃ vs, validateFields C name ss = .ok vs ∧ vs.length = ss.length := by
  induction ss with
  | nil => exact ⟨[], rfl, rfl⟩
  | cons s ss ih =>
    obtain ⟨hs, hss⟩ := List.forall_mem_cons.1 h
    obtain ⟨v, hv⟩ := hs
    obtain ⟨vs, hvs, hlength⟩ := ih hss
    refine ⟨v :: vs, ?_, congrArg (· + 1) hlength⟩
    rw [validateFields, hv, hvs]
    rfl

end

/-- A text for a line: not blank, and without control characters. -/
def LineText (cs : List Char) : Prop :=
  (∃ c ∈ cs, Text.isSpace c = false) ∧ ∀ c ∈ cs, isControl c = false

theorem LineText.validateField {s : String} (h : LineText s.toList) (name : String)
    {maxLength : Nat} (hlength : s.length ≤ maxLength) :
    ∃ v, validateField ⟨1, maxLength, opaqueIdPattern⟩ name s = .ok v := by
  refine validateField_ok name (le_refl 1) (fun cs hne hcs => ?_) h.1 hlength
  simp only [opaqueIdPattern, Bool.and_eq_true, decide_eq_true_eq, List.all_eq_true]
  refine ⟨hne, fun c hc => ?_⟩
  have hcontrol := h.2 c (hcs c hc)
  simp only [isControl, Bool.or_eq_false_iff, decide_eq_false_iff_not] at hcontrol
  exact ⟨Nat.not_le.1 hcontrol.1, hcontrol.2⟩

theorem isControl_spaceControls (cs : List Char) : ∀ c ∈ spaceControls cs, isControl c = false := by
  induction cs with
  | nil => exact List.forall_mem_nil _
  | cons c cs ih =>
    rw [spaceControls]
    split_ifs with hcontrol
    · exact ih
    · exact List.forall_mem_cons.2 ⟨by decide, ih⟩
    · exact List.forall_mem_cons.2 ⟨Bool.eq_false_iff.2 hcontrol, ih⟩

section

variable (alnum : Char → Bool)

/-- Redaction keeps lines. -/
theorem LineText.redact {s : String} (h : LineText s.toList) (maxLength : Nat) :
    LineText (gatewayRedaction alnum maxLength s).toList :=
  ⟨exists_redactSensitiveText h.1, forall_redactSensitiveText
    (List.all_iff_forall_prop.1 (by decide)) (List.all_iff_forall_prop.1 (by decide)) h.2⟩

theorem length_gatewayRedaction (s : String) {maxLength : Nat} (h : 14 ≤ maxLength) :
    (gatewayRedaction alnum maxLength s).length ≤ maxLength := by
  unfold gatewayRedaction
  exact length_redactSensitiveText h

/-- Whatever a value is, the line that is made of it is accepted. -/
theorem safeOptionalLine_accepted (name : String) (value : Option JsonValue) :
    ∀ s ∈ safeOptionalLine (gatewayRedaction alnum) value,
      ∃ v, validateField ⟨1, 500, opaqueIdPattern⟩ name s = .ok v := by
  intro s hs
  unfold safeOptionalLine at hs
  split at hs
  · rename_i text
    dsimp only at hs
    split_ifs at hs with hblank
    · cases hs
    obtain rfl := Option.some.inj hs
    have htight := Text.Tight.of_strip hblank
    have hline : LineText (String.ofList (Text.strip (spaceControls text.toList))).toList := by
      rw [String.toList_ofList]
      obtain ⟨c, hc, hspace⟩ := htight.head
      exact ⟨⟨c, List.mem_of_head? hc, hspace⟩, fun c hc =>
        isControl_spaceControls _ c ((Text.strip_infix _).subset hc)⟩
    exact (hline.redact alnum 500).validateField name (length_gatewayRedaction alnum _ (by decide))
  · cases hs

theorem safeLines_accepted (name : String) (value : Option JsonValue) :
    (safeLines (gatewayRedaction alnum) value).length ≤ 20 ∧
      ∀ s ∈ safeLines (gatewayRedaction alnum) value,
        ∃ v, validateField ⟨1, 500, opaqueIdPattern⟩ name s = .ok v := by
  unfold safeLines
  split
  · refine ⟨List.length_take_le _ _, fun s hs => ?_⟩
    obtain ⟨item, _, hs⟩ := List.mem_filterMap.1 (List.mem_of_mem_take hs)
    exact safeOptionalLine_accepted alnum name (some item) s hs
  · exact ⟨Nat.zero_le _, List.forall_mem_nil _⟩

/-! ## Updates -/

theorem length_notificationId (task : Task) :
    s!"{task.taskId.val}:{task.status.value}".length ≤ 79 := by
  have hid := StringConstraints.length_val task.taskId
  have hstatus := task.status.length_value
  have hcolon : ":".length = 1 := by decide
  dsimp only [toString] at hid ⊢
  simp only [String.length_append]
  omega

/-- A graphic text is a line. -/
theorem LineText.of_graphic {s : String} (hne : s.toList ≠ [])
    (h : ∀ c ∈ s.toList, Text.inRange '!' '~' c = true) : LineText s.toList := by
  obtain ⟨c, hc, hspace⟩ := (Text.Tight.of_graphic hne h).head
  refine ⟨⟨c, List.mem_of_head? hc, hspace⟩, fun d hd => ?_⟩
  have hrange := h d hd
  simp only [Text.inRange, Bool.and_eq_true, decide_eq_true_eq, Char.reduceToNat] at hrange
  simp only [isControl, Bool.or_eq_false_iff, decide_eq_false_iff_not]
  omega

/-- Every task has an update, whatever has been stored on it. -/
theorem taskUpdate_ok (task : Task) (events : List StoredEvent) (runs : List RunRecord) :
    ∃ update, taskUpdate (gatewayRedaction alnum) task events runs = .ok update := by
  have hid : ∃ v, validateField ⟨1, 255, opaqueIdPattern⟩ "notification_id"
      s!"{task.taskId.val}:{task.status.value}" = .ok v := by
    have hgraphic := notificationId_graphic task.taskId task.status
    obtain ⟨c, hc, _⟩ := task.taskId.tight.head
    have hmem : c ∈ (task.taskId.val ++ ":" ++ task.status.value).toList := by
      simp [List.mem_of_head? hc]
    exact (LineText.of_graphic (List.ne_nil_of_mem hmem) hgraphic).validateField _
      ((length_notificationId task).trans (by decide))
  obtain ⟨notificationId, hid⟩ := hid
  have hline : ∀ name value, ∃ v, validateOptional ⟨1, 500, opaqueIdPattern⟩ name
      (safeOptionalLine (gatewayRedaction alnum) value) = .ok v := fun name value =>
    validateOptional_ok (safeOptionalLine_accepted alnum name value)
  obtain ⟨hcount, hlines⟩ := safeLines_accepted alnum "changed_files"
    ((matchingLifecyclePayload task events).get? "changed_files")
  obtain ⟨changedFiles, hchanged, hlength⟩ := validateFields_ok hlines
  obtain ⟨branch, hbranch⟩ := hline "branch" ((matchingLifecyclePayload task events).get? "branch")
  have houtcome : ∃ v, validateOptional ⟨1, 500, opaqueIdPattern⟩ "runtime_outcome"
      (runs.getLast?.bind fun run => safeOptionalLine (gatewayRedaction alnum)
        (some (.string s!"{run.runtime.val}: {run.status.value}"))) = .ok v := by
    cases runs.getLast? with
    | none => exact ⟨none, rfl⟩
    | some run =>
      rw [Option.bind_some]
      exact hline _ _
  obtain ⟨runtimeOutcome, houtcome⟩ := houtcome
  have herror : ∀ value, ∃ v, validateOptional ⟨1, 500, opaqueIdPattern⟩ "error"
      (if task.status ∈ [.blocked, .failed, .cancelled] then
        safeOptionalLine (gatewayRedaction alnum) value else none) = .ok v := by
    intro value
    split_ifs
    · exact hline _ _
    · exact ⟨none, rfl⟩
  obtain ⟨error, herror⟩ := herror ((((matchingLifecyclePayload task events).get? "reason").filter
    (· ≠ .null)).or (runs.getLast?.bind fun run => run.errorCode.map fun code => .string code.val))
  unfold taskUpdate
  dsimp only
  rw [hid, hchanged, houtcome, hbranch, herror]
  dsimp only [bind, Except.bind]
  rw [dif_pos (hlength.trans_le hcount)]
  exact ⟨_, rfl⟩

theorem mem_intercalate {separator line : String} {lines : List String} {c : Char}
    (hline : line ∈ lines) (hc : c ∈ line.toList) :
    c ∈ (separator.intercalate lines).toList := by
  induction lines with
  | nil => cases hline
  | cons first lines ih =>
    cases lines with
    | nil =>
      obtain rfl := List.mem_singleton.1 hline
      rwa [String.intercalate_singleton]
    | cons next lines =>
      rw [String.intercalate_cons_cons, String.toList_append, String.toList_append]
      rcases List.mem_cons.1 hline with rfl | hline
      · exact List.mem_append_left _ (List.mem_append_left _ hc)
      · exact List.mem_append_right _ (ih hline)

/-- The text of an update is not blank, and is cut to the length of a message. -/
theorem formatTaskUpdate_text (update : TaskLifecycleUpdate) :
    (∃ c ∈ (formatTaskUpdate (gatewayRedaction alnum) update).toList, Text.isSpace c = false) ∧
      (formatTaskUpdate (gatewayRedaction alnum) update).length ≤ 4000 := by
  obtain ⟨c, hc, hspace⟩ := update.taskId.tight.head
  have hfirst : c ∈ (s!"{update.taskId.val} {update.status.value}").toList := by
    dsimp only [toString]
    simp [List.mem_of_head? hc]
  refine ⟨exists_redactSensitiveText ⟨c, mem_intercalate ?_ hfirst, hspace⟩,
    length_gatewayRedaction alnum _ (by decide)⟩
  simp

/-- Whatever has been stored on a task, its update is valid, and its text is accepted for every
route. -/
theorem updateTexts_accepted (task : Task) (events : List StoredEvent) (runs : List RunRecord) :
    ∃ update, taskUpdate (gatewayRedaction alnum) task events runs = .ok update ∧
      formatTaskUpdate (gatewayRedaction alnum) update ≠ "" ∧
      (formatTaskUpdate (gatewayRedaction alnum) update).length ≤ 4000 ∧
      ∀ route, ∃ request, notifyRequest (gatewayRedaction alnum) route update = .ok request := by
  obtain ⟨update, hupdate⟩ := taskUpdate_ok alnum task events runs
  obtain ⟨htext, hlength⟩ := formatTaskUpdate_text alnum update
  refine ⟨update, hupdate, fun hempty => ?_, hlength, fun route => ?_⟩
  · obtain ⟨c, hc, _⟩ := htext
    rw [hempty] at hc
    cases hc
  · have hid : ∃ v, validateField ⟨1, 255, opaqueIdPattern⟩ "delivery_id"
        s!"task-update:{update.notificationId.val}" = .ok v := by
      have heq : s!"task-update:{update.notificationId.val}" = updateDeliveryId task := by
        rw [updateDeliveryId_eq, notificationId_of_taskUpdate hupdate]
        rfl
      have hnotification := length_notificationId task
      have hstart : "task-update:".length = 12 := by decide
      rw [heq]
      refine (LineText.of_graphic (fun hnil => ?_) (updateDeliveryId_graphic task)).validateField _
        ?_
      · rw [updateDeliveryId_eq, String.toList_append] at hnil
        exact absurd (List.append_eq_nil_iff.1 hnil).1 (by decide)
      · rw [updateDeliveryId_eq, String.length_append]
        dsimp only [toString] at hnotification
        omega
    obtain ⟨deliveryId, hid⟩ := hid
    obtain ⟨text, htext⟩ := validateField_ok (C := ⟨1, 20000, fun _ => true⟩) "text" (le_refl 1)
      (fun _ _ _ => rfl) htext (hlength.trans (by decide))
    unfold notifyRequest
    rw [hid, htext]
    exact ⟨_, rfl⟩

end

end AIHub
