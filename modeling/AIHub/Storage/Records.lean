import AIHub.Storage.Steps

/-!
# What a write does to the other records

One inversion lemma for each operation on runs, artifacts, gateway requests, routes and delivery
receipts: what a successful call has found, and the store it leaves. All of them leave tasks and
events alone.
-/

namespace AIHub

namespace Store

variable {s s' : Store}

/-! ## Runs and artifacts -/

theorem getRunLocked_ok {runId : String} {run : RunRecord} :
    s.getRunLocked runId = .ok run ↔ ∃ row, s.runs.get? runId = some row ∧ row.runJson = run := by
  unfold getRunLocked
  cases s.runs.get? runId <;> simp

theorem createRun_ok {run created : RunRecord} (h : createRun run s = .ok (created, s')) :
    created = run ∧ (s.tasks.get? run.taskId.val).isSome ∧
      ∃ hfree : s.runs.get? (RunRow.ofRecord run).key = none,
        s' = { s with runs := s.runs.insert (RunRow.ofRecord run) hfree } := by
  simp only [createRun, bind_eq_ok, raiseIf_eq_ok, pure_eq_ok] at h
  obtain ⟨_, _, _, htask, runs, hinsert, h⟩ := h
  obtain ⟨hfree, rfl⟩ := insertRow_ok hinsert
  cases h
  exact ⟨rfl, by simpa [Option.isSome_iff_ne_none] using htask, hfree, rfl⟩

theorem startRun_ok {runId : String} {time : Timestamp} {run : RunRecord}
    (h : startRun runId time s = .ok (run, s')) :
    ∃ row, s.runs.get? runId = some row ∧ row.runJson.status = .queued ∧
      run.toRunFields = { row.runJson.toRunFields with
        status := .running, startedAt := some time } ∧ s' = s.writeRunLocked run := by
  simp only [startRun, bind_eq_ok, raiseIf_eq_ok, pure_eq_ok, not_not, getRunLocked_ok] at h
  obtain ⟨_, ⟨row, hrow, rfl⟩, _, hstatus, updated, hvalid, h⟩ := h
  cases h
  exact ⟨row, hrow, hstatus, RunRecord.modelValidate_eq_ok.1 hvalid, rfl⟩

theorem finishRun_ok {runId : String} {status : RunStatus} {time : Timestamp}
    {exitCode : Option Int} {errorCode : Option Identifier} {run : RunRecord}
    (h : finishRun runId status time exitCode errorCode s = .ok (run, s')) :
    status.isTerminal ∧ ∃ row, s.runs.get? runId = some row ∧
      row.runJson.status.isTerminal = false ∧
      run.toRunFields = { row.runJson.toRunFields with
        status := status
        startedAt := some (row.runJson.startedAt.getD row.runJson.createdAt)
        completedAt := some time
        exitCode := exitCode
        errorCode := errorCode } ∧ s' = s.writeRunLocked run := by
  simp only [finishRun, bind_eq_ok, raiseIf_eq_ok, pure_eq_ok, not_not, getRunLocked_ok] at h
  obtain ⟨_, hterminal, _, ⟨row, hrow, rfl⟩, _, hactive, updated, hvalid, h⟩ := h
  cases h
  refine ⟨hterminal, row, hrow, ?_, RunRecord.modelValidate_eq_ok.1 hvalid, rfl⟩
  cases hstatus : row.runJson.status <;> simp_all [RunStatus.isTerminal]

/-- A run that is open and has not been started after `time` can be finished as failed. -/
theorem finishRun_failed {row : RunRow} {runId : String} {time : Timestamp}
    (errorCode : Option Identifier) (hrow : s.runs.get? runId = some row)
    (hactive : row.runJson.status.isTerminal = false) (hcreated : row.runJson.createdAt ≤ time)
    (hstarted : ∀ t ∈ row.runJson.startedAt, t ≤ time) :
    ∃ r, finishRun runId .failed time none errorCode s = .ok r := by
  have hstart : row.runJson.createdAt ≤ row.runJson.startedAt.getD row.runJson.createdAt ∧
      row.runJson.startedAt.getD row.runJson.createdAt ≤ time :=
    row.runJson.started_between hcreated hstarted
  obtain ⟨run, hvalid, _⟩ := RunRecord.modelValidate_of_lifecycle (f := {
    row.runJson.toRunFields with
      status := .failed
      startedAt := some (row.runJson.startedAt.getD row.runJson.createdAt)
      completedAt := some time
      exitCode := none
      errorCode := errorCode }) (by
    simp [RunFields.validateLifecycle, RunFields.validateStatusTimes, Except.bind,
      Timestamp.not_lt.2 hstart.1, Timestamp.not_lt.2 hstart.2])
  refine ⟨(run, s.writeRunLocked run), ?_⟩
  have hstatus : ¬ (row.runJson.status ≠ .queued ∧ row.runJson.status ≠ .running) := by
    cases hst : row.runJson.status <;> simp_all [RunStatus.isTerminal]
  simp only [finishRun, bind_eq_ok, raiseIf_eq_ok, pure_eq_ok, getRunLocked_ok]
  exact ⟨(), by simp [RunStatus.isTerminal], row.runJson, ⟨row, hrow, rfl⟩, (), hstatus, run,
    hvalid, rfl⟩

theorem createArtifact_ok {artifact created : ArtifactMetadata}
    (h : createArtifact artifact s = .ok (created, s')) :
    ∃ hfree, s' = { s with artifacts := s.artifacts.insert artifact hfree } := by
  simp only [createArtifact, bind_eq_ok, raiseIf_eq_ok, pure_eq_ok] at h
  obtain ⟨_, _, _, _, _, _, artifacts, hinsert, h⟩ := h
  obtain ⟨hfree, rfl⟩ := insertRow_ok hinsert
  cases h
  exact ⟨hfree, rfl⟩

/-! ## Gateway requests -/

/-- The text of a key, as `GatewayRequestRecord` parses it. -/
def keyOf (text : String) : Option IdempotencyKey :=
  StringConstraints.parse ⟨1, 200, opaquePattern⟩ text

@[simp] theorem keyOf_val (key : IdempotencyKey) : keyOf key.val = some key := key.parse_val

theorem GatewayRequestRecord.validate_ok {key : String} {response : Option JsonObject}
    {time : Timestamp} {record : GatewayRequestRecord}
    (h : GatewayRequestRecord.validate key response time = .ok record) :
    keyOf key = some record.idempotencyKey ∧
      record.response = response ∧ record.createdAt = time := by
  unfold GatewayRequestRecord.validate at h
  split at h
  · cases h
  · rename_i k hk
    split at h
    · cases h
    · cases h
      exact ⟨hk, rfl, rfl⟩

theorem reserveGatewayRequest_ok {text : String} {time : Timestamp} {b : Bool}
    (h : reserveGatewayRequest text time s = .ok (b, s')) :
    ∃ key, keyOf text = some key ∧ ((b = false ∧ s' = s) ∨
      (b = true ∧ ∃ hfree : s.gatewayRequests.get? key.val = none,
        s' = { s with
          gatewayRequests := s.gatewayRequests.insert ⟨key.val, none, time⟩ hfree })) := by
  simp only [reserveGatewayRequest, bind_eq_ok] at h
  obtain ⟨record, hrecord, h⟩ := h
  obtain ⟨hkey, _, htime⟩ := GatewayRequestRecord.validate_ok hrecord
  refine ⟨record.idempotencyKey, hkey, ?_⟩
  split at h
  · cases h
    exact .inl ⟨rfl, rfl⟩
  · rename_i hfree
    cases h
    exact .inr ⟨rfl, hfree, by rw [← htime]⟩

theorem rememberGatewayResponse_ok {text : String} {response : JsonObject} {time : Timestamp}
    {record : GatewayRequestRecord}
    (h : rememberGatewayResponse text response time s = .ok (record, s')) :
    ∃ row, s.gatewayRequests.get? text = some row ∧ (∀ r ∈ row.responseJson, r = response) ∧
      s' = { s with
        gatewayRequests := s.gatewayRequests.update
          (fun r => r.idempotencyKey = text && r.responseJson.isNone)
          (fun r => { r with responseJson := some response }) fun _ => rfl } := by
  simp only [rememberGatewayResponse, bind_eq_ok] at h
  obtain ⟨_, _, h⟩ := h
  split at h
  · cases h
  · rename_i row hrow
    simp only [bind_eq_ok, raiseIf_eq_ok, pure_eq_ok, Bool.not_eq_true, any_eq_false_iff,
      decide_eq_false_iff_not, not_not] at h
    obtain ⟨_, hsame, _, _, h⟩ := h
    cases h
    exact ⟨row, hrow, hsame, rfl⟩

theorem releaseGatewayRequest_ok {text : String} {time : Timestamp} {b : Bool}
    (h : releaseGatewayRequest text time s = .ok (b, s')) :
    ∃ key, keyOf text = some key ∧ ((s.gatewayRequests.get? key.val = none ∧ s' = s) ∨
      ∃ row, s.gatewayRequests.get? key.val = some row ∧ row.responseJson = none ∧
        s' = { s with gatewayRequests :=
          s.gatewayRequests.delete fun r => r.idempotencyKey = key.val }) := by
  simp only [releaseGatewayRequest, bind_eq_ok] at h
  obtain ⟨record, hrecord, h⟩ := h
  obtain ⟨hkey, _⟩ := GatewayRequestRecord.validate_ok hrecord
  refine ⟨record.idempotencyKey, hkey, ?_⟩
  split at h
  · rename_i hrow
    cases h
    exact .inl ⟨hrow, rfl⟩
  · rename_i row hrow
    simp only [bind_eq_ok, raiseIf_eq_ok, pure_eq_ok, Bool.not_eq_true,
      Option.isSome_eq_false_iff, Option.isNone_iff_eq_none] at h
    obtain ⟨_, hnone, h⟩ := h
    cases h
    exact .inr ⟨row, hrow, hnone, rfl⟩

theorem getGatewayRequest_ok {text : String} {time : Timestamp}
    {record : Option GatewayRequestRecord} (h : s.getGatewayRequest text time = .ok record) :
    ∃ key, keyOf text = some key ∧ record.bind GatewayRequestRecord.response =
      (s.gatewayRequests.get? key.val).bind GatewayRow.responseJson := by
  simp only [getGatewayRequest, bind_eq_ok] at h
  obtain ⟨k, hk, h⟩ := h
  obtain ⟨hkey, _⟩ := GatewayRequestRecord.validate_ok hk
  refine ⟨k.idempotencyKey, hkey, ?_⟩
  split at h
  · rename_i hrow
    cases h
    simp [hrow]
  · rename_i row hrow
    split at h
    · rename_i r hr
      cases h
      simp [hrow, (GatewayRequestRecord.validate_ok hr).2.1]
    · cases h

/-! ## Routes and delivery receipts -/

theorem saveTaskRoute_ok {route saved : TaskRoute}
    (h : saveTaskRoute route s = .ok (saved, s')) :
    s' = s ∨ ∃ hfree, s' = { s with taskRoutes := s.taskRoutes.insert route hfree } := by
  simp only [saveTaskRoute, bind_eq_ok] at h
  obtain ⟨_, _, h⟩ := h
  split at h
  · simp only [bind_eq_ok, pure_eq_ok] at h
    obtain ⟨_, _, h⟩ := h
    cases h
    exact .inl rfl
  · rename_i hfree
    cases h
    exact .inr ⟨hfree, rfl⟩

/-- Nothing refuses the first route of a task. -/
theorem saveTaskRoute_commits {route : TaskRoute}
    (htask : (s.tasks.get? route.taskId.val).isSome = true)
    (hfree : s.taskRoutes.get? route.key = none) :
    saveTaskRoute route s =
      .ok (route, { s with taskRoutes := s.taskRoutes.insert route hfree }) := by
  have hknown : ¬ (s.tasks.get? route.taskId.val).isNone = true := by
    simpa [Option.isSome_iff_ne_none] using htask
  simp only [saveTaskRoute, raiseIf, if_neg hknown, bind, Except.bind, pure, Except.pure]
  split
  · rename_i row hrow
    cases hfree.symm.trans hrow
  · rfl

theorem reserveDelivery_ok {text : String} {time : Timestamp} {b : Bool}
    (h : reserveDelivery text time s = .ok (b, s')) :
    ∃ id, RouteValue.validate "delivery_id" text = .ok id ∧
      ((b = false ∧ s' = s ∧ (s.deliveryReceipts.get? id.val).isSome) ∨
        (b = true ∧ ∃ hfree : s.deliveryReceipts.get? id.val = none,
          s' = { s with deliveryReceipts :=
            s.deliveryReceipts.insert ⟨id.val, .reserved, time, none⟩ hfree })) := by
  simp only [reserveDelivery, bind_eq_ok] at h
  obtain ⟨id, hid, h⟩ := h
  refine ⟨id, hid, ?_⟩
  split at h
  · rename_i row hrow
    cases h
    exact .inl ⟨rfl, rfl, by simp [hrow]⟩
  · rename_i hfree
    cases h
    exact .inr ⟨rfl, hfree, rfl⟩

theorem isDeliveryDelivered_ok {text : String} {b : Bool}
    (h : s.isDeliveryDelivered text = .ok b) :
    ∃ id, RouteValue.validate "delivery_id" text = .ok id ∧
      b = (s.deliveryReceipts.get? id.val).any fun r => r.state = .delivered := by
  simp only [isDeliveryDelivered, getDeliveryReceipt, bind_eq_ok, pure_eq_ok] at h
  obtain ⟨receipt, ⟨id, hid, hreceipt⟩, h⟩ := h
  exact ⟨id, hid, by rw [← h, ← hreceipt]⟩

theorem markDeliveryDelivered_ok {text : String} {time : Timestamp} {receipt : DeliveryReceipt}
    (h : markDeliveryDelivered text time s = .ok (receipt, s')) :
    ∃ id row, RouteValue.validate "delivery_id" text = .ok id ∧
      s.deliveryReceipts.get? id.val = some row ∧ ((row.state = .delivered ∧ s' = s) ∨
        (row.state = .reserved ∧ s' = { s with
          deliveryReceipts := s.deliveryReceipts.update (fun r => r.deliveryId = id.val)
            (fun r => { r with state := .delivered, deliveredAt := some time })
            fun _ => rfl })) := by
  simp only [markDeliveryDelivered, bind_eq_ok] at h
  obtain ⟨id, hid, h⟩ := h
  split at h
  · cases h
  · rename_i row hrow
    refine ⟨id, row, hid, hrow, ?_⟩
    split_ifs at h with hstate
    all_goals
      simp only [bind_eq_ok, pure_eq_ok] at h
      obtain ⟨_, _, h⟩ := h
      cases h
    · exact .inl ⟨hstate, rfl⟩
    · refine .inr ⟨?_, rfl⟩
      cases hs : row.state with
      | reserved => rfl
      | delivered => exact absurd hs hstate

theorem releaseDelivery_ok {text : String} {b : Bool}
    (h : releaseDelivery text s = .ok (b, s')) :
    ∃ id, RouteValue.validate "delivery_id" text = .ok id ∧
      ((s.deliveryReceipts.get? id.val = none ∧ s' = s) ∨
        ∃ row, s.deliveryReceipts.get? id.val = some row ∧ row.state = .reserved ∧
          s' = { s with deliveryReceipts :=
            s.deliveryReceipts.delete fun r => r.deliveryId = id.val }) := by
  simp only [releaseDelivery, bind_eq_ok] at h
  obtain ⟨id, hid, h⟩ := h
  refine ⟨id, hid, ?_⟩
  split at h
  · rename_i hrow
    cases h
    exact .inl ⟨hrow, rfl⟩
  · rename_i row hrow
    simp only [bind_eq_ok, raiseIf_eq_ok, pure_eq_ok] at h
    obtain ⟨_, hstate, h⟩ := h
    cases h
    refine .inr ⟨row, hrow, ?_, rfl⟩
    cases hs : row.state with
    | reserved => rfl
    | delivered => exact absurd hs hstate

end Store

end AIHub
