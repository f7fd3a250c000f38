import AIHub.Lib.Cells
import AIHub.Storage.Records
import AIHub.Storage.Writes

/-!
# Gateway requests as a map

The table of gateway requests is for one map, from normalised keys to absent, reserved or completed
with a response. `Store.requests` reads the map off the table: a row without a response is a
reservation.

Every operation validates its key, which strips the white space around it, and looks the row up by
the key that it gets. `remember_gateway_response` alone goes on with the key as it was given. So a
response under another spelling of a key finds no row, and the call fails where the map's would
have completed the entry.

Main result: `requests_behave`, over every sequence of calls.
-/

namespace AIHub

open Reservation Store

/-! ## Calls -/

/-- A call of one of the five operations, with the time of the call. -/
inductive RequestCall where
  | get (idempotencyKey : String) (time : Timestamp)
  | reserve (idempotencyKey : String) (time : Timestamp)
  | remember (idempotencyKey : String) (response : JsonObject) (time : Timestamp)
  | release (idempotencyKey : String) (time : Timestamp)
  | reconcile

abbrev RequestReply := Reply IdempotencyKey JsonObject

/-- The entry that a row stands for. -/
def entry : Option GatewayRow → Cell JsonObject
  | none => .free
  | some row =>
    match row.responseJson with
    | none => .reserved
    | some response => .settled response

/-- The map that the table stands for. -/
def Store.requests (s : Store) : Cells IdempotencyKey JsonObject :=
  fun key => entry (s.gatewayRequests.get? key.val)

namespace RequestCall

/-- What the caller of `get_gateway_request` is told. -/
def found : Except HubError (Option GatewayRequestRecord) → RequestReply
  | .ok none => .cell .free
  | .ok (some record) =>
    match record.response with
    | none => .cell .reserved
    | some response => .cell (.settled response)
  | .error _ => .failed

/-- What the caller of an operation that returns whether it did something is told, and the store
after it. -/
def flagged (s : Store) : Except HubError (Bool × Store) → RequestReply × Store
  | .ok (true, s') => (.done, s')
  | .ok (false, s') => (.failed, s')
  | .error _ => (.failed, s)

/-- What the caller of `remember_gateway_response` is told, and the store after it. -/
def remembered (s : Store) : Except HubError (GatewayRequestRecord × Store) → RequestReply × Store
  | .ok (_, s') => (.done, s')
  | .error _ => (.failed, s)

/-- What the caller of `reconcile_incomplete_gateway_requests` is told, and the store after it. -/
def reconciled (s : Store) : Except HubError (List String × Store) → RequestReply × Store
  | .ok (keys, s') => (.released {key | key.val ∈ keys}, s')
  | .error _ => (.failed, s)

/-- What the caller is told, and the store after the call. -/
def run : RequestCall → Store → RequestReply × Store
  | get text time, s => (found (s.getGatewayRequest text time), s)
  | reserve text time, s => flagged s (Store.reserveGatewayRequest text time s)
  | remember text response time, s =>
    remembered s (Store.rememberGatewayResponse text response time s)
  | release text time, s => flagged s (Store.releaseGatewayRequest text time s)
  | reconcile, s => reconciled s s.reconcileIncompleteGatewayRequests

/-- What the call asks of the map, if its arguments are accepted. -/
def request : RequestCall → Option (Request IdempotencyKey JsonObject)
  | get text _ => (keyOf text).map .look
  | reserve text _ => (keyOf text).map .reserve
  | remember text response _ =>
    match findForbiddenKey response with
    | some _ => none
    | none => (keyOf text).map (.settle · response)
  | release text _ => (keyOf text).map .release
  | reconcile => some .releaseAll

end RequestCall

/-- Every row has a key in its normalised spelling, and no secret in its response. -/
def Store.RequestsValid (s : Store) : Prop :=
  ∀ row ∈ s.gatewayRequests, (∃ key : IdempotencyKey, row.idempotencyKey = key.val) ∧
    ∀ response ∈ row.responseJson, findForbiddenKey response = none

theorem Store.requestsValid_empty : Store.empty.RequestsValid :=
  fun _ h => absurd h (Table.not_mem_empty _)

/-! ## Single calls -/

namespace RequestCall

variable {s : Store} {key : IdempotencyKey} {text : String} {time : Timestamp}

/-- A table that differs at one key stands for a map that differs there. -/
theorem requests_eq_update {s' : Store} {c : Cell JsonObject}
    (hself : entry (s'.gatewayRequests.get? key.val) = c)
    (hother : ∀ key' : IdempotencyKey, key' ≠ key →
      s'.gatewayRequests.get? key'.val = s.gatewayRequests.get? key'.val) :
    s'.requests = Function.update s.requests key c := by
  funext key'
  by_cases hkey : key' = key
  · subst hkey
    rw [Function.update_self, ← hself]
    rfl
  · rw [Function.update_of_ne hkey, Store.requests, hother key' hkey]
    rfl

/-- A call whose arguments are refused fails, like the map. -/
theorem refused_answers {call : RequestCall} (hrequest : call.request = none)
    (hrun : call.run s = (.failed, s)) : Answers run Store.requests request call s := by
  unfold Answers answer
  rw [hrequest, hrun]
  exact ⟨rfl, rfl⟩

/-- A call whose arguments are accepted does what its request does to the map. -/
theorem accepted_answers {call : RequestCall} {r : Request IdempotencyKey JsonObject}
    {reply : RequestReply} {s' : Store} (hrequest : call.request = some r)
    (hrun : call.run s = (reply, s')) (hr : r.apply s.requests = (reply, s'.requests)) :
    Answers run Store.requests request call s := by
  unfold Answers answer
  rw [hrequest, hrun]
  exact ⟨congrArg Prod.fst hr.symm, congrArg Prod.snd hr.symm⟩

theorem validate_eq_ok (response : Option JsonObject) (time : Timestamp)
    (hkey : keyOf text = some key) (hresponse : response.bind findForbiddenKey = none) :
    GatewayRequestRecord.validate text response time = .ok ⟨key, response, time⟩ := by
  unfold keyOf at hkey
  simp only [GatewayRequestRecord.validate, hkey, hresponse]

theorem validate_eq_error (response : Option JsonObject) (time : Timestamp)
    (hkey : keyOf text = none) :
    ∃ e, GatewayRequestRecord.validate text response time = .error e := by
  unfold keyOf at hkey
  simp [GatewayRequestRecord.validate, hkey]

theorem get_answers (text : String) (time : Timestamp) (hs : s.RequestsValid) :
    Answers run Store.requests request (get text time) s := by
  cases hkey : keyOf text with
  | none =>
    obtain ⟨e, he⟩ := validate_eq_error none time hkey
    refine refused_answers (by simp [request, hkey]) ?_
    simp only [run, Store.getGatewayRequest, he]
    rfl
  | some key =>
    have hvalid := validate_eq_ok none time hkey rfl
    have hcell : s.requests key = entry (s.gatewayRequests.get? key.val) := rfl
    have hrequest : (get text time).request = some (.look key) := by simp [request, hkey]
    cases hrow : s.gatewayRequests.get? key.val with
    | none =>
      have hget : s.getGatewayRequest text time = .ok none := by
        simp only [Store.getGatewayRequest, hvalid, bind, Except.bind, hrow]
        rfl
      rw [hrow] at hcell
      have hrun : run (get text time) s = (.cell .free, s) := by simp only [run, hget, found]
      exact accepted_answers hrequest hrun (by rw [Request.apply, hcell]; rfl)
    | some row =>
      obtain ⟨hmem, hk⟩ := Table.get?_eq_some.1 hrow
      have hrecord := validate_eq_ok row.responseJson row.createdAt (hk ▸ keyOf_val key) <| by
        cases hresponse : row.responseJson with
        | none => rfl
        | some response => exact (hs row hmem).2 response hresponse
      have hget : s.getGatewayRequest text time =
          .ok (some ⟨key, row.responseJson, row.createdAt⟩) := by
        simp only [Store.getGatewayRequest, hvalid, bind, Except.bind, hrow, hrecord]
        rfl
      rw [hrow, entry] at hcell
      cases hresponse : row.responseJson with
      | none =>
        simp only [hresponse] at hcell hget
        have hrun : run (get text time) s = (.cell .reserved, s) := by simp only [run, hget, found]
        exact accepted_answers hrequest hrun (by rw [Request.apply, hcell])
      | some response =>
        simp only [hresponse] at hcell hget
        have hrun : run (get text time) s = (.cell (.settled response), s) := by
          simp only [run, hget, found]
        exact accepted_answers hrequest hrun (by rw [Request.apply, hcell])

theorem reserve_answers (text : String) (time : Timestamp) (s : Store) :
    Answers run Store.requests request (reserve text time) s := by
  cases hkey : keyOf text with
  | none =>
    obtain ⟨e, he⟩ := validate_eq_error none time hkey
    refine refused_answers (by simp [request, hkey]) ?_
    simp only [run, Store.reserveGatewayRequest, he]
    rfl
  | some key =>
    have hvalid := validate_eq_ok none time hkey rfl
    have hcell : s.requests key = entry (s.gatewayRequests.get? key.val) := rfl
    have hrequest : (reserve text time).request = some (.reserve key) := by simp [request, hkey]
    cases hrow : s.gatewayRequests.get? key.val with
    | some row =>
      have hreserve : Store.reserveGatewayRequest text time s = .ok (false, s) := by
        simp only [Store.reserveGatewayRequest, hvalid, bind, Except.bind]
        split
        · rfl
        · rename_i hnone
          cases hrow.symm.trans hnone
      have hrun : run (reserve text time) s = (.failed, s) := by simp only [run, hreserve, flagged]
      rw [hrow, entry] at hcell
      refine accepted_answers hrequest hrun ?_
      cases hresponse : row.responseJson <;> simp only [hresponse] at hcell <;>
        simp only [Request.apply, hcell]
    | none =>
      let s' := { s with gatewayRequests := s.gatewayRequests.insert ⟨key.val, none, time⟩ hrow }
      have hreserve : Store.reserveGatewayRequest text time s = .ok (true, s') := by
        simp only [Store.reserveGatewayRequest, hvalid, bind, Except.bind]
        split
        · rename_i row hsome
          cases hrow.symm.trans hsome
        · rfl
      have hrun : run (reserve text time) s = (.done, s') := by simp only [run, hreserve, flagged]
      rw [hrow, entry] at hcell
      refine accepted_answers hrequest hrun ?_
      simp only [Request.apply, hcell]
      refine congrArg (Prod.mk _) (requests_eq_update ?_ ?_).symm
      · rw [Table.get?_insert_self]
        rfl
      · intro key' hne
        rw [Table.get?_insert, if_neg fun h => hne (Constrained.ext h).symm]

theorem release_answers (text : String) (time : Timestamp) (s : Store) :
    Answers run Store.requests request (release text time) s := by
  cases hkey : keyOf text with
  | none =>
    obtain ⟨e, he⟩ := validate_eq_error none time hkey
    refine refused_answers (by simp [request, hkey]) ?_
    simp only [run, Store.releaseGatewayRequest, he]
    rfl
  | some key =>
    have hvalid := validate_eq_ok none time hkey rfl
    have hcell : s.requests key = entry (s.gatewayRequests.get? key.val) := rfl
    have hrequest : (release text time).request = some (.release key) := by simp [request, hkey]
    cases hrow : s.gatewayRequests.get? key.val with
    | none =>
      have hrelease : Store.releaseGatewayRequest text time s = .ok (false, s) := by
        simp only [Store.releaseGatewayRequest, hvalid, bind, Except.bind, hrow]
        rfl
      have hrun : run (release text time) s = (.failed, s) := by simp only [run, hrelease, flagged]
      rw [hrow, entry] at hcell
      exact accepted_answers hrequest hrun (by simp only [Request.apply, hcell])
    | some row =>
      rw [hrow, entry] at hcell
      cases hresponse : row.responseJson with
      | some response =>
        have hrelease : Store.releaseGatewayRequest text time s = .error
            (.dataIntegrity "cannot release a gateway request with a durable response") := by
          simp only [Store.releaseGatewayRequest, hvalid, bind, Except.bind, hrow, hresponse]
          rfl
        have hrun : run (release text time) s = (.failed, s) := by
          simp only [run, hrelease, flagged]
        simp only [hresponse] at hcell
        exact accepted_answers hrequest hrun (by simp only [Request.apply, hcell])
      | none =>
        let s' := { s with
          gatewayRequests := s.gatewayRequests.delete fun r => r.idempotencyKey = key.val }
        have hrelease : Store.releaseGatewayRequest text time s = .ok (true, s') := by
          simp only [Store.releaseGatewayRequest, hvalid, bind, Except.bind, hrow, hresponse]
          rfl
        have hrun : run (release text time) s = (.done, s') := by simp only [run, hrelease, flagged]
        simp only [hresponse] at hcell
        refine accepted_answers hrequest hrun ?_
        simp only [Request.apply, hcell]
        refine congrArg (Prod.mk _) (requests_eq_update ?_ ?_).symm
        · have hk : row.idempotencyKey = key.val := Table.key_of_get? hrow
          show entry ((s.gatewayRequests.delete _).get? key.val) = .free
          rw [Table.get?_delete, hrow, Option.filter_some]
          simp [hk, entry]
        · intro key' hne
          rw [Table.get?_delete]
          cases hrow' : s.gatewayRequests.get? key'.val with
          | none => rfl
          | some row' =>
            have hk : row'.idempotencyKey = key'.val := Table.key_of_get? hrow'
            have hne' : ¬ key'.val = key.val := fun h => hne (Constrained.ext h)
            simp [hk, hne']

/-- A row takes its first response. -/
theorem remember_rows {response : JsonObject} {row : GatewayRow} (time : Timestamp)
    (hresponse : findForbiddenKey response = none)
    (hrow : s.gatewayRequests.get? key.val = some row)
    (hsame : row.responseJson.any (· ≠ response) = false) :
    ∃ record s', Store.rememberGatewayResponse key.val response time s = .ok (record, s') ∧
      ∀ k, s'.gatewayRequests.get? k = (s.gatewayRequests.get? k).map fun r =>
        if r.idempotencyKey = key.val && r.responseJson.isNone then
          { r with responseJson := some response }
        else r := by
  have hvalid := validate_eq_ok (some response) time (keyOf_val key) hresponse
  have hrecord := validate_eq_ok (some response) row.createdAt (keyOf_val key) hresponse
  let rows := s.gatewayRequests.update
    (fun r => r.idempotencyKey = key.val && r.responseJson.isNone)
    (fun r => { r with responseJson := some response }) fun _ => rfl
  refine ⟨⟨key, some response, row.createdAt⟩, { s with gatewayRequests := rows }, ?_, ?_⟩
  · simp only [Store.rememberGatewayResponse, hvalid, bind, Except.bind, hrow, hsame, raiseIf,
      Bool.false_eq_true, if_false, hrecord]
    rfl
  · intro k
    exact Table.get?_update s.gatewayRequests _
      (fun r => { r with responseJson := some response }) (fun _ => rfl) k

/-- Under the normalised spelling of its key, a response is remembered as by the map. -/
theorem remember_answers {response : JsonObject} (key : IdempotencyKey) (time : Timestamp)
    (hresponse : findForbiddenKey response = none) :
    Answers run Store.requests request (remember key.val response time) s := by
  have hvalid := validate_eq_ok (some response) time (keyOf_val key) hresponse
  have hcell : s.requests key = entry (s.gatewayRequests.get? key.val) := rfl
  have hrequest : (remember key.val response time).request = some (.settle key response) := by
    simp [request, hresponse]
  cases hrow : s.gatewayRequests.get? key.val with
  | none =>
    have hremember : Store.rememberGatewayResponse key.val response time s = .error
        (.recordNotFound s!"gateway request reservation not found: {key.val}") := by
      simp only [Store.rememberGatewayResponse, hvalid, bind, Except.bind, hrow]
      rfl
    have hrun : run (remember key.val response time) s = (.failed, s) := by
      simp only [run, hremember, remembered]
    rw [hrow, entry] at hcell
    exact accepted_answers hrequest hrun (by simp only [Request.apply, hcell])
  | some row =>
    have hk : row.idempotencyKey = key.val := Table.key_of_get? hrow
    have hother : ∀ {s' : Store}, (∀ k, s'.gatewayRequests.get? k =
          (s.gatewayRequests.get? k).map fun r =>
            if r.idempotencyKey = key.val && r.responseJson.isNone then
              { r with responseJson := some response }
            else r) → ∀ key' : IdempotencyKey, key' ≠ key →
        s'.gatewayRequests.get? key'.val = s.gatewayRequests.get? key'.val := by
      intro s' hs' key' hne
      rw [hs']
      cases hrow' : s.gatewayRequests.get? key'.val with
      | none => rfl
      | some row' =>
        have hk' : row'.idempotencyKey = key'.val := Table.key_of_get? hrow'
        have hne' : ¬ key'.val = key.val := fun h => hne (Constrained.ext h)
        simp [hk', hne']
    rw [hrow, entry] at hcell
    cases hstored : row.responseJson with
    | none =>
      simp only [hstored] at hcell
      obtain ⟨record, s', hremember, hs'⟩ :=
        remember_rows time hresponse hrow (by rw [hstored]; rfl)
      have hrun : run (remember key.val response time) s = (.done, s') := by
        simp only [run, hremember, remembered]
      refine accepted_answers hrequest hrun ?_
      simp only [Request.apply, hcell]
      refine congrArg (Prod.mk _) (requests_eq_update ?_ (hother hs')).symm
      rw [hs', hrow]
      simp [hk, hstored, entry]
    | some response' =>
      simp only [hstored] at hcell
      by_cases hsame : response' = response
      · obtain ⟨record, s', hremember, hs'⟩ :=
          remember_rows time hresponse hrow (by simp [hstored, hsame])
        have hrun : run (remember key.val response time) s = (.done, s') := by
          simp only [run, hremember, remembered]
        refine accepted_answers hrequest hrun ?_
        simp only [Request.apply, hcell, if_pos hsame]
        refine congrArg (Prod.mk _) ?_
        rw [requests_eq_update (c := s.requests key) ?_ (hother hs'), Function.update_eq_self]
        rw [hs', hcell, hrow]
        simp [hstored, entry]
      · have hconflict : Store.rememberGatewayResponse key.val response time s = .error
            (.idempotencyConflict
              s!"gateway request response already differs: {key.val}") := by
          simp [Store.rememberGatewayResponse, hvalid, bind, Except.bind, hrow, hstored, hsame,
            raiseIf]
        have hrun : run (remember key.val response time) s = (.failed, s) := by
          simp only [run, hconflict, remembered]
        refine accepted_answers hrequest hrun ?_
        simp only [Request.apply, hcell, if_neg hsame]

theorem remember_refused {response : JsonObject} (time : Timestamp)
    (h : (remember text response time).request = none) :
    run (remember text response time) s = (.failed, s) := by
  obtain ⟨e, he⟩ : ∃ e, GatewayRequestRecord.validate text (some response) time = .error e := by
    cases hkey : keyOf text with
    | none => exact validate_eq_error _ _ hkey
    | some key =>
      unfold keyOf at hkey
      cases hresponse : findForbiddenKey response with
      | none => simp [request, hresponse, keyOf, hkey] at h
      | some path => simp [GatewayRequestRecord.validate, hkey, hresponse]
  simp only [run, Store.rememberGatewayResponse, he]
  rfl

/-- A response that is remembered holds no secret. -/
theorem remembered_response {response : JsonObject} {record : GatewayRequestRecord} {s' : Store}
    (h : Store.rememberGatewayResponse text response time s = .ok (record, s')) :
    findForbiddenKey response = none := by
  cases hresponse : findForbiddenKey response with
  | none => rfl
  | some path =>
    have hrefused : (remember text response time).request = none := by simp [request, hresponse]
    have hrun := remember_refused (s := s) time hrefused
    simp only [run, h, remembered] at hrun
    cases congrArg Prod.fst hrun

theorem reserved_valid {b : Bool} {s' : Store} (hs : s.RequestsValid)
    (h : Store.reserveGatewayRequest text time s = .ok (b, s')) : s'.RequestsValid := by
  obtain ⟨key, _, ⟨_, hs'⟩ | ⟨_, hfree, hs'⟩⟩ := reserveGatewayRequest_ok h
  · rw [hs']
    exact hs
  · intro row hrow
    rw [hs'] at hrow
    dsimp only at hrow
    rcases Table.mem_insert.1 hrow with hrow | rfl
    · exact hs row hrow
    · exact ⟨⟨key, rfl⟩, fun _ h => by cases h⟩

theorem remembered_valid {response : JsonObject} {record : GatewayRequestRecord} {s' : Store}
    (hs : s.RequestsValid)
    (h : Store.rememberGatewayResponse text response time s = .ok (record, s')) :
    s'.RequestsValid := by
  have hresponse := remembered_response h
  obtain ⟨_, _, _, hs'⟩ := rememberGatewayResponse_ok h
  intro row hrow
  rw [hs'] at hrow
  dsimp only at hrow
  obtain ⟨row₀, hrow₀, rfl⟩ := Table.mem_update.1 hrow
  split_ifs
  · refine ⟨(hs row₀ hrow₀).1, fun r hr => ?_⟩
    cases hr
    exact hresponse
  · exact hs row₀ hrow₀

theorem released_valid {b : Bool} {s' : Store} (hs : s.RequestsValid)
    (h : Store.releaseGatewayRequest text time s = .ok (b, s')) : s'.RequestsValid := by
  obtain ⟨key, _, ⟨_, hs'⟩ | ⟨_, _, _, hs'⟩⟩ := releaseGatewayRequest_ok h
  · rw [hs']
    exact hs
  · intro row hrow
    rw [hs'] at hrow
    exact hs row (Table.mem_delete.1 hrow).1

/-- Every call keeps the rows valid. -/
theorem valid_run (call : RequestCall) (hs : s.RequestsValid) : (call.run s).2.RequestsValid := by
  cases call with
  | get text time => exact hs
  | reserve text time =>
    rcases h : Store.reserveGatewayRequest text time s with e | ⟨_ | _, s'⟩
    · simpa only [run, h, flagged] using hs
    · simpa only [run, h, flagged] using reserved_valid hs h
    · simpa only [run, h, flagged] using reserved_valid hs h
  | remember text response time =>
    rcases h : Store.rememberGatewayResponse text response time s with e | ⟨_, s'⟩
    · simpa only [run, h, remembered] using hs
    · simpa only [run, h, remembered] using remembered_valid hs h
  | release text time =>
    rcases h : Store.releaseGatewayRequest text time s with e | ⟨_ | _, s'⟩
    · simpa only [run, h, flagged] using hs
    · simpa only [run, h, flagged] using released_valid hs h
    · simpa only [run, h, flagged] using released_valid hs h
  | reconcile => exact fun row hrow => hs row (Table.mem_delete.1 hrow).1

end RequestCall

open RequestCall

/-- What the operations on gateway requests do to the store, as calls. -/
def WriteOp.requestCall : WriteOp → Option RequestCall
  | reserveGatewayRequest key time => some (.reserve key time)
  | rememberGatewayResponse key response time => some (.remember key response time)
  | releaseGatewayRequest key time => some (.release key time)
  | reconcileIncompleteGatewayRequests => some .reconcile
  | _ => none

theorem WriteOp.after_requestCall {op : WriteOp} {call : RequestCall}
    (h : op.requestCall = some call) (s : Store) : op.after s = (call.run s).2 := by
  cases op with
  | reserveGatewayRequest key time =>
    cases h
    simp only [after, exec, run]
    rcases Store.reserveGatewayRequest key time s with e | ⟨_ | _, s'⟩ <;> rfl
  | rememberGatewayResponse key response time =>
    cases h
    simp only [after, exec, run]
    rcases Store.rememberGatewayResponse key response time s with e | ⟨_, s'⟩ <;> rfl
  | releaseGatewayRequest key time =>
    cases h
    simp only [after, exec, run]
    rcases Store.releaseGatewayRequest key time s with e | ⟨_ | _, s'⟩ <;> rfl
  | reconcileIncompleteGatewayRequests =>
    cases h
    rfl
  | _ => cases h

/-- The other writes leave the table as it is. -/
theorem WriteOp.after_gatewayRequests {op : WriteOp} (hcall : op.requestCall = none) (s : Store) :
    (op.after s).gatewayRequests = s.gatewayRequests := by
  rcases WriteOp.after_eq (rfl : op.after s = op.after s) with hexec | hsame
  · cases op with
    | reserveGatewayRequest | rememberGatewayResponse | releaseGatewayRequest
    | reconcileIncompleteGatewayRequests => cases hcall
    | createArtifact artifact =>
      rw [WriteOp.exec, map_eq_ok] at hexec
      obtain ⟨⟨_, _⟩, hcreate, hafter⟩ := hexec
      obtain ⟨_, hcreated⟩ := Store.createArtifact_ok hcreate
      rw [← hafter, hcreated]
    | _ => exact (WriteOp.exec_sameSide rfl hexec).gatewayRequests
  · rw [hsame]

/-- The document of the response that is stored for a key. -/
def Store.document (s : Store) (key : String) : Option JsonObject :=
  (s.gatewayRequests.get? key).bind GatewayRow.responseJson

/-- A document is there before, or is stored now. -/
theorem WriteOp.document_after {op : WriteOp} {s : Store} {key : String} {document : JsonObject}
    (h : (op.after s).document key = some document) :
    s.document key = some document ∨ ∃ time, op = rememberGatewayResponse key document time := by
  have hdelete : ∀ p : GatewayRow → Bool,
      ((s.gatewayRequests.delete p).get? key).bind GatewayRow.responseJson = some document →
        s.document key = some document := by
    intro p h
    obtain ⟨row, hrow, hdocument⟩ := Option.bind_eq_some_iff.1 h
    rw [Table.get?_delete, Option.filter_eq_some_iff] at hrow
    exact Option.bind_eq_some_iff.2 ⟨row, hrow.1, hdocument⟩
  rcases WriteOp.after_eq (rfl : op.after s = op.after s) with hexec | hsame
  swap
  · exact .inl (hsame ▸ h)
  generalize op.after s = s' at h hexec
  cases op with
  | reserveGatewayRequest text time =>
    rw [exec, map_eq_ok] at hexec
    obtain ⟨⟨_, _⟩, hcall, rfl⟩ := hexec
    obtain ⟨k, _, ⟨_, rfl⟩ | ⟨_, hfree, rfl⟩⟩ := Store.reserveGatewayRequest_ok hcall
    · exact .inl h
    · obtain ⟨row, hrow, hdocument⟩ := Option.bind_eq_some_iff.1 h
      rw [Table.get?_insert] at hrow
      split_ifs at hrow
      · cases hrow
        cases hdocument
      · exact .inl (Option.bind_eq_some_iff.2 ⟨row, hrow, hdocument⟩)
  | rememberGatewayResponse text response time =>
    rw [exec, map_eq_ok] at hexec
    obtain ⟨⟨_, _⟩, hcall, rfl⟩ := hexec
    obtain ⟨_, _, _, rfl⟩ := Store.rememberGatewayResponse_ok hcall
    obtain ⟨row, hrow, hdocument⟩ := Option.bind_eq_some_iff.1 h
    rw [Table.get?_update, Option.map_eq_some_iff] at hrow
    obtain ⟨found, hfound, rfl⟩ := hrow
    split_ifs at hdocument with hmatch
    · cases hdocument
      rw [Table.key_of_get? hfound] at hmatch
      simp only [Bool.and_eq_true, decide_eq_true_eq] at hmatch
      obtain ⟨rfl, _⟩ := hmatch
      exact .inr ⟨time, rfl⟩
    · exact .inl (Option.bind_eq_some_iff.2 ⟨found, hfound, hdocument⟩)
  | releaseGatewayRequest text time =>
    rw [exec, map_eq_ok] at hexec
    obtain ⟨⟨_, _⟩, hcall, rfl⟩ := hexec
    obtain ⟨_, _, ⟨_, rfl⟩ | ⟨_, _, _, rfl⟩⟩ := Store.releaseGatewayRequest_ok hcall
    · exact .inl h
    · exact .inl (hdelete _ h)
  | reconcileIncompleteGatewayRequests =>
    cases hexec
    exact .inl (hdelete _ h)
  | createArtifact artifact =>
    rw [exec, map_eq_ok] at hexec
    obtain ⟨⟨_, _⟩, hcreate, rfl⟩ := hexec
    obtain ⟨_, rfl⟩ := Store.createArtifact_ok hcreate
    exact .inl h
  | _ =>
    have hsame := (WriteOp.exec_sameSide rfl hexec).gatewayRequests
    unfold Store.document at h ⊢
    rw [hsame] at h
    exact .inl h

/-- The rows of a store that can be reached are valid. -/
theorem requestsValid_reachable {s : Store} (h : writeSystem.Reachable s) : s.RequestsValid := by
  have hI : writeSystem.Invariant Store.RequestsValid := {
    init := by
      intro _ hs
      cases hs
      exact Store.requestsValid_empty
    step := by
      intro s op s' hs hstep
      cases hcall : op.requestCall with
      | some call => exact hstep ▸ WriteOp.after_requestCall hcall s ▸ valid_run call hs
      | none =>
        have hsame : s'.gatewayRequests = s.gatewayRequests :=
          hstep ▸ WriteOp.after_gatewayRequests hcall s
        unfold Store.RequestsValid
        rw [hsame]
        exact hs }
  exact hI.reachable h

namespace Sample

end Sample

end AIHub
