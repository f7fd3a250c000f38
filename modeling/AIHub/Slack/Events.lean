import AIHub.Gateway.Replays
import AIHub.Slack.Commands
import AIHub.Slack.UpdateTexts

/-!
# Slack events

`SlackSocketModeService._process_event`: it reads an event, has the gateway handle the command, and
delivers the response. Slack may send an event again, and then several calls process it at once. The
gateway knows them by the idempotency key of their request, and the delivery by the delivery id of
their response, which is the same whatever the response says.

* `remembered_sent`: as long as no call takes the receipt for an interim response, one message is
  sent, and it is the remembered response to the command.
* `acknowledgement_sent`: a call that is told that the request is being processed comes first with
  that message, and the response to the command is not sent.
-/

namespace AIHub

open Transition Reservation

/-! ## Reading an event -/

/-- `_first_string`. -/
def firstString (values : JsonObject) : List String → Option String
  | [] => none
  | name :: names =>
    match values.get? name with
    | some (.string text) =>
      let stripped := stripBlanks text.toList
      if stripped = [] then firstString values names else some (String.ofList stripped)
    | _ => firstString values names

/-- What is made of an event: a request for the gateway, or a response without it. -/
inductive EventAnswer where
  | request (request : GatewayRequest)
  | response (response : GatewayResponse)
  deriving DecidableEq

structure SlackEvent where
  sourceEventId : String
  route : SlackRoute
  answer : EventAnswer
  deriving DecidableEq

namespace GatewayResponse

/-- The response to an event that is no command. -/
def invalidRequest (message : SafeMessage) : GatewayResponse where
  success := false
  code := .invalidRequest
  message
  bounded := bounded_nil

end GatewayResponse

def missingCommand : SafeMessage :=
  ⟨"Slack event is missing actor or command text.", by decide +kernel⟩

/-- The first part of `_process_event`. -/
def readEvent (redact : Redaction) (other : Char → Char → Bool) (botUserId : Option String)
    (body event : JsonObject) : Except HubError SlackEvent := do
  let sourceEventId := (firstString body ["event_id"]).or
    (firstString event ["client_msg_id", "event_ts", "ts"])
  match firstString event ["channel"], sourceEventId with
  | some channel, some sourceEventId =>
    let route ← SlackRoute.validate channel (firstString event ["thread_ts", "ts"])
    match firstString event ["user"], firstString event ["text"] with
    | some actorId, some text =>
      let replyTarget ← encodeSlackRouteTarget redact route
      match parseSlackCommand other text sourceEventId actorId replyTarget botUserId with
      | .ok request => return ⟨sourceEventId, route, .request request⟩
      | .error e =>
        let message ← validateField ⟨1, 4000, fun _ => true⟩ "message" (redact 4000 e.message)
        return ⟨sourceEventId, route, .response (.invalidRequest message)⟩
    | _, _ => return ⟨sourceEventId, route, .response (.invalidRequest missingCommand)⟩
  | _, _ => throw (.value "Slack event is missing delivery metadata.")

/-- The delivery id of the response to an event. -/
def eventDeliveryId (sourceEventId : String) : String :=
  s!"slack-event:{sourceEventId}:gateway-response"

def eventDelivery (sourceEventId : String) (route : SlackRoute) (response : GatewayResponse) :
    Except HubError SlackDeliveryRequest := do
  let deliveryId ← validateField ⟨1, 255, opaqueIdPattern⟩ "delivery_id"
    (eventDeliveryId sourceEventId)
  let text ← validateField ⟨1, 20000, fun _ => true⟩ "text" response.message.val
  return { deliveryId, route, text }

/-! ## Calls -/

/-- Any number of calls, with the same event. -/
structure SlackEvents (ι : Type) where
  delivery : RetryingSlackDelivery
  alnum : Char → Bool
  sensitive : String → Bool
  other : Char → Char → Bool
  botUserId : Option String
  body : ι → JsonObject
  event : ι → JsonObject
  sourceEventId : String
  route : SlackRoute
  request : GatewayRequest
  read : ∀ i, readEvent (gatewayRedaction alnum) other botUserId (body i) (event i) =
    .ok ⟨sourceEventId, route, .request request⟩

structure OutboundMessage where
  route : SlackRoute
  text : String
  deriving DecidableEq

namespace SlackEvents

variable {ι : Type} [DecidableEq ι]

structure State (ι : Type) where
  gateway : DurableGateway.State ι
  /-- The calls of `deliver`, each after its response has been returned. -/
  deliveries : ι → DeliveryPc
  sent : List OutboundMessage

inductive Event (ι : Type) where
  | gateway (a : DurableGateway.Event ι)
  | deliver (i : ι) (c : DeliveryChoice)

variable (E : SlackEvents ι)

/-- The handlers of the request. -/
def handlers : DurableGateway ι := ⟨E.sensitive, fun _ => E.request⟩

/-- The text that is sent for a response. -/
def textOf (response : GatewayResponse) : String :=
  redactSensitiveText E.alnum response.message.val

/-- A call takes the next step in the delivery of its response. -/
def deliver (s : State ι) (i : ι) (c : DeliveryChoice) (response : GatewayResponse) :
    Option (State ι) :=
  match eventDelivery E.sourceEventId E.route response with
  | .error _ => none
  | .ok request =>
    (deliverNext E.delivery request c (s.deliveries i) s.gateway.store).map fun (pc, store) =>
      { gateway := { s.gateway with store }
        deliveries := Function.update s.deliveries i pc
        sent :=
          if (s.deliveries i).isSending ∧ pc = .marking then
            ⟨request.route, redactSensitiveText E.alnum request.text.val⟩ :: s.sent
          else s.sent }

def next (s : State ι) : Event ι → Option (State ι)
  | .gateway a => (E.handlers.next s.gateway a).map fun gateway => { s with gateway }
  | .deliver i c =>
    match s.gateway.stages i with
    | .returned response => E.deliver s i c response
    | _ => none

def system : System (State ι) (Event ι) :=
  .ofNext (fun s => E.handlers.system.init s.gateway ∧ (∀ i, s.deliveries i = .checking) ∧
    s.sent = []) E.next

/-- The receipt of the response. -/
def receipt (s : State ι) : Cell Unit :=
  s.gateway.store.receipt (receiptKey (eventDeliveryId E.sourceEventId))

/-- The actor is authorized, sends succeed, no reservation of a message that has gone out is
dropped, and nobody else writes to the receipt. -/
def Promised (s : State ι) : Event ι → Prop
  | .gateway (.authorized _ answer) => answer ≠ some false
  | .gateway (.wrote op) =>
    (op.after s.gateway.store).receipt (receiptKey (eventDeliveryId E.sourceEventId)) = E.receipt s
  | .gateway _ => True
  | .deliver i c => c.send = .sent ∧ ¬ (s.deliveries i = .releasing .notRecorded ∧ c.fate ≠ .raises)

/-- A call that is about to reserve the receipt finds it free, and has an interim response. -/
def TakesInterim (s : State ι) : Event ι → Prop
  | .gateway _ => False
  | .deliver i _ => s.deliveries i = .reserving ∧ E.receipt s = .free ∧
    (s.gateway.stages i).returnsInterim = true

instance (s : State ι) : (a : Event ι) → Decidable (E.Promised s a)
  | .gateway (.authorized _ answer) => inferInstanceAs (Decidable (answer ≠ some false))
  | .gateway (.wrote _) => inferInstanceAs (Decidable (_ = E.receipt s))
  | .gateway (.called _ _ _) | .gateway (.dispatched _ _) | .gateway (.interrupted _)
  | .gateway (.ranLeft _ _ _) => inferInstanceAs (Decidable True)
  | .deliver _ _ => inferInstanceAs (Decidable (_ ∧ ¬ (_ ∧ _)))

instance (s : State ι) : (a : Event ι) → Decidable (E.TakesInterim s a)
  | .gateway _ => inferInstanceAs (Decidable False)
  | .deliver _ _ => inferInstanceAs (Decidable (_ ∧ _ ∧ _))

variable {E} {s t u : State ι} {i j : ι} {c : DeliveryChoice} {a : Event ι}

/-! ## One delivery -/

omit [DecidableEq ι] in
theorem strip_eventDeliveryId (sourceEventId : String) :
    Text.strip (eventDeliveryId sourceEventId).toList = (eventDeliveryId sourceEventId).toList := by
  have htext : (eventDeliveryId sourceEventId).toList =
      "slack-event:".toList ++ (sourceEventId.toList ++ ":gateway-response".toList) := by
    simp [eventDeliveryId, toString]
  rw [htext]
  refine (Text.Tight.append ?_ _ ?_).strip_eq
  · exact .of_graphic (by decide) (List.all_eq_true.1 (by decide))
  · exact .of_graphic (by decide) (List.all_eq_true.1 (by decide))

/-- The response is delivered under the id of the event, with its message as it is. -/
theorem eventDelivery_ok {sourceEventId : String} {route : SlackRoute} {response : GatewayResponse}
    {request : SlackDeliveryRequest}
    (h : eventDelivery sourceEventId route response = .ok request) :
    request.deliveryId.val = eventDeliveryId sourceEventId ∧ request.route = route ∧
      request.text.val = response.message.val := by
  unfold eventDelivery at h
  obtain ⟨deliveryId, hid, h⟩ := bind_eq_ok.1 h
  obtain ⟨text, htext, h⟩ := bind_eq_ok.1 h
  cases h
  have hstrip : Text.strip response.message.val.toList = response.message.val.toList := by
    have hok := response.message.ok
    simp only [StringConstraints.accepts, decide_eq_true_eq] at hok
    exact hok.1
  refine ⟨?_, rfl, ?_⟩
  · rw [val_of_validateField hid, strip_eventDeliveryId, String.ofList_toList]
  · rw [val_of_validateField htext, hstrip, String.ofList_toList]

/-- What a step of a delivery does to the receipts, and what it sends. -/
theorem deliver_cases (hstep : E.next s (.deliver i c) = some t) :
    ∃ response request, s.gateway.stages i = .returned response ∧
      request.deliveryId.val = eventDeliveryId E.sourceEventId ∧
      ∃ pc store, deliverNext E.delivery request c (s.deliveries i) s.gateway.store =
          some (pc, store) ∧
        t.gateway = { s.gateway with store } ∧ t.deliveries = Function.update s.deliveries i pc ∧
        t.sent = if (s.deliveries i).isSending ∧ pc = .marking then
          ⟨E.route, E.textOf response⟩ :: s.sent else s.sent := by
  unfold next at hstep
  dsimp only at hstep
  split at hstep
  · rename_i response hstage
    unfold deliver at hstep
    split at hstep
    · cases hstep
    · rename_i request hrequest
      obtain ⟨hid, hroute, htext⟩ := eventDelivery_ok hrequest
      obtain ⟨⟨pc, store⟩, hnext, ht⟩ := Option.map_eq_some_iff.1 hstep
      subst ht
      refine ⟨response, request, hstage, hid, pc, store, hnext, rfl, rfl, ?_⟩
      simp only [hroute, htext, textOf]
  · cases hstep

/-- A delivery does not write to the table of gateway requests. -/
theorem deliverNext_shows {d : RetryingSlackDelivery} {request : SlackDeliveryRequest}
    {pc pc' : DeliveryPc} {store store' : Store} {cells : Cells String GatewayResponse}
    (hs : DurableRequestDeduplicator.Shows store cells)
    (h : deliverNext d request c pc store = some (pc', store')) :
    DurableRequestDeduplicator.Shows store' cells := by
  have hwrote : ∀ {α : Type} {op : Store → Except HubError (α × Store)} {result : Option α}
      {after : Store} (write : WriteOp), write.requestCall = none →
      (∀ a s', op store = .ok (a, s') → write.exec store = .ok s') →
      storeCall c.fate op store = (result, after) →
      DurableRequestDeduplicator.Shows after cells := by
    intro α op result after write hwrite hop hcall
    obtain ⟨rfl, _⟩ | ⟨a, hok, _⟩ := storeCall_effect hcall
    · exact hs
    · have hafter : write.after store = after := by rw [WriteOp.after, hop a after hok]
      exact hafter ▸ hs.wrote hwrite
  cases pc with
  | returned | raised => cases h
  | checking | sending _ | sleeping _ =>
    simp only [deliverNext] at h
    repeat' split at h
    all_goals
      cases h
      exact hs
  | reserving =>
    simp only [deliverNext] at h
    generalize hcall : storeCall c.fate _ store = r at h
    obtain ⟨result, after⟩ := r
    have hafter := hwrote (.reserveDelivery request.deliveryId.val c.time) rfl
      (fun a s' hok => by rw [WriteOp.exec, hok]; rfl) hcall
    rcases result with _ | _ | _ <;> cases h <;> exact hafter
  | marking =>
    simp only [deliverNext] at h
    generalize hcall : storeCall c.fate _ store = r at h
    obtain ⟨result, after⟩ := r
    have hafter := hwrote (.markDeliveryDelivered request.deliveryId.val c.time) rfl
      (fun a s' hok => by rw [WriteOp.exec, hok]; rfl) hcall
    rcases result with _ | _ <;> cases h <;> exact hafter
  | releasing error =>
    simp only [deliverNext] at h
    generalize hcall : storeCall c.fate _ store = r at h
    obtain ⟨result, after⟩ := r
    cases h
    exact hwrote (.releaseDelivery request.deliveryId.val) rfl
      (fun a s' hok => by rw [WriteOp.exec, hok]; rfl) hcall

/-! ## One message -/

/-- The receipt, and the calls that hold it. -/
def view (E : SlackEvents ι) (s : State ι) : Reservation.State ι Unit where
  cell := E.receipt s
  holds i := (s.deliveries i).holds = true

/-- At most one call holds the receipt; and when the message has gone out, the receipt is taken, and
who holds it has sent. -/
structure Once (E : SlackEvents ι) (s : State ι) : Prop where
  sound : Sound (E.view s)
  sent : s.sent = [] ∨ s.sent.length = 1 ∧ E.receipt s ≠ .free ∧
    ∀ i, (s.deliveries i).holds = true → (s.deliveries i).hasSent = true

/-- The gateway leaves the receipt alone. -/
theorem gateway_receipt {b : DurableGateway.Event ι} {g : DurableGateway.State ι}
    (hpromised : E.Promised s (.gateway b)) (hstep : E.handlers.next s.gateway b = some g) :
    E.receipt { s with gateway := g } = E.receipt s := by
  rcases DurableGateway.step_receipts hstep with ⟨op, rfl, hop⟩ | hsame
  · exact (congrArg (Store.receipt · _) hop).trans hpromised
  · simp only [receipt, Store.receipt, hsame]

theorem once_step (h : E.Once s) (hpromised : E.Promised s a) (hstep : E.next s a = some t) :
    E.Once t := by
  cases a with
  | gateway b =>
    simp only [next, Option.map_eq_some_iff] at hstep
    obtain ⟨g, hg, rfl⟩ := hstep
    have hreceipt := gateway_receipt hpromised hg
    refine ⟨?_, by rw [hreceipt]; exact h.sent⟩
    have hview : E.view { s with gateway := g } = E.view s := by
      simp only [view, hreceipt]
    rw [hview]
    exact h.sound
  | deliver i c =>
    obtain ⟨response, request, hstage, hid, pc, store, hnext, hgateway, hdeliveries, hsent⟩ :=
      deliver_cases hstep
    have hreceipts := deliverNext_receipts hnext
    have hreceipt : E.receipt t = store.receipt (receiptKey request.deliveryId.val) := by
      rw [receipt, hgateway, hid]
    have hreceipt' : E.receipt s = s.gateway.store.receipt (receiptKey request.deliveryId.val) := by
      rw [receipt, hid]
    have hothers : ∀ j, j ≠ i → t.deliveries j = s.deliveries j := fun j hji => by
      rw [hdeliveries, Function.update_of_ne hji]
    have hself : t.deliveries i = pc := by rw [hdeliveries, Function.update_self]
    have hsound : Sound (E.view t) := by
      refine h.sound.step (a := some i) ⟨?_, fun j hji => by simp only [view, hothers j hji]⟩
      simp only [view, hreceipt, hreceipt', hself]
      exact hreceipts.move.1
    refine ⟨hsound, ?_⟩
    by_cases hsends : (s.deliveries i).isSending = true ∧ pc = .marking
    · -- whoever sends has not sent before, and nobody else holds the receipt
      obtain ⟨hsending, rfl⟩ := hsends
      have hholds := DeliveryPc.of_isSending hsending
      have hnothing : s.sent = [] := by
        rcases h.sent with hnil | ⟨_, _, hhas⟩
        · exact hnil
        · exact absurd (hhas i hholds.1) (by simp [hholds.2])
      have hholder : (t.deliveries i).holds = true := by rw [hself]; rfl
      refine .inr ⟨?_, hsound.not_free i hholder, fun j hj => ?_⟩
      · rw [hsent, if_pos ⟨hsending, rfl⟩, hnothing]
        rfl
      · obtain rfl := hsound.unique j i hj hholder
        rw [hself]
        rfl
    · rw [hsent, if_neg hsends]
      refine h.sent.imp id fun ⟨hlength, htaken, hhas⟩ => ⟨hlength, ?_⟩
      have hsent' : (s.deliveries i).holds = true → pc.holds = true → pc.hasSent = true :=
        fun hholds => deliverNext_hasSent hnext (hhas i hholds)
      have hothers' : (pc.holds = true → (s.deliveries i).holds = true) →
          ∀ j, (t.deliveries j).holds = true → (t.deliveries j).hasSent = true := by
        intro hkept j hj
        by_cases hji : j = i
        · subst hji
          rw [hself] at hj ⊢
          exact hsent' (hkept hj) hj
        · rw [hothers j hji] at hj ⊢
          exact hhas j hj
      rw [hreceipt]
      rw [hreceipt'] at htaken
      generalize hpc : s.deliveries i = before at hreceipts hothers' hpromised hhas
      cases hreceipts with
      | none same kept => exact ⟨same ▸ htaken, hothers' kept⟩
      | reserved free write => exact absurd free htaken
      | delivered reserved write =>
        refine ⟨?_, hothers' fun _ => rfl⟩
        rw [write, if_pos rfl]
        simp
      | released error fate reserved write =>
        -- it holds the receipt, so it has sent, and drops it all the same
        have hhas' := hhas i (by rw [hpc]; rfl)
        rw [hpc] at hhas'
        cases error with
        | notSent => cases hhas'
        | notRecorded => exact absurd ⟨hpc, fate⟩ hpromised.2

/-! ## The response that is sent -/

/-- What goes out says what the remembered response says: the calls that hold the receipt have a
response that is not interim, and where the request is not refused, such a response is the one that
has been remembered. -/
structure Carries (E : SlackEvents ι) (s : State ι) (cells : Cells String GatewayResponse) :
    Prop where
  safe : E.handlers.Safe s.gateway cells
  answered : E.handlers.Answered s.gateway cells
  holders : ∀ i, (s.deliveries i).holds = true →
    ∃ response, s.gateway.stages i = .returned response ∧ response.isInterim = false
  sent : ∀ i, E.handlers.refuses i = false → ∀ message ∈ s.sent, ∃ response,
    cells E.request.idempotencyKey = .settled response ∧ message = ⟨E.route, E.textOf response⟩

variable {cells cells' : Cells String GatewayResponse}

theorem carries_gateway {b : DurableGateway.Event ι} {g : DurableGateway.State ι}
    (h : E.Carries s cells) (hpromised : E.Promised s (.gateway b))
    (hstep : E.handlers.next s.gateway b = some g) :
    E.Carries { s with gateway := g } (E.handlers.cellsAfter s.gateway b cells) where
  safe := (DurableGateway.safe_step h.safe hstep).2
  answered := by
    refine DurableGateway.answered_step h.safe h.answered ?_ hstep
    rintro i rfl
    exact hpromised rfl
  holders i hi := by
    obtain ⟨response, hstage, hinterim⟩ := h.holders i hi
    exact ⟨response, DurableGateway.returned_stays hstep hstage, hinterim⟩
  sent i hrefuses message hmessage := by
    obtain ⟨response, hcell, htext⟩ := h.sent i hrefuses message hmessage
    obtain ⟨key, hkey⟩ := E.request.idempotencyKey_accepted
    rw [← hkey] at hcell ⊢
    exact ⟨response, (DurableGateway.safe_step_settled h.safe hstep).2 (.inr hcell), htext⟩

theorem carries_deliver (h : E.Carries s cells) (hfinal : ¬ E.TakesInterim s (.deliver i c))
    (hstep : E.next s (.deliver i c) = some t) : E.Carries t cells := by
  obtain ⟨response, request, hstage, hid, pc, store, hnext, hgateway, hdeliveries, hsent⟩ :=
    deliver_cases hstep
  have hstages : t.gateway.stages = s.gateway.stages := by rw [hgateway]
  have hleft : t.gateway.left = s.gateway.left := by rw [hgateway]
  -- a call comes to hold the receipt only with a response that is not interim
  have hholder : (s.deliveries i).holds = true → response.isInterim = false := by
    intro hholds
    obtain ⟨response', hstage', hinterim⟩ := h.holders i hholds
    rw [hstage] at hstage'
    cases hstage'
    exact hinterim
  have htakes : pc.holds = true → response.isInterim = false := by
    intro hholds
    have hreceipts := deliverNext_receipts hnext
    generalize hpc : s.deliveries i = before at hreceipts
    cases hreceipts with
    | none same kept => exact hholder (hpc ▸ kept hholds)
    | reserved free write =>
      by_contra hinterim
      rw [Bool.not_eq_false] at hinterim
      refine hfinal ⟨hpc, ?_, by rw [hstage]; exact hinterim⟩
      rw [receipt, ← hid]
      exact free
    | delivered reserved write => exact hholder (hpc ▸ rfl)
    | released error fate reserved write => cases hholds
  constructor
  · rw [hgateway]
    exact ⟨deliverNext_shows h.safe.shown hnext, h.safe.held, h.safe.left⟩
  · rw [hgateway]
    exact ⟨h.answered.refused, h.answered.releasing, h.answered.returned⟩
  · intro j hj
    rw [hdeliveries] at hj
    rw [hstages]
    by_cases hji : j = i
    · subst hji
      exact ⟨response, hstage, htakes (by simpa using hj)⟩
    · exact h.holders j (by simpa [hji] using hj)
  · intro j hrefuses message hmessage
    rw [hsent] at hmessage
    split_ifs at hmessage with hsends
    · rcases List.mem_cons.1 hmessage with rfl | hmessage
      · obtain ⟨response', hcell, hsame⟩ := h.answered.returned i response hstage hrefuses
          (hholder (DeliveryPc.of_isSending hsends.1).1)
        exact ⟨response', hcell, by rw [textOf, textOf, hsame]⟩
      · exact h.sent j hrefuses message hmessage
    · exact h.sent j hrefuses message hmessage

/-- The runs in which no call takes the receipt for an interim response. -/
def finalOnly (E : SlackEvents ι) : System (State ι) (Event ι) :=
  E.system.guard fun s a => E.Promised s a ∧ ¬ E.TakesInterim s a

/-- The cells after a step. -/
theorem carries_step (h : E.Carries s cells) (hstep : E.finalOnly.step s a t) :
    ∃ cells', E.Carries t cells' ∧ ∀ key : IdempotencyKey, ∀ response,
      cells key.val = .settled response → cells' key.val = .settled response := by
  obtain ⟨⟨hpromised, hfinal⟩, hstep⟩ := hstep
  have hstep : E.next s a = some t := hstep
  cases a with
  | gateway b =>
    simp only [next, Option.map_eq_some_iff] at hstep
    obtain ⟨g, hg, rfl⟩ := hstep
    exact ⟨_, carries_gateway h hpromised hg, fun key response hcell =>
      (DurableGateway.safe_step_settled h.safe hg).2 (.inr hcell)⟩
  | deliver i c => exact ⟨cells, carries_deliver h hfinal hstep, fun _ _ hcell => hcell⟩

theorem carries_init (hs : E.system.init s) : (∃ cells, E.Carries s cells) ∧ E.Once s := by
  obtain ⟨hgateway, hdeliveries, hsent⟩ := hs
  obtain ⟨cells, hsafe⟩ := DurableGateway.safe_init hgateway
  have hnobody : ∀ i, (s.deliveries i).holds ≠ true := fun i => by
    rw [hdeliveries i]
    simp [DeliveryPc.holds]
  refine ⟨⟨cells, hsafe, ⟨fun i _ => ?_, fun i r hr => ?_, fun i r hr => ?_⟩,
    fun i hi => absurd hi (hnobody i), fun i _ message hmessage => ?_⟩,
    ⟨fun i hi => absurd hi (hnobody i), fun i _ hi => absurd hi (hnobody i)⟩, .inl hsent⟩
  · rw [hgateway.1 i]
    exact ⟨rfl, by simp, hgateway.2.1 i⟩
  · rw [hgateway.1 i] at hr
    cases hr
  · rw [hgateway.1 i] at hr
    cases hr
  · rw [hsent] at hmessage
    cases hmessage

theorem carries_reachable (hs : E.finalOnly.Reachable s) :
    (∃ cells, E.Carries s cells) ∧ E.Once s := by
  have hI : E.finalOnly.Invariant fun s => (∃ cells, E.Carries s cells) ∧ E.Once s := {
    init := fun _ hs => carries_init hs
    step := fun _ _ _ ⟨⟨cells, hs⟩, honce⟩ hstep => by
      obtain ⟨cells', hcarries, _⟩ := carries_step hs hstep
      exact ⟨⟨cells', hcarries⟩, once_step honce hstep.1.1 hstep.2⟩ }
  exact hI.reachable hs

/-- As long as no call takes the receipt for an interim response: once the response to the command
has been remembered, the one message that is sent carries it. -/
theorem remembered_sent (E : SlackEvents ι) (s t u : State ι) (b : DurableGateway.Event ι)
    (as : List (Event ι)) (response : GatewayResponse) (hs : E.finalOnly.Reachable s)
    (hstep : E.finalOnly.step s (.gateway b) t)
    (hremembers : E.handlers.performs s.gateway b =
      some (.remember E.request.idempotencyKey response))
    (hr : E.finalOnly.Run t as u) :
    u.sent.length ≤ 1 ∧ ∀ message ∈ u.sent, message = ⟨E.route, E.textOf response⟩ := by
  obtain ⟨⟨cells, hcarries⟩, _⟩ := carries_reachable hs
  obtain ⟨key, hkey⟩ := E.request.idempotencyKey_accepted
  have haccepts : ∃ i, E.handlers.refuses i = false := hcarries.answered.accepts hremembers
  have ht : ∃ cells, E.Carries t cells ∧ cells key.val = .settled response := by
    have hnext : E.next s (.gateway b) = some t := hstep.2
    simp only [next, Option.map_eq_some_iff] at hnext
    obtain ⟨g, hg, rfl⟩ := hnext
    rw [← hkey] at hremembers
    exact ⟨_, carries_gateway hcarries hstep.1.1 hg,
      (DurableGateway.safe_step_settled hcarries.safe hg).2 (.inl hremembers)⟩
  have hu : ∃ cells, E.Carries u cells ∧ cells key.val = .settled response := by
    refine hr.keeps (I := fun s => ∃ cells, E.Carries s cells ∧
      cells key.val = .settled response) ?_ ht
    rintro v a w ⟨cells, hv, hcell⟩ hstep
    obtain ⟨cells', hw, hkept⟩ := carries_step hv hstep
    exact ⟨cells', hw, hkept key response hcell⟩
  obtain ⟨_, honce⟩ := carries_reachable ((hs.step hstep).run hr)
  obtain ⟨cells', hu, hcell⟩ := hu
  obtain ⟨i, hrefuses⟩ := haccepts
  constructor
  · rcases honce.sent with hnil | ⟨hlength, _⟩
    · rw [hnil]
      exact Nat.zero_le 1
    · exact hlength.le
  · intro message hmessage
    obtain ⟨response', hcell', htext⟩ := hu.sent i hrefuses message hmessage
    rw [← hkey, hcell] at hcell'
    cases hcell'
    exact htext

end SlackEvents

namespace Sample

def helpBody : JsonObject := [("event_id", .string "Ev9")]

def helpEvent : JsonObject :=
  [("channel", .string "C9"), ("text", .string "help"), ("user", .string "U9")]

def askedHelp : GatewayRequest where
  source := ⟨"slack", slack_accepted⟩
  sourceEventId := ⟨"Ev9", by decide⟩
  actorId := ⟨"U9", by decide⟩
  replyTarget := some ⟨"slack-v1:C9:_", by decide⟩
  command := .help
  arguments := rfl

/-- The event has been sent again and again. -/
def helpEvents : SlackEvents Nat where
  delivery := delivery
  alnum _ := false
  sensitive _ := false
  other _ _ := false
  botUserId := none
  body _ := helpBody
  event _ := helpEvent
  sourceEventId := "Ev9"
  route := { channel := ⟨"C9", by decide⟩ }
  request := askedHelp
  read _ := by decide +kernel

def noEvents : SlackEvents.State Nat :=
  ⟨⟨fun _ => .authorizing, fun _ => none, .empty⟩, fun _ => .checking, []⟩

def helpAnswer : GatewayResponse where
  success := true
  code := .ok
  message := ⟨"Ask for help.", by decide +kernel⟩
  bounded := GatewayResponse.bounded_nil

def asksGateway (i n : Nat) : SlackEvents.Event Nat := .gateway (.called i ⟨n, 0⟩ .replies)

def sendsAnswer (i n : Nat) : SlackEvents.Event Nat := .deliver i { time := ⟨n, 0⟩ }

/-- A call is about to remember the response, and a second one has found the key reserved. -/
def twoEvents : List (SlackEvents.Event Nat) :=
  [.gateway (.authorized 0 (some true)), asksGateway 0 1, asksGateway 0 2,
    .gateway (.authorized 1 (some true)), asksGateway 1 3, asksGateway 1 4,
    .gateway (.dispatched 0 (.response helpAnswer))]

/-- The second call delivers its response before that. -/
def secondFirst : List (SlackEvents.Event Nat) :=
  twoEvents ++ [sendsAnswer 1 5, sendsAnswer 1 6, sendsAnswer 1 7]

def remembersHelp : DurableGateway.Event Nat := .called 0 ⟨8, 0⟩ .replies

/-- The second call records its delivery, and the first one finds the receipt. -/
def firstLate : List (SlackEvents.Event Nat) := [sendsAnswer 1 9, sendsAnswer 0 10]

/-- The first call delivers its response. -/
def firstAnswers : List (SlackEvents.Event Nat) :=
  [sendsAnswer 0 9, sendsAnswer 0 10, sendsAnswer 0 11]

theorem noEvents_init : helpEvents.system.init noEvents := by
  refine ⟨⟨fun _ => rfl, fun _ => rfl, fun _ => .free, ?_, fun _ => rfl⟩, fun _ => rfl, rfl⟩
  intro row hrow
  exact absurd hrow (Table.not_mem_empty _)

end Sample

open Sample in
/-- The first call comes first with its message, and that is the response to the command. -/
theorem remembered_sent_sample :
    let next := System.guardNext
      (fun s a => helpEvents.Promised s a ∧ ¬ helpEvents.TakesInterim s a) helpEvents.next
    let s := System.execD next noEvents twoEvents
    let t := System.execD next s [.gateway remembersHelp]
    let u := System.execD next t firstAnswers
    u.sent.length = 1 ∧ ∀ message ∈ u.sent, message = ⟨helpEvents.route,
      helpEvents.textOf helpAnswer⟩ := by
  intro next s t u
  have hM : helpEvents.finalOnly = System.ofNext _ next := System.ofNext_guard
  have hs : helpEvents.finalOnly.Reachable s := by
    rw [hM]
    exact ⟨noEvents, twoEvents, noEvents_init, System.run_execD (by decide +kernel)⟩
  have ht : helpEvents.finalOnly.step s (.gateway remembersHelp) t := by
    rw [hM]
    exact System.step_execD (by decide +kernel)
  have hu : helpEvents.finalOnly.Run t firstAnswers u := by
    rw [hM]
    exact System.run_execD (by decide +kernel)
  have hsent := SlackEvents.remembered_sent helpEvents s t u remembersHelp firstAnswers helpAnswer
    hs ht (by decide +kernel) hu
  exact ⟨by decide +kernel, hsent.2⟩

open Sample in
/-- The second call is told that the request is being processed and comes first with that message,
and the response to the command is not sent. -/
theorem acknowledgement_sent : ¬ ∀ (E : SlackEvents Nat) (s t u : SlackEvents.State Nat)
    (b : DurableGateway.Event Nat) (as : List (SlackEvents.Event Nat)) (response : GatewayResponse),
    (E.system.guard E.Promised).Reachable s → (E.system.guard E.Promised).step s (.gateway b) t →
    E.handlers.performs s.gateway b = some (.remember E.request.idempotencyKey response) →
    (E.system.guard E.Promised).Run t as u →
    u.sent.length ≤ 1 ∧ ∀ message ∈ u.sent, message = ⟨E.route, E.textOf response⟩ := by
  intro h
  let next := System.guardNext helpEvents.Promised helpEvents.next
  let s := System.execD next noEvents secondFirst
  let t := System.execD next s [.gateway remembersHelp]
  have hM : helpEvents.system.guard helpEvents.Promised = System.ofNext _ next :=
    System.ofNext_guard
  have hs : (helpEvents.system.guard helpEvents.Promised).Reachable s := by
    rw [hM]
    exact ⟨noEvents, secondFirst, noEvents_init, System.run_execD (by decide +kernel)⟩
  have ht : (helpEvents.system.guard helpEvents.Promised).step s (.gateway remembersHelp) t := by
    rw [hM]
    exact System.step_execD (by decide +kernel)
  have hu : (helpEvents.system.guard helpEvents.Promised).Run t firstLate
      (System.execD next t firstLate) := by
    rw [hM]
    exact System.run_execD (by decide +kernel)
  have hsent := h helpEvents s t _ remembersHelp firstLate helpAnswer hs ht (by decide +kernel) hu
  exact absurd hsent.2 (by decide +kernel)

end AIHub
