import AIHub.Gateway.Models
import AIHub.Lib.Reservation
import AIHub.Storage.System
import Mathlib.Logic.Function.Basic

/-!
# Outbound delivery

`RetryingSlackDelivery.deliver` as a program that stops at its awaits, over the receipts in the
store. For each delivery id the receipt is a reservation: `reserve` takes it, `mark_delivered`
settles it, `release` drops it, and a call holds it from its reservation to the end
(`deliverNext_move`).

* `not_sent_again`: as long as no call drops the reservation of a message that has gone out,
  nothing is sent for a delivery id once a send for it has returned.
* `sent_again`: recording the delivery fails, the handler releases the receipt, and the next
  delivery sends the message again.
-/

namespace AIHub

open Transition Reservation

/-! ## Requests -/

abbrev DeliveryText := Constrained ⟨1, 20000, fun _ => true⟩

structure SlackRoute where
  channel : OpaqueId
  threadTs : Option OpaqueId := none
  deriving DecidableEq

structure SlackDeliveryRequest where
  deliveryId : OpaqueId
  route : SlackRoute
  text : DeliveryText
  deriving DecidableEq

inductive DeliveryOutcome where
  | sent | duplicate | inProgress
  deriving DecidableEq, Repr

/-! ## The program -/

/-- What becomes of a store call in a worker thread. -/
inductive CallFate where
  | returns
  /-- It raises and does nothing. -/
  | raises
  /-- It takes effect, and the caller gets an exception all the same. -/
  | takesEffectAndRaises
  deriving DecidableEq, Repr

/-- The result of a store call, unless it raises, and the store after it. -/
def storeCall {α : Type} (fate : CallFate) (op : Store → Except HubError (α × Store)) (s : Store) :
    Option α × Store :=
  match fate, op s with
  | .raises, _ | _, .error _ => (none, s)
  | .returns, .ok (a, s') => (some a, s')
  | .takesEffectAndRaises, .ok (_, s') => (none, s')

inductive SendOutcome where
  | sent
  /-- An exception, with the HTTP status of its response. -/
  | failed (statusCode : Option Nat)
  /-- The call is cancelled. -/
  | interrupted
  deriving DecidableEq

/-- What the environment does at one step. -/
structure DeliveryChoice where
  time : Timestamp
  fate : CallFate := .returns
  send : SendOutcome := .sent
  /-- Sleeping ends, and not by a cancellation. -/
  wakes : Bool := true

structure RetryingSlackDelivery where
  maxAttempts : Nat
  positive : 1 ≤ maxAttempts

/-- The exception that leaves the loop. -/
inductive DeliveryError where
  | notSent
  /-- The message went out, and `mark_delivered` raised. -/
  | notRecorded
  deriving DecidableEq, Repr

/-- Where a `deliver` call stands. -/
inductive DeliveryPc where
  | checking
  | reserving
  | sending (attempt : Nat)
  | sleeping (attempt : Nat)
  | marking
  | releasing (error : DeliveryError)
  | returned (outcome : DeliveryOutcome)
  | raised
  deriving DecidableEq

/-- `400 <= status_code < 500 and status_code != 429`. -/
def isClientError (statusCode : Option Nat) : Bool :=
  statusCode.any fun code => 400 ≤ code ∧ code < 500 ∧ code ≠ 429

/-- Take a `deliver` call past one await. -/
def deliverNext (d : RetryingSlackDelivery) (request : SlackDeliveryRequest) (c : DeliveryChoice) :
    DeliveryPc → Store → Option (DeliveryPc × Store)
  | .checking, s =>
    match c.fate, s.isDeliveryDelivered request.deliveryId.val with
    | .returns, .ok true => some (.returned .duplicate, s)
    | .returns, .ok false => some (.reserving, s)
    | _, _ => some (.raised, s)
  | .reserving, s =>
    match storeCall c.fate (Store.reserveDelivery request.deliveryId.val c.time) s with
    | (some true, s) => some (.sending 1, s)
    | (some false, s) => some (.returned .inProgress, s)
    | (none, s) => some (.raised, s)
  | .sending attempt, s =>
    match c.send with
    | .sent => some (.marking, s)
    | .interrupted => some (.releasing .notSent, s)
    | .failed statusCode =>
      if isClientError statusCode then some (.releasing .notSent, s)
      else if attempt = d.maxAttempts then some (.releasing .notSent, s)
      else some (.sleeping attempt, s)
  | .sleeping attempt, s =>
    if c.wakes then some (.sending (attempt + 1), s) else some (.releasing .notSent, s)
  | .marking, s =>
    match storeCall c.fate (Store.markDeliveryDelivered request.deliveryId.val c.time) s with
    | (some _, s) => some (.returned .sent, s)
    | (none, s) => some (.releasing .notRecorded, s)
  | .releasing _, s =>
    -- Whether the release succeeds or not, an exception leaves the call.
    some (.raised, (storeCall c.fate (Store.releaseDelivery request.deliveryId.val) s).2)
  | .returned _, _ | .raised, _ => none

namespace DeliveryPc

/-- From the reservation to its end. -/
def holds : DeliveryPc → Bool
  | sending _ | sleeping _ | marking | releasing _ => true
  | checking | reserving | returned _ | raised => false

def isSending : DeliveryPc → Bool
  | sending _ => true
  | _ => false

/-- The send has returned, and the receipt is still held. -/
def hasSent : DeliveryPc → Bool
  | marking | releasing .notRecorded => true
  | _ => false

/-- Who sends holds the receipt, and has not sent. -/
theorem of_isSending {pc : DeliveryPc} (h : pc.isSending = true) :
    pc.holds = true ∧ pc.hasSent = false := by
  cases pc with
  | sending attempt => exact ⟨rfl, rfl⟩
  | _ => cases h

end DeliveryPc

/-! ## Receipts as reservations -/

/-- The text under which a delivery id is stored. -/
def receiptKey (deliveryId : String) : String :=
  match RouteValue.validate "delivery_id" deliveryId with
  | .ok id => id.val
  | .error _ => deliveryId

theorem receiptKey_eq {deliveryId : String} {id : RouteValue}
    (h : RouteValue.validate "delivery_id" deliveryId = .ok id) :
    receiptKey deliveryId = id.val := by
  rw [receiptKey, h]

/-- The state of the receipt of a delivery. -/
def Store.receipt (s : Store) (key : String) : Cell Unit :=
  match (s.deliveryReceipts.get? key).map ReceiptRow.state with
  | none => .free
  | some .reserved => .reserved
  | some .delivered => .settled ()

theorem receipt_eq_settled {s : Store} {key : String} :
    s.receipt key = .settled () ↔
      ((s.deliveryReceipts.get? key).any fun r => r.state = .delivered) = true := by
  unfold Store.receipt
  cases s.deliveryReceipts.get? key with
  | none => simp
  | some row => cases h : row.state <;> simp [h]

theorem receipt_eq_free {s : Store} {key : String} :
    s.receipt key = .free ↔ s.deliveryReceipts.get? key = none := by
  unfold Store.receipt
  cases s.deliveryReceipts.get? key with
  | none => simp
  | some row => cases h : row.state <;> simp [h]

theorem isDeliveryDelivered_eq_ok {s : Store} {text : String} {b : Bool} :
    s.isDeliveryDelivered text = .ok b ↔
      (∃ id, RouteValue.validate "delivery_id" text = .ok id) ∧
        (b = true ↔ s.receipt (receiptKey text) = .settled ()) := by
  constructor
  · intro h
    obtain ⟨id, hid, rfl⟩ := Store.isDeliveryDelivered_ok h
    rw [receipt_eq_settled, receiptKey_eq hid]
    exact ⟨⟨id, hid⟩, Iff.rfl⟩
  · rintro ⟨⟨id, hid⟩, hb⟩
    rw [receipt_eq_settled, receiptKey_eq hid] at hb
    rw [Store.isDeliveryDelivered, Store.getDeliveryReceipt, hid]
    exact congrArg Except.ok (Bool.eq_iff_iff.2 hb.symm)

section

variable {s s' : Store} {text : String} {time : Timestamp}

/-- Reserving takes a free receipt, and leaves another one. -/
theorem receipt_reserve {b : Bool} (h : Store.reserveDelivery text time s = .ok (b, s')) :
    (b = false ∧ s' = s ∧ s.receipt (receiptKey text) ≠ .free) ∨
      (b = true ∧ s.receipt (receiptKey text) = .free ∧ ∀ key,
        s'.receipt key = if key = receiptKey text then .reserved else s.receipt key) := by
  obtain ⟨id, hid, ⟨hb, hs, hsome⟩ | ⟨hb, hfree, rfl⟩⟩ := Store.reserveDelivery_ok h
  · rw [receiptKey_eq hid, ne_eq, receipt_eq_free]
    exact .inl ⟨hb, hs, Option.isSome_iff_ne_none.1 hsome⟩
  · rw [receiptKey_eq hid]
    refine .inr ⟨hb, by simp [Store.receipt, hfree], fun key => ?_⟩
    simp only [Store.receipt, Table.get?_insert]
    by_cases hkey : key = id.val
    · simp [hkey]
    · simp [hkey, Ne.symm hkey]

/-- Marking settles a reserved receipt, and leaves a settled one. -/
theorem receipt_mark {r : DeliveryReceipt}
    (h : Store.markDeliveryDelivered text time s = .ok (r, s')) :
    (s' = s ∧ s.receipt (receiptKey text) = .settled ()) ∨
      (s.receipt (receiptKey text) = .reserved ∧ ∀ key,
        s'.receipt key = if key = receiptKey text then .settled () else s.receipt key) := by
  obtain ⟨id, row, hid, hrow, ⟨hstate, hs⟩ | ⟨hstate, rfl⟩⟩ := Store.markDeliveryDelivered_ok h
  · rw [receiptKey_eq hid]
    exact .inl ⟨hs, by simp [Store.receipt, hrow, hstate]⟩
  · rw [receiptKey_eq hid]
    refine .inr ⟨by simp [Store.receipt, hrow, hstate], fun key => ?_⟩
    simp only [Store.receipt, Table.get?_update]
    by_cases hkey : key = id.val
    · subst hkey
      simp [hrow, Table.key_of_get? hrow]
    · cases hget : s.deliveryReceipts.get? key with
      | none => simp [hkey]
      | some other =>
        have hother : other.deliveryId ≠ id.val := Table.key_of_get? hget ▸ hkey
        simp [hkey, hother]

/-- Releasing drops a reserved receipt, and leaves a free one. -/
theorem receipt_release {b : Bool} (h : Store.releaseDelivery text s = .ok (b, s')) :
    (s' = s ∧ s.receipt (receiptKey text) = .free) ∨
      (s.receipt (receiptKey text) = .reserved ∧ ∀ key,
        s'.receipt key = if key = receiptKey text then .free else s.receipt key) := by
  obtain ⟨id, hid, ⟨hnone, hs⟩ | ⟨row, hrow, hstate, rfl⟩⟩ := Store.releaseDelivery_ok h
  · rw [receiptKey_eq hid]
    exact .inl ⟨hs, by simp [Store.receipt, hnone]⟩
  · rw [receiptKey_eq hid]
    refine .inr ⟨by simp [Store.receipt, hrow, hstate], fun key => ?_⟩
    simp only [Store.receipt, Table.get?_delete]
    by_cases hkey : key = id.val
    · subst hkey
      simp [hrow, Option.filter_some, Table.key_of_get? hrow]
    · cases hget : s.deliveryReceipts.get? key with
      | none => simp [hkey]
      | some other =>
        have hother : other.deliveryId ≠ id.val := Table.key_of_get? hget ▸ hkey
        simp [hkey, Option.filter_some, hother]

/-- Whatever becomes of a store call, it takes effect or changes nothing. -/
theorem storeCall_effect {α : Type} {fate : CallFate}
    {op : Store → Except HubError (α × Store)} {result : Option α}
    (h : storeCall fate op s = (result, s')) :
    (s' = s ∧ result = none) ∨ ∃ a, op s = .ok (a, s') ∧ fate ≠ .raises ∧
      (result = some a ∨ result = none) := by
  unfold storeCall at h
  split at h
  · cases h
    exact .inl ⟨rfl, rfl⟩
  · cases h
    exact .inl ⟨rfl, rfl⟩
  · rename_i a s₁ hop
    cases h
    exact .inr ⟨a, hop, by simp, .inl rfl⟩
  · rename_i a s₁ hop
    cases h
    exact .inr ⟨a, hop, by simp, .inr rfl⟩

end

/-! ## What a step does to the receipt -/

/-- What one step of a call does to the receipts. -/
inductive ReceiptStep (request : SlackDeliveryRequest) (c : DeliveryChoice) (s s' : Store) :
    DeliveryPc → DeliveryPc → Prop
  | none {pc pc' : DeliveryPc} (same : s' = s) (kept : pc'.holds = true → pc.holds = true) :
      ReceiptStep request c s s' pc pc'
  | reserved {pc' : DeliveryPc}
      (free : s.receipt (receiptKey request.deliveryId.val) = .free)
      (write : ∀ key, s'.receipt key =
        if key = receiptKey request.deliveryId.val then .reserved else s.receipt key) :
      ReceiptStep request c s s' .reserving pc'
  | delivered {pc' : DeliveryPc}
      (reserved : s.receipt (receiptKey request.deliveryId.val) = .reserved)
      (write : ∀ key, s'.receipt key =
        if key = receiptKey request.deliveryId.val then .settled () else s.receipt key) :
      ReceiptStep request c s s' .marking pc'
  | released (error : DeliveryError) (fate : c.fate ≠ .raises)
      (reserved : s.receipt (receiptKey request.deliveryId.val) = .reserved)
      (write : ∀ key, s'.receipt key =
        if key = receiptKey request.deliveryId.val then .free else s.receipt key) :
      ReceiptStep request c s s' (.releasing error) .raised

section

variable {d : RetryingSlackDelivery} {request : SlackDeliveryRequest} {c : DeliveryChoice}
  {s s' : Store} {pc pc' : DeliveryPc}

theorem deliverNext_receipts (h : deliverNext d request c pc s = some (pc', s')) :
    ReceiptStep request c s s' pc pc' := by
  cases pc with
  | returned | raised => cases h
  | checking =>
    simp only [deliverNext] at h
    split at h <;> cases h <;> exact .none rfl (by simp [DeliveryPc.holds])
  | sending attempt =>
    simp only [deliverNext] at h
    repeat' split at h
    all_goals
      cases h
      exact .none rfl fun _ => rfl
  | sleeping attempt =>
    simp only [deliverNext] at h
    split_ifs at h <;> cases h <;> exact .none rfl fun _ => rfl
  | reserving =>
    simp only [deliverNext] at h
    generalize hcall : storeCall c.fate _ s = r at h
    obtain ⟨result, s₁⟩ := r
    obtain ⟨rfl, rfl⟩ | ⟨b, hop, _, hresult⟩ := storeCall_effect hcall
    · cases h
      exact .none rfl (by simp [DeliveryPc.holds])
    · obtain ⟨rfl, rfl, _⟩ | ⟨rfl, hfree, hwrite⟩ := receipt_reserve hop
      · rcases hresult with rfl | rfl <;> cases h <;>
          exact .none rfl (by simp [DeliveryPc.holds])
      · have hs : s₁ = s' := by rcases hresult with rfl | rfl <;> cases h <;> rfl
        subst hs
        exact .reserved hfree hwrite
  | marking =>
    simp only [deliverNext] at h
    generalize hcall : storeCall c.fate _ s = r at h
    obtain ⟨result, s₁⟩ := r
    obtain ⟨rfl, rfl⟩ | ⟨receipt, hop, _, hresult⟩ := storeCall_effect hcall
    · cases h
      exact .none rfl fun _ => rfl
    · have hs : s₁ = s' := by rcases hresult with rfl | rfl <;> cases h <;> rfl
      subst hs
      obtain ⟨rfl, _⟩ | ⟨hreserved, hwrite⟩ := receipt_mark hop
      · exact .none rfl fun _ => rfl
      · exact .delivered hreserved hwrite
  | releasing error =>
    simp only [deliverNext] at h
    generalize hcall : storeCall c.fate _ s = r at h
    obtain ⟨result, s₁⟩ := r
    cases h
    obtain ⟨rfl, _⟩ | ⟨b, hop, hfate, _⟩ := storeCall_effect hcall
    · exact .none rfl fun _ => rfl
    · obtain ⟨rfl, _⟩ | ⟨hreserved, hwrite⟩ := receipt_release hop
      · exact .none rfl fun _ => rfl
      · exact .released error hfate hreserved hwrite

/-- A step moves the call's own reservation, and leaves the other receipts alone. -/
theorem ReceiptStep.move (h : ReceiptStep request c s s' pc pc') :
    Move (s.receipt (receiptKey request.deliveryId.val)) (pc.holds = true)
        (s'.receipt (receiptKey request.deliveryId.val)) (pc'.holds = true) ∧
      ∀ key, key ≠ receiptKey request.deliveryId.val → s'.receipt key = s.receipt key := by
  cases h with
  | none same kept =>
    subst same
    exact ⟨.stay kept, fun _ _ => rfl⟩
  | reserved free write =>
    rw [free, write, if_pos rfl]
    exact ⟨.take, fun key hkey => by rw [write, if_neg hkey]⟩
  | delivered reserved write =>
    rw [reserved, write, if_pos rfl]
    exact ⟨.settle () rfl, fun key hkey => by rw [write, if_neg hkey]⟩
  | released error fate reserved write =>
    rw [reserved, write, if_pos rfl]
    exact ⟨.drop rfl (by simp [DeliveryPc.holds]), fun key hkey => by rw [write, if_neg hkey]⟩

/-- After the send the call only records the delivery, or gives up. -/
theorem deliverNext_hasSent (h : deliverNext d request c pc s = some (pc', s'))
    (hsent : pc.hasSent = true) : pc'.holds = true → pc'.hasSent = true := by
  cases pc with
  | marking =>
    simp only [deliverNext] at h
    split at h <;> cases h <;> simp [DeliveryPc.holds, DeliveryPc.hasSent]
  | releasing error =>
    cases h
    simp [DeliveryPc.holds]
  | _ => simp [DeliveryPc.hasSent] at hsent

end

/-! ## Interleavings -/

/-- The store, and the `deliver` calls on it. -/
structure Deliveries (ι : Type) where
  store : Store
  calls : ι → DeliveryPc

/-- Who takes a step: a call, or somebody who writes to the store, but not to its receipts. -/
inductive DeliveryLabel (ι : Type) where
  | call (i : ι) (c : DeliveryChoice)
  | other (store : Store)

namespace RetryingSlackDelivery

variable {ι : Type} [DecidableEq ι]

def next (d : RetryingSlackDelivery) (requests : ι → SlackDeliveryRequest)
    (s : Deliveries ι) : DeliveryLabel ι → Option (Deliveries ι)
  | .call i c => (deliverNext d (requests i) c (s.calls i) s.store).map fun r =>
    ⟨r.2, Function.update s.calls i r.1⟩
  | .other store =>
    if store.deliveryReceipts = s.store.deliveryReceipts then some { s with store } else none

/-- Any number of calls, the call `i` with the request `requests i`. -/
def system (d : RetryingSlackDelivery) (requests : ι → SlackDeliveryRequest) :
    System (Deliveries ι) (DeliveryLabel ι) :=
  .ofNext (fun s => ∀ i, s.calls i = .checking) (d.next requests)

end RetryingSlackDelivery

/-- A call drops the reservation of a message that has gone out. -/
def ReleasesSent {ι : Type} (requests : ι → SlackDeliveryRequest) (s : Deliveries ι) :
    DeliveryLabel ι → Prop
  | .call i c => s.calls i = .releasing .notRecorded ∧ c.fate ≠ .raises ∧
    s.store.receipt (receiptKey (requests i).deliveryId.val) = .reserved
  | .other _ => False

instance {ι : Type} (requests : ι → SlackDeliveryRequest) (s : Deliveries ι) :
    (a : DeliveryLabel ι) → Decidable (ReleasesSent requests s a)
  | .call _ _ => inferInstanceAs (Decidable (_ ∧ _ ∧ _))
  | .other _ => inferInstanceAs (Decidable False)

namespace RetryingSlackDelivery

variable {ι : Type} [DecidableEq ι]

/-- The runs in which no call drops the reservation of a message that has gone out. -/
def keepsSent (d : RetryingSlackDelivery) (requests : ι → SlackDeliveryRequest) :
    System (Deliveries ι) (DeliveryLabel ι) :=
  (d.system requests).guard fun s a => ¬ ReleasesSent requests s a

end RetryingSlackDelivery

/-! ## One receipt -/

section

variable {ι : Type} [DecidableEq ι] {d : RetryingSlackDelivery}
  {requests : ι → SlackDeliveryRequest} {s s' u v : Deliveries ι} {a : DeliveryLabel ι}
  {key : String} {i j : ι}

/-- The receipt `key`, and the calls that hold it. -/
def Deliveries.view (requests : ι → SlackDeliveryRequest) (key : String)
    (s : Deliveries ι) : Reservation.State ι Unit where
  cell := s.store.receipt key
  holds i := receiptKey (requests i).deliveryId.val = key ∧ (s.calls i).holds = true

/-- Each step of the calls is a move on one receipt. -/
theorem view_step (key : String) (hstep : (d.system requests).step s a s') :
    ∃ b, (Reservation.system ι Unit).step (s.view requests key) b (s'.view requests key) := by
  have h : d.next requests s a = some s' := hstep
  cases a with
  | other store =>
    refine ⟨none, ?_⟩
    simp only [RetryingSlackDelivery.next] at h
    split_ifs at h with hsame
    cases h
    simp only [Reservation.system, Deliveries.view, Store.receipt, hsame]
  | call i c =>
    obtain ⟨⟨pc, store⟩, hnext, rfl⟩ := Option.map_eq_some_iff.1 h
    obtain ⟨hmove, hothers⟩ := (deliverNext_receipts hnext).move
    by_cases hkey : receiptKey (requests i).deliveryId.val = key
    · refine ⟨some i, ?_, fun j hj => ?_⟩
      · subst hkey
        simpa [Deliveries.view] using hmove
      · simp [Deliveries.view, Function.update_of_ne hj]
    · refine ⟨none, ?_⟩
      have hholds : (fun j => receiptKey (requests j).deliveryId.val = key ∧
          (Function.update s.calls i pc j).holds = true) =
          fun j => receiptKey (requests j).deliveryId.val = key ∧ (s.calls j).holds = true := by
        funext j
        by_cases hj : j = i
        · subst hj
          simp [hkey]
        · rw [Function.update_of_ne hj]
      simp only [Reservation.system, Deliveries.view, hholds, hothers key (Ne.symm hkey)]

theorem view_sound (h : (d.system requests).Reachable s) (key : String) :
    Sound (s.view requests key) := by
  refine Reservation.reachable_sound (System.Reachable.map (f := fun s => s.view requests key)
    ?_ (fun _ _ _ _ hstep => view_step key hstep) h)
  intro s hs i hi
  have hholds := hi.2
  rw [hs i] at hholds
  cases hholds

/-! ## Once a message has gone out -/

/-- A message for `key` has gone out: the receipt is taken, and a call that holds it has sent. -/
structure SentFor (requests : ι → SlackDeliveryRequest) (key : String)
    (s : Deliveries ι) : Prop where
  taken : s.store.receipt key ≠ .free
  hasSent : ∀ i, receiptKey (requests i).deliveryId.val = key → (s.calls i).holds = true →
    (s.calls i).hasSent = true

/-- The send of the call `i` returns. -/
def Sends (i : ι) (s s' : Deliveries ι) : Prop :=
  (s.calls i).isSending = true ∧ s'.calls i = .marking

theorem SentFor.of_sends (hs : (d.system requests).Reachable s')
    (h : Sends i s s') : SentFor requests (receiptKey (requests i).deliveryId.val) s' := by
  have hsound := view_sound hs (receiptKey (requests i).deliveryId.val)
  have hholds : (s'.view requests (receiptKey (requests i).deliveryId.val)).holds i :=
    ⟨rfl, by rw [h.2]; rfl⟩
  constructor
  · exact hsound.not_free i hholds
  · intro j hkey hj
    have hji : j = i := hsound.unique j i ⟨hkey, hj⟩ hholds
    rw [hji, h.2]
    rfl

/-- Once a message has gone out, no step sends one for the same receipt. -/
theorem SentFor.step (h : SentFor requests key s)
    (hstep : (d.keepsSent requests).step s a s') : SentFor requests key s' := by
  obtain ⟨hkeeps, hstep⟩ := hstep
  have hnext : d.next requests s a = some s' := hstep
  cases a with
  | other store =>
    simp only [RetryingSlackDelivery.next] at hnext
    split_ifs at hnext with hsame
    cases hnext
    have hreceipt : store.receipt key = s.store.receipt key := by
      simp only [Store.receipt, hsame]
    exact ⟨hreceipt ▸ h.taken, h.hasSent⟩
  | call j c =>
    obtain ⟨⟨pc, store⟩, hcall, rfl⟩ := Option.map_eq_some_iff.1 hnext
    have hreceipts := deliverNext_receipts hcall
    have hsent : receiptKey (requests j).deliveryId.val = key → (s.calls j).holds = true →
        pc.holds = true → pc.hasSent = true := fun hkey hholds =>
      deliverNext_hasSent hcall (h.hasSent j hkey hholds)
    have hothers : ∀ i, receiptKey (requests i).deliveryId.val = key →
        (i = j → pc.holds = true → pc.hasSent = true) →
        (Function.update s.calls j pc i).holds = true →
        (Function.update s.calls j pc i).hasSent = true := by
      intro i hkey hself
      by_cases hij : i = j
      · subst hij
        simpa using hself rfl
      · rw [Function.update_of_ne hij]
        exact h.hasSent i hkey
    generalize hpc : s.calls j = before at hreceipts
    rw [hpc] at hsent
    cases hreceipts with
    | none same kept =>
      cases same
      exact ⟨h.taken, fun i hkey => hothers i hkey fun hij hpc =>
        hsent (hij ▸ hkey) (kept hpc) hpc⟩
    | reserved free write =>
      by_cases hkey : key = receiptKey (requests j).deliveryId.val
      · exact absurd (hkey ▸ free) h.taken
      · refine ⟨by rw [write, if_neg hkey]; exact h.taken, fun i hi => hothers i hi ?_⟩
        intro hij _
        exact absurd (hij ▸ hi).symm hkey
    | delivered reserved write =>
      refine ⟨?_, fun i hi => hothers i hi fun hij hpc => hsent (hij ▸ hi) rfl hpc⟩
      rw [write]
      split_ifs
      · simp
      · exact h.taken
    | released error fate reserved write =>
      by_cases hkey : key = receiptKey (requests j).deliveryId.val
      · have hnotRecorded := h.hasSent j hkey.symm (by rw [hpc]; rfl)
        rw [hpc] at hnotRecorded
        cases error with
        | notSent => cases hnotRecorded
        | notRecorded => exact absurd ⟨hpc, fate, reserved⟩ hkeeps
      · refine ⟨by rw [write, if_neg hkey]; exact h.taken, fun i hi => hothers i hi ?_⟩
        intro _ hpc
        cases hpc

/-- As long as no call drops the reservation of a message that has gone out, nothing is sent for
a delivery id once a send for it has returned. -/
theorem not_sent_again {as : List (DeliveryLabel ι)} (hs : (d.keepsSent requests).Reachable s)
    (hstep : (d.keepsSent requests).step s a u) (hsends : Sends i s u)
    (hr : (d.keepsSent requests).Run u as v)
    (hid : (requests j).deliveryId = (requests i).deliveryId) :
    (v.calls j).isSending = false := by
  have hu : SentFor requests (receiptKey (requests i).deliveryId.val) u :=
    .of_sends (hs.of_guard.step hstep.2) hsends
  have hv := hr.keeps (I := SentFor requests (receiptKey (requests i).deliveryId.val))
    (fun _ _ _ h hstep => h.step hstep) hu
  have hsent := hv.hasSent j (by rw [hid])
  cases hpc : v.calls j with
  | sending attempt =>
    rw [hpc] at hsent
    cases hsent rfl
  | _ => rfl

end

/-! ## A message that goes out twice -/

namespace Sample

def answer : SlackDeliveryRequest where
  deliveryId := ⟨"slack-event:Ev1:gateway-response", by decide⟩
  route := { channel := ⟨"C1", by decide⟩ }
  text := ⟨"Task TASK-1 created.", by decide⟩

def delivery : RetryingSlackDelivery := ⟨3, by decide⟩

/-- A step of a call in an environment in which everything goes well. -/
def delivers (i : Fin 2) (n : Int) : DeliveryLabel (Fin 2) := .call i { time := ⟨n, 0⟩ }

def twoDeliveries : Deliveries (Fin 2) := ⟨.empty, fun _ => .checking⟩

/-- Recording the delivery fails, the receipt is released, and the second call sends. -/
def unrecorded : List (DeliveryLabel (Fin 2)) :=
  [.call first { time := ⟨4, 0⟩, fate := .raises }, delivers first 5, delivers second 6,
    delivers second 7]

end Sample

open Sample in
/-- The first call sends and records the delivery, and the second finds the receipt. -/
theorem not_sent_again_sample :
    let next := System.guardNext (fun s a => ¬ ReleasesSent (fun _ => answer) s a)
      (delivery.next fun _ => answer)
    let s := System.execD next twoDeliveries [delivers 0 1, delivers 0 2]
    let u := System.execD next s [delivers 0 3]
    let v := System.execD next u [delivers 0 4, delivers 1 5]
    (v.calls 1).isSending = false := by
  intro next s u v
  have hM : delivery.keepsSent (fun _ : Fin 2 => answer) = System.ofNext _ next :=
    System.ofNext_guard
  have hs : (delivery.keepsSent fun _ => answer).Reachable s := by
    rw [hM]
    exact ⟨twoDeliveries, _, fun _ => rfl, System.run_execD (by decide +kernel)⟩
  have ha : (delivery.keepsSent fun _ => answer).step s (delivers 0 3) u := by
    rw [hM]
    exact System.step_execD (by decide +kernel)
  have hsends : Sends 0 s u := ⟨by decide +kernel, by decide +kernel⟩
  have hr : (delivery.keepsSent fun _ => answer).Run u [delivers 0 4, delivers 1 5] v := by
    rw [hM]
    exact System.run_execD (by decide +kernel)
  exact not_sent_again hs ha hsends hr rfl

open Sample in
/-- Recording the delivery fails, the handler releases the receipt, and the next delivery sends
the message again. -/
theorem sent_again : ¬ ∀ (d : RetryingSlackDelivery) (requests : Fin 2 → SlackDeliveryRequest)
    (s u v : Deliveries (Fin 2)) (a : DeliveryLabel (Fin 2)) (as : List (DeliveryLabel (Fin 2)))
    (i j : Fin 2), (d.system requests).Reachable s → (d.system requests).step s a u →
    Sends i s u → (d.system requests).Run u as v →
    (requests j).deliveryId = (requests i).deliveryId → (v.calls j).isSending = false := by
  intro h
  let next := delivery.next fun _ : Fin 2 => answer
  let s := System.execD next twoDeliveries [delivers 0 1, delivers 0 2]
  let u := System.execD next s [delivers 0 3]
  have hquiet := h delivery (fun _ => answer) s u (System.execD next u unrecorded)
    (delivers 0 3) unrecorded 0 1
    ⟨twoDeliveries, _, fun _ => rfl, System.run_execD (by decide +kernel)⟩
    (System.step_execD (by decide +kernel)) ⟨by decide +kernel, by decide +kernel⟩
    (System.run_execD (by decide +kernel)) rfl
  have hsending : ((System.execD next u unrecorded).calls 1).isSending = true := by
    decide +kernel
  exact Bool.false_ne_true (hquiet.symm.trans hsending)

end AIHub
