import AIHub.Slack.Delivery
import Mathlib.Data.Fintype.Basic

/-!
# Deliveries across restarts

A process that delivers may die at any moment, with messages sent and not recorded. The next one
drops every reservation that it finds (`receipts.reconcile_interrupted`) and delivers again.

Beside the receipts a process here counts, for each of them, the sends that have returned and the
reservations that are dropped although the send had returned. Between the two stands the receipt:
it is delivered, or reserved for a message that has gone out.

* `sent_accounted`: over every run, with crashes and restarts in any order, the sends that have
  returned are the ones that were forgotten, and one more if the receipt has become delivered or
  is reserved for a message that has gone out. So a delivered receipt stands for a message, a
  second message comes of a forgotten one, and who is told that a message is sent, or a
  duplicate, finds the receipt delivered ever after.
* `sent_once`: while no send is left unrecorded, by a crash or by the store, a message goes out
  once.
-/

namespace AIHub

open Transition Reservation

/-- What a crash leaves of a call. One that has not asked the store yet may as well be a call of
the next process. -/
def DeliveryPc.crash : DeliveryPc → DeliveryPc
  | .checking => .checking
  | .returned outcome => .returned outcome
  | .reserving | .sending _ | .sleeping _ | .marking | .releasing _ | .raised => .raised

/-! ## Messages and their receipts -/

/-- What has gone out for one receipt. -/
structure Tally where
  /-- The sends that have returned. -/
  sent : Nat := 0
  /-- The receipt is reserved, and the send has returned. -/
  unrecorded : Bool := false
  /-- The reservations that were dropped although the send had returned. -/
  forgotten : Nat := 0
  deriving DecidableEq

namespace Tally

/-- A step that leaves the receipt as `receipt`; with `out`, a send returns. -/
def next (t : Tally) (out : Bool) (receipt : Cell Unit) : Tally where
  sent := t.sent + out.toNat
  unrecorded := (t.unrecorded || out) && decide (receipt = .reserved)
  forgotten := t.forgotten + (t.unrecorded && decide (receipt = .free)).toNat

/-- What may become of a receipt at one step. -/
inductive Change (t : Tally) : Cell Unit → Bool → Cell Unit → Prop
  | same (receipt : Cell Unit) : Change t receipt false receipt
  | sends (h : t.unrecorded = false) : Change t .reserved true .reserved
  | takes : Change t .free false .reserved
  | records (h : t.unrecorded = true) : Change t .reserved false (.settled ())
  | drops : Change t .reserved false .free

/-- Of the sends that have returned, some are forgotten, and the receipt stands for one. Before the
first of them there were `before` of which the receipt knew. -/
structure Balanced (before : Nat) (t : Tally) (receipt : Cell Unit) : Prop where
  reserved : t.unrecorded = true → receipt = .reserved
  balance : t.sent + before =
    t.forgotten + (decide (receipt = .settled ())).toNat + t.unrecorded.toNat

variable {before : Nat} {t : Tally} {receipt receipt' : Cell Unit} {out : Bool}

/-- Nothing is counted while nothing happens. -/
theorem Balanced.next_same (h : Balanced before t receipt) : t.next false receipt = t := by
  obtain ⟨sent, unrecorded, forgotten⟩ := t
  cases unrecorded with
  | false => simp [next]
  | true => simp [next, h.reserved rfl]

theorem Balanced.change (h : Balanced before t receipt) (hchange : Change t receipt out receipt') :
    Balanced before (t.next out receipt') receipt' := by
  refine ⟨fun hunrecorded => ?_, ?_⟩
  · simp only [next, Bool.and_eq_true, decide_eq_true_eq] at hunrecorded
    exact hunrecorded.2
  · have hbalance := h.balance
    cases hchange with
    | same => rw [h.next_same, hbalance]
    | sends hu =>
      simp [next, hu] at hbalance ⊢
      omega
    | takes =>
      have hu : t.unrecorded = false := by
        rw [Bool.eq_false_iff]
        intro hu
        cases h.reserved hu
      simpa [next, hu] using hbalance
    | records hu => simpa [next, hu] using hbalance
    | drops => simpa [next] using hbalance

/-- What a call that holds the receipt knows of it. -/
def Knows (t : Tally) (receipt : Cell Unit) (pc : DeliveryPc) : Prop :=
  receipt = .reserved ∧ t.unrecorded = pc.hasSent ∨ receipt = .settled () ∧ pc.hasSent = true

end Tally

/-- The deliveries, and for each receipt what has gone out. -/
structure SlackProcess (ι : Type) extends Deliveries ι where
  up : Bool
  tally : String → Tally

def DeliveryLabel.isCall {ι : Type} : DeliveryLabel ι → Bool
  | call _ _ => true
  | other _ => false

inductive ProcessLabel (ι : Type) where
  | step (a : DeliveryLabel ι)
  | crash
  /-- `receipts.reconcile_interrupted`. -/
  | restart (fate : CallFate)

/-- A send for the receipt `key` returns. -/
def goneOut {ι : Type} (requests : ι → SlackDeliveryRequest) (s s' : Deliveries ι) (key : String) :
    DeliveryLabel ι → Bool
  | .call i _ => receiptKey (requests i).deliveryId.val = key ∧ (s.calls i).isSending = true ∧
    s'.calls i = .marking
  | .other _ => false

namespace SlackProcess

variable {ι : Type}

def delivered (p : SlackProcess ι) (key : String) : Bool := p.store.receipt key = .settled ()

/-- Count what a step to `s` does. -/
def record (p : SlackProcess ι) (out : String → Bool) (s : Deliveries ι) : SlackProcess ι where
  toDeliveries := s
  up := p.up
  tally key := (p.tally key).next (out key) (s.store.receipt key)

variable [DecidableEq ι]

def next (d : RetryingSlackDelivery) (requests : ι → SlackDeliveryRequest) (p : SlackProcess ι) :
    ProcessLabel ι → Option (SlackProcess ι)
  | .step a =>
    if p.up ∨ a.isCall = false then
      (d.next requests p.toDeliveries a).map fun s =>
        p.record (goneOut requests p.toDeliveries s · a) s
    else none
  | .crash => some { p with up := false, calls := fun i => (p.calls i).crash }
  | .restart fate =>
    if p.up then none
    else
      let (ids, store) := storeCall fate Store.reconcileReservedDeliveries p.store
      some { p.record (fun _ => false) { p.toDeliveries with store } with up := ids.isSome }

/-- Nothing has gone out, whatever earlier processes have left in the store. -/
def system (d : RetryingSlackDelivery) (requests : ι → SlackDeliveryRequest) :
    System (SlackProcess ι) (ProcessLabel ι) :=
  .ofNext (fun p => (∀ i, p.calls i = .checking) ∧ ∀ key, p.tally key = {}) (next d requests)

end SlackProcess

/-! ## Steps of a call -/

section

variable {d : RetryingSlackDelivery} {request : SlackDeliveryRequest} {c : DeliveryChoice}
  {s s' : Store} {pc pc' : DeliveryPc}

/-- Who has sent has just sent, or had sent before. -/
theorem deliverNext_sends (h : deliverNext d request c pc s = some (pc', s'))
    (hsent : pc'.hasSent = true) :
    pc.hasSent = true ∨ pc.isSending = true ∧ pc' = .marking := by
  cases pc with
  | marking => exact .inl rfl
  | sending attempt =>
    refine .inr ⟨rfl, ?_⟩
    simp only [deliverNext] at h
    split at h
    · cases h
      rfl
    · cases h
      cases hsent
    · split_ifs at h <;> cases h <;> cases hsent
  | releasing | returned | raised =>
    cases h <;> cases hsent
  | checking | reserving =>
    simp only [deliverNext] at h
    split at h <;> cases h <;> cases hsent
  | sleeping attempt =>
    simp only [deliverNext] at h
    split_ifs at h <;> cases h <;> cases hsent

/-- Who is told that a message is sent, or a duplicate, finds the receipt delivered. -/
theorem deliverNext_returned (h : deliverNext d request c pc s = some (pc', s'))
    (hpc : pc' = .returned .sent ∨ pc' = .returned .duplicate) :
    s'.receipt (receiptKey request.deliveryId.val) = .settled () := by
  cases pc with
  | returned | raised => cases h
  | releasing error =>
    cases h
    simp at hpc
  | checking =>
    simp only [deliverNext] at h
    split at h
    · rename_i hdelivered
      cases h
      exact (isDeliveryDelivered_eq_ok.1 hdelivered).2.1 rfl
    · cases h
      simp at hpc
    · cases h
      simp at hpc
  | reserving =>
    simp only [deliverNext] at h
    split at h <;> cases h <;> simp at hpc
  | sending attempt =>
    simp only [deliverNext] at h
    split at h
    · cases h
      simp at hpc
    · cases h
      simp at hpc
    · split_ifs at h <;> cases h <;> simp at hpc
  | sleeping attempt =>
    simp only [deliverNext] at h
    split_ifs at h <;> cases h <;> simp at hpc
  | marking =>
    simp only [deliverNext] at h
    split at h
    · rename_i receipt store hcall
      cases h
      obtain ⟨-, hnone⟩ | ⟨receipt', hop, -, -⟩ := storeCall_effect hcall
      · cases hnone
      · obtain ⟨rfl, hsettled⟩ | ⟨-, hwrite⟩ := receipt_mark hop
        · exact hsettled
        · rw [hwrite, if_pos rfl]
    · cases h
      simp at hpc

/-- A step of a call changes no delivered receipt. -/
theorem ReceiptStep.settled {key : String} (h : ReceiptStep request c s s' pc pc')
    (hkey : s.receipt key = .settled ()) : s'.receipt key = .settled () := by
  cases h with
  | none same kept => rw [same, hkey]
  | reserved free write =>
    rw [write, if_neg fun heq => ?_, hkey]
    rw [heq, free] at hkey
    cases hkey
  | delivered reserved write =>
    rw [write]
    split_ifs
    · rfl
    · exact hkey
  | released error fate reserved write =>
    rw [write, if_neg fun heq => ?_, hkey]
    rw [heq, reserved] at hkey
    cases hkey

end

/-- Only a call that releases frees a receipt. -/
theorem ReceiptStep.freed {request : SlackDeliveryRequest} {c : DeliveryChoice} {s s' : Store}
    {pc pc' : DeliveryPc} {key : String} (h : ReceiptStep request c s s' pc pc')
    (hreserved : s.receipt key = .reserved) (hfree : s'.receipt key = .free) :
    receiptKey request.deliveryId.val = key ∧ ∃ error, pc = .releasing error := by
  cases h with
  | none same kept =>
    rw [same, hreserved] at hfree
    cases hfree
  | reserved free write | delivered free write =>
    rw [write] at hfree
    split_ifs at hfree
    rw [hreserved] at hfree
    cases hfree
  | released error fate reserved write =>
    rw [write] at hfree
    split_ifs at hfree with hkey
    · exact ⟨hkey.symm, error, rfl⟩
    · rw [hreserved] at hfree
      cases hfree

/-- A restart frees the reserved receipts. -/
theorem receipt_reconcile {s s' : Store} {ids : List String}
    (h : Store.reconcileReservedDeliveries s = .ok (ids, s')) (key : String) :
    s'.receipt key = if s.receipt key = .reserved then .free else s.receipt key := by
  cases h
  cases hget : s.deliveryReceipts.get? key with
  | none =>
    have hfree : s.receipt key = .free := receipt_eq_free.2 hget
    rw [if_neg (by simp [hfree]), hfree, receipt_eq_free]
    simp [Table.get?_delete, hget]
  | some row =>
    cases hstate : row.state with
    | reserved =>
      have hreserved : s.receipt key = .reserved := by simp [Store.receipt, hget, hstate]
      rw [if_pos hreserved, receipt_eq_free]
      simp [Table.get?_delete, hget, hstate, Option.filter_some]
    | delivered =>
      have hsettled : s.receipt key = .settled () := by simp [Store.receipt, hget, hstate]
      rw [if_neg (by simp [hsettled]), hsettled]
      simp [Store.receipt, Table.get?_delete, hget, hstate, Option.filter_some]

/-! ## The account of a receipt -/

section

variable {d : RetryingSlackDelivery} {request : SlackDeliveryRequest} {c : DeliveryChoice}
  {s s' : Store} {pc pc' : DeliveryPc} {t : Tally}

/-- What a step of a call does to its own receipt. -/
theorem deliverNext_change (h : deliverNext d request c pc s = some (pc', s')) {before : Nat}
    (ht : t.Balanced before (s.receipt (receiptKey request.deliveryId.val)))
    (hknows : pc.holds = true → t.Knows (s.receipt (receiptKey request.deliveryId.val)) pc) :
    let out := decide (pc.isSending = true ∧ pc' = .marking)
    let after := s'.receipt (receiptKey request.deliveryId.val)
    t.Change (s.receipt (receiptKey request.deliveryId.val)) out after ∧
      (pc'.holds = true → (t.next out after).Knows after pc') ∧
      (pc.holds = false → out = false ∧ after = s.receipt (receiptKey request.deliveryId.val) ∨
        s.receipt (receiptKey request.deliveryId.val) = .free) := by
  intro out after
  have hreceipts := deliverNext_receipts h
  by_cases hsends : pc.isSending = true ∧ pc' = .marking
  case pos =>
    have hout : out = true := decide_eq_true hsends
    obtain ⟨hsending, rfl⟩ := hsends
    obtain ⟨hholds, hnotSent⟩ := DeliveryPc.of_isSending hsending
    obtain ⟨hreserved, hunrecorded⟩ := (hknows hholds).resolve_right fun hsettled => by
      rw [hnotSent] at hsettled
      cases hsettled.2
    rw [hnotSent] at hunrecorded
    have hafter : after = .reserved := by
      cases hreceipts with
      | none same kept => rw [← hreserved, ← same]
      | reserved | delivered => cases hsending
    rw [hout, hafter, hreserved]
    exact ⟨.sends hunrecorded, fun _ => .inl ⟨rfl, by simp [Tally.next, DeliveryPc.hasSent]⟩,
      fun hnot => absurd (hholds.symm.trans hnot) (by simp)⟩
  case neg =>
    have hout : out = false := decide_eq_false hsends
    rw [hout]
    -- Who keeps the receipt has sent if it had.
    have hsent : pc'.hasSent = true → pc.hasSent = true := fun hsent =>
      (deliverNext_sends h hsent).resolve_right hsends
    cases hreceipts with
    | none same kept =>
      have hafter : after = s.receipt (receiptKey request.deliveryId.val) :=
        congrArg (Store.receipt · _) same
      rw [hafter, ht.next_same]
      refine ⟨.same _, fun hholds => ?_, fun _ => .inl ⟨rfl, rfl⟩⟩
      have hsame : pc'.hasSent = pc.hasSent :=
        Bool.eq_iff_iff.2 ⟨hsent, fun hsent => deliverNext_hasSent h hsent hholds⟩
      rw [Tally.Knows, hsame]
      exact hknows (kept hholds)
    | reserved free write =>
      have hafter : after = .reserved := (write _).trans (if_pos rfl)
      rw [hafter, free]
      refine ⟨.takes, fun hholds => .inl ⟨rfl, ?_⟩, fun _ => .inr rfl⟩
      have hunrecorded : t.unrecorded = false := by
        rw [Bool.eq_false_iff]
        intro hu
        cases free.symm.trans (ht.reserved hu)
      have hnotSent : pc'.hasSent = false := Bool.eq_false_iff.2 fun hs => by cases hsent hs
      simp [Tally.next, hunrecorded, hnotSent]
    | delivered reserved write =>
      have hafter : after = .settled () := (write _).trans (if_pos rfl)
      obtain ⟨-, hunrecorded⟩ := (hknows rfl).resolve_right fun hsettled => by
        rw [reserved] at hsettled
        cases hsettled.1
      rw [hafter, reserved]
      exact ⟨.records hunrecorded, fun hholds => .inr ⟨rfl, deliverNext_hasSent h rfl hholds⟩,
        fun hnot => absurd hnot (by simp [DeliveryPc.holds])⟩
    | released error fate reserved write =>
      have hafter : after = .free := (write _).trans (if_pos rfl)
      rw [hafter, reserved]
      exact ⟨.drops, fun hholds => absurd hholds Bool.false_ne_true,
        fun hnot => absurd hnot (by simp [DeliveryPc.holds])⟩

end

section

variable {ι : Type} {d : RetryingSlackDelivery} {requests : ι → SlackDeliveryRequest}
  {first p q : SlackProcess ι} {a : ProcessLabel ι} {key : String}

/-- What has gone out for the receipt `key` since `first`, and who knows of it. -/
structure Accounted (requests : ι → SlackDeliveryRequest) (first : SlackProcess ι) (key : String)
    (p : SlackProcess ι) : Prop where
  sound : Sound (p.toDeliveries.view requests key)
  /-- Nobody delivers while the process is down. -/
  down : p.up = false → ∀ i, (p.calls i).holds = false
  balanced : (p.tally key).Balanced (first.delivered key).toNat (p.store.receipt key)
  knows : ∀ i, receiptKey (requests i).deliveryId.val = key → (p.calls i).holds = true →
    (p.tally key).Knows (p.store.receipt key) (p.calls i)
  returned : ∀ i, receiptKey (requests i).deliveryId.val = key →
    p.calls i = .returned .sent ∨ p.calls i = .returned .duplicate → p.delivered key = true

theorem Accounted.init (hcalls : ∀ i, first.calls i = .checking)
    (htally : ∀ key, first.tally key = {}) (key : String) :
    Accounted requests first key first := by
  have hholds : ∀ i, (first.calls i).holds = false := fun i => by
    rw [hcalls i]
    rfl
  have hview : ∀ i, ¬ (first.toDeliveries.view requests key).holds i := fun i hi =>
    Bool.false_ne_true ((hholds i).symm.trans hi.2)
  refine ⟨⟨fun i hi => absurd hi (hview i), fun i _ hi => absurd hi (hview i)⟩, fun _ => hholds,
    ?_, fun i _ hi => absurd ((hholds i).symm.trans hi) Bool.false_ne_true, fun i _ hi => ?_⟩
  · rw [htally key]
    exact ⟨fun h => absurd h Bool.false_ne_true, by simp [SlackProcess.delivered]⟩
  · rw [hcalls i] at hi
    simp at hi

/-- A step that is none of the receipt's. -/
theorem Accounted.frame (h : Accounted requests first key p)
    (hsound : Sound (q.toDeliveries.view requests key))
    (hdown : q.up = false → ∀ i, (q.calls i).holds = false)
    (hreceipt : q.store.receipt key = p.store.receipt key) (htally : q.tally key = p.tally key)
    (hcalls : ∀ i, receiptKey (requests i).deliveryId.val = key → q.calls i = p.calls i) :
    Accounted requests first key q where
  sound := hsound
  down := hdown
  balanced := by
    rw [htally, hreceipt]
    exact h.balanced
  knows i hi hholds := by
    rw [hcalls i hi] at hholds ⊢
    rw [htally, hreceipt]
    exact h.knows i hi hholds
  returned i hi hpc := by
    rw [SlackProcess.delivered, hreceipt]
    exact h.returned i hi (hcalls i hi ▸ hpc)

/-- A step after which nobody holds a receipt. -/
theorem Accounted.abandoned (h : Accounted requests first key p)
    (hholds : ∀ i, (q.calls i).holds = false)
    (hbalanced : (q.tally key).Balanced (first.delivered key).toNat (q.store.receipt key))
    (hreturned : ∀ i, q.calls i = .returned .sent ∨ q.calls i = .returned .duplicate →
      q.calls i = p.calls i)
    (hdelivered : p.delivered key = true → q.delivered key = true) :
    Accounted requests first key q where
  sound :=
    have hnobody : ∀ i, ¬ (q.toDeliveries.view requests key).holds i := fun i hi =>
      Bool.false_ne_true ((hholds i).symm.trans hi.2)
    ⟨fun i hi => absurd hi (hnobody i), fun i _ hi => absurd hi (hnobody i)⟩
  down _ := hholds
  balanced := hbalanced
  knows i _ hi := absurd ((hholds i).symm.trans hi) Bool.false_ne_true
  returned i hi hpc := hdelivered (h.returned i hi (hreturned i hpc ▸ hpc))

variable [DecidableEq ι]

/-- A call takes a step. -/
theorem Accounted.call (h : Accounted requests first key p) {i : ι} {c : DeliveryChoice}
    {pc : DeliveryPc} {store : Store} (hup : p.up = true)
    (hnext : deliverNext d (requests i) c (p.calls i) p.store = some (pc, store)) :
    let s : Deliveries ι := ⟨store, Function.update p.calls i pc⟩
    Accounted requests first key
      (p.record (goneOut requests p.toDeliveries s · (.call i c)) s) := by
  intro s
  have hself : s.calls i = pc := Function.update_self ..
  have hother : ∀ j, j ≠ i → s.calls j = p.calls j := fun j hj => Function.update_of_ne hj ..
  have hstep : (d.system requests).step p.toDeliveries (.call i c) s :=
    Option.map_eq_some_iff.2 ⟨(pc, store), hnext, rfl⟩
  obtain ⟨b, hview⟩ := view_step key hstep
  have hreceipts := deliverNext_receipts hnext
  have hout : goneOut requests p.toDeliveries s key (.call i c) =
      decide (receiptKey (requests i).deliveryId.val = key ∧ (p.calls i).isSending = true ∧
        pc = .marking) := by
    rw [goneOut, hself]
  have hreturned : ∀ j, receiptKey (requests j).deliveryId.val = key →
      s.calls j = .returned .sent ∨ s.calls j = .returned .duplicate →
      store.receipt key = .settled () := by
    intro j hj hpc
    by_cases hji : j = i
    · subst hji
      rw [hself] at hpc
      exact hj ▸ deliverNext_returned hnext hpc
    · rw [hother j hji] at hpc
      exact hreceipts.settled (of_decide_eq_true (h.returned j hj hpc))
  by_cases hkey : receiptKey (requests i).deliveryId.val = key
  case neg =>
    have hstore : store.receipt key = p.store.receipt key := hreceipts.move.2 key (Ne.symm hkey)
    have htally : (p.tally key).next (goneOut requests p.toDeliveries s key (.call i c))
        (store.receipt key) = p.tally key := by
      rw [hout, hstore, decide_eq_false fun hsends => hkey hsends.1, h.balanced.next_same]
    refine h.frame (h.sound.step hview) (fun hdown => absurd (hup.symm.trans hdown) (by simp))
      hstore htally fun j hj => hother j ?_
    rintro rfl
    exact hkey hj
  case pos =>
    have hknows := h.knows i hkey
    have hbalanced := h.balanced
    subst hkey
    obtain ⟨hchange, hafter, hnothing⟩ := deliverNext_change hnext hbalanced hknows
    simp only [true_and] at hout
    rw [← hout] at hchange hafter hnothing
    refine ⟨h.sound.step hview, fun hdown => absurd (hup.symm.trans hdown) (by simp),
      hbalanced.change hchange, fun j hj hholds => ?_,
      fun j hj hpc => decide_eq_true (hreturned j hj hpc)⟩
    show Tally.Knows (Tally.next ..) (store.receipt _) (s.calls j)
    by_cases hji : j = i
    · subst hji
      rw [hself]
      exact hafter (hself ▸ hholds)
    · have hcalls : s.calls j = p.calls j := hother j hji
      have hbefore : (p.calls j).holds = true := hcalls ▸ hholds
      have hfree : p.store.receipt (receiptKey (requests i).deliveryId.val) ≠ .free :=
        h.sound.not_free j ⟨hj, hbefore⟩
      -- Only one call holds the receipt, so the step is none of the receipt's.
      have hi : (p.calls i).holds = false := by
        rw [Bool.eq_false_iff]
        exact fun hi => hji (h.sound.unique j i ⟨hj, hbefore⟩ ⟨rfl, hi⟩)
      obtain ⟨hquiet, hsame⟩ := (hnothing hi).resolve_right hfree
      have htally := hbalanced.next_same
      rw [← hquiet, ← hsame] at htally
      rw [htally, hsame, hcalls]
      exact h.knows j hj hbefore

/-- A delivered receipt stays delivered. -/
theorem delivered_step (hstep : (SlackProcess.system d requests).step p a q)
    (hdelivered : p.delivered key = true) : q.delivered key = true := by
  have hnext : SlackProcess.next d requests p a = some q := hstep
  have hsettled : p.store.receipt key = .settled () := of_decide_eq_true hdelivered
  refine decide_eq_true ?_
  cases a with
  | step a =>
    simp only [SlackProcess.next] at hnext
    split_ifs at hnext
    obtain ⟨s, hs, rfl⟩ := Option.map_eq_some_iff.1 hnext
    show s.store.receipt key = .settled ()
    cases a with
    | call i c =>
      obtain ⟨⟨pc, store⟩, hcall, rfl⟩ := Option.map_eq_some_iff.1 hs
      exact (deliverNext_receipts hcall).settled hsettled
    | other store =>
      simp only [RetryingSlackDelivery.next] at hs
      split_ifs at hs with hsame
      cases hs
      rw [← hsettled]
      simp only [Store.receipt, hsame]
  | crash =>
    cases hnext
    exact hsettled
  | restart fate =>
    simp only [SlackProcess.next] at hnext
    split_ifs at hnext
    generalize hcall : storeCall fate Store.reconcileReservedDeliveries p.store = r at hnext
    obtain ⟨ids, store⟩ := r
    cases hnext
    show store.receipt key = .settled ()
    obtain ⟨rfl, -⟩ | ⟨_, hop, -, -⟩ := storeCall_effect hcall
    · exact hsettled
    · rw [receipt_reconcile hop, hsettled]
      rfl

theorem Accounted.step (h : Accounted requests first key p)
    (hstep : (SlackProcess.system d requests).step p a q) : Accounted requests first key q := by
  have hnext : SlackProcess.next d requests p a = some q := hstep
  cases a with
  | step a =>
    simp only [SlackProcess.next] at hnext
    split_ifs at hnext with hup
    obtain ⟨s, hs, rfl⟩ := Option.map_eq_some_iff.1 hnext
    cases a with
    | call i c =>
      obtain ⟨⟨pc, store⟩, hcall, rfl⟩ := Option.map_eq_some_iff.1 hs
      exact h.call (hup.resolve_right (by simp [DeliveryLabel.isCall])) hcall
    | other store =>
      simp only [RetryingSlackDelivery.next] at hs
      split_ifs at hs with hsame
      cases hs
      have hreceipt : store.receipt key = p.store.receipt key := by simp only [Store.receipt, hsame]
      have htally : (p.tally key).next false (store.receipt key) = p.tally key := by
        rw [hreceipt, h.balanced.next_same]
      refine h.frame ⟨?_, h.sound.unique⟩ h.down hreceipt htally fun _ _ => rfl
      intro i hi
      show store.receipt key ≠ .free
      rw [hreceipt]
      exact h.sound.not_free i hi
  | crash =>
    cases hnext
    have hcrash : ∀ pc : DeliveryPc, pc.crash.holds = false ∧
        (pc.crash = .returned .sent ∨ pc.crash = .returned .duplicate → pc.crash = pc) := by
      intro pc
      cases pc <;> simp [DeliveryPc.crash, DeliveryPc.holds]
    exact h.abandoned (fun i => (hcrash (p.calls i)).1) h.balanced
      (fun i => (hcrash (p.calls i)).2) id
  | restart fate =>
    simp only [SlackProcess.next] at hnext
    split_ifs at hnext with hup
    have hdown := h.down (Bool.eq_false_iff.2 hup)
    generalize hcall : storeCall fate Store.reconcileReservedDeliveries p.store = r at hnext
    obtain ⟨ids, store⟩ := r
    cases hnext
    have hchange : (p.tally key).Change (p.store.receipt key) false (store.receipt key) := by
      obtain ⟨rfl, -⟩ | ⟨_, hop, -, -⟩ := storeCall_effect hcall
      · exact .same _
      · rw [receipt_reconcile hop]
        split_ifs with hreserved
        · rw [hreserved]
          exact .drops
        · exact .same _
    exact h.abandoned hdown (h.balanced.change hchange) (fun _ _ => rfl) (delivered_step hstep)

theorem accounted {as : List (ProcessLabel ι)}
    (hfirst : (SlackProcess.system d requests).init first)
    (hrun : (SlackProcess.system d requests).Run first as p) (key : String) :
    Accounted requests first key p :=
  hrun.keeps (fun _ _ _ h hstep => h.step hstep) (.init hfirst.1 hfirst.2 key)

/-- Over every run, with crashes and restarts in any order: the sends that have returned are the
ones that were forgotten, and one more if the receipt has become delivered or is reserved for a
message that has gone out. Who is told that a message is sent, or a duplicate, finds the receipt
delivered ever after. -/
theorem sent_accounted {as : List (ProcessLabel ι)}
    (hfirst : (SlackProcess.system d requests).init first)
    (hrun : (SlackProcess.system d requests).Run first as p) (key : String) :
    (p.tally key).sent + (first.delivered key).toNat =
        (p.tally key).forgotten + (p.delivered key).toNat + (p.tally key).unrecorded.toNat ∧
      (p.tally key).sent + (first.delivered key).toNat ≤ (p.tally key).forgotten + 1 ∧
      (p.delivered key = true → first.delivered key = false →
        (p.tally key).sent = (p.tally key).forgotten + 1) ∧
      ∀ i bs q, receiptKey (requests i).deliveryId.val = key →
        p.calls i = .returned .sent ∨ p.calls i = .returned .duplicate →
        (SlackProcess.system d requests).Run p bs q → q.delivered key = true := by
  have haccounted : Accounted requests first key p := accounted hfirst hrun key
  have hbalance := haccounted.balanced.balance
  -- A delivered receipt is not reserved.
  have hone : p.delivered key = true → (p.tally key).unrecorded = false := by
    intro hdelivered
    rw [Bool.eq_false_iff]
    intro hunrecorded
    have hreserved := haccounted.balanced.reserved hunrecorded
    rw [of_decide_eq_true hdelivered] at hreserved
    cases hreserved
  have hatMost : (p.delivered key).toNat + (p.tally key).unrecorded.toNat ≤ 1 := by
    cases hdelivered : p.delivered key with
    | true => simp [hone hdelivered]
    | false => simpa using Bool.toNat_le _
  change (p.tally key).sent + _ = (p.tally key).forgotten + (p.delivered key).toNat + _ at hbalance
  refine ⟨hbalance, by omega, fun hdelivered hnew => ?_, fun i bs q hi hpc hr => ?_⟩
  · rw [hdelivered, hnew, hone hdelivered] at hbalance
    simpa using hbalance
  · exact hr.keeps (I := fun q => q.delivered key = true)
      (fun _ _ _ h hstep => delivered_step hstep h) (haccounted.returned i hi hpc)

end

namespace Sample

def twoProcesses : SlackProcess (Fin 2) := { twoDeliveries with up := true, tally := fun _ => {} }

/-- The process dies between the send and its record, and the next one sends the message again. -/
def forgets : List (ProcessLabel (Fin 2)) :=
  [.step (delivers first 1), .step (delivers first 2), .step (delivers first 3), .crash,
    .restart .raises, .restart .returns, .step (delivers second 4), .step (delivers second 5),
    .step (delivers second 6), .step (delivers second 7)]

def afterForgets : SlackProcess (Fin 2) :=
  System.execD (SlackProcess.next delivery fun _ => answer) twoProcesses forgets

end Sample

open Sample in
/-- A message goes out twice, and was forgotten once. -/
theorem sent_accounted_sample : ∃ key, (afterForgets.tally key).sent = 2 ∧
    (afterForgets.tally key).forgotten = 1 ∧ afterForgets.delivered key = true := by
  have hdelivered :
      afterForgets.delivered (receiptKey answer.deliveryId.val) = true := by decide +kernel
  have hforgotten : (afterForgets.tally (receiptKey answer.deliveryId.val)).forgotten = 1 := by
    decide +kernel
  have hrun : (SlackProcess.system delivery fun _ => answer).Run twoProcesses forgets
      afterForgets := System.run_execD (by decide +kernel)
  have hsent := (sent_accounted ⟨fun _ => rfl, fun _ => rfl⟩ hrun
    (receiptKey answer.deliveryId.val)).2.2.1 hdelivered rfl
  rw [hforgotten] at hsent
  exact ⟨_, hsent, hforgotten, hdelivered⟩

/-! ## Nothing forgotten -/

section

variable {ι : Type} [DecidableEq ι] {d : RetryingSlackDelivery}
  {requests : ι → SlackDeliveryRequest} {first p q : SlackProcess ι} {a : ProcessLabel ι}
  {key : String}

/-- The step leaves no send unrecorded: recording a delivery succeeds, and the process does not die
before it. -/
def Records (d : RetryingSlackDelivery) (requests : ι → SlackDeliveryRequest)
    (p : SlackProcess ι) : ProcessLabel ι → Prop
  | .step (.call i c) => p.calls i = .marking →
    (deliverNext d (requests i) c .marking p.store).map Prod.fst = some (.returned .sent)
  | .step (.other _) | .restart _ => True
  | .crash => ∀ i, (p.calls i).hasSent = false

instance [Fintype ι] (p : SlackProcess ι) :
    (a : ProcessLabel ι) → Decidable (Records d requests p a)
  | .step (.call _ _) => inferInstanceAs (Decidable (_ → _))
  | .step (.other _) | .restart _ => inferInstanceAs (Decidable True)
  | .crash => inferInstanceAs (Decidable (∀ _, _))

/-- What has gone out is still to be recorded. -/
structure Remembered (requests : ι → SlackDeliveryRequest) (key : String) (p : SlackProcess ι) :
    Prop where
  forgotten : (p.tally key).forgotten = 0
  marking : (p.tally key).unrecorded = true →
    ∃ i, receiptKey (requests i).deliveryId.val = key ∧ p.calls i = .marking
  recorded : ∀ i, p.calls i ≠ .releasing .notRecorded

theorem deliverNext_notRecorded {request : SlackDeliveryRequest} {c : DeliveryChoice}
    {pc : DeliveryPc} {store store' : Store}
    (h : deliverNext d request c pc store = some (.releasing .notRecorded, store')) :
    pc = .marking := by
  obtain hsent | ⟨-, hmarking⟩ := deliverNext_sends h rfl
  · cases pc with
    | marking => rfl
    | releasing error => cases h
    | _ => cases hsent
  · cases hmarking

theorem Remembered.call (h : Remembered requests key p) (ha : Accounted requests first key p)
    {i : ι} {c : DeliveryChoice} {pc : DeliveryPc} {store : Store}
    (hrecords : Records d requests p (.step (.call i c)))
    (hnext : deliverNext d (requests i) c (p.calls i) p.store = some (pc, store)) :
    let s : Deliveries ι := ⟨store, Function.update p.calls i pc⟩
    Remembered requests key (p.record (goneOut requests p.toDeliveries s · (.call i c)) s) := by
  intro s
  have hself : s.calls i = pc := Function.update_self ..
  have hother : ∀ j, j ≠ i → s.calls j = p.calls j := fun j hj => Function.update_of_ne hj ..
  have hmarked : p.calls i = .marking → pc = .returned .sent := by
    intro hpc
    have hsent := hrecords hpc
    rw [hpc] at hnext
    rw [hnext] at hsent
    exact Option.some.inj hsent
  refine ⟨?_, fun hunrecorded => ?_, fun j hj => ?_⟩
  · show (p.tally key).forgotten + ((p.tally key).unrecorded && _).toNat = 0
    rw [h.forgotten]
    cases hunrecorded : (p.tally key).unrecorded with
    | false => rfl
    | true =>
      have hreserved := ha.balanced.reserved hunrecorded
      have hkept : store.receipt key ≠ .free := by
        intro hfree
        obtain ⟨hkey, error, hreleasing⟩ := (deliverNext_receipts hnext).freed hreserved hfree
        obtain ⟨j, hj, hmarking⟩ := h.marking hunrecorded
        have hji : j = i := ha.sound.unique j i ⟨hj, by rw [hmarking]; rfl⟩
          ⟨hkey, by rw [hreleasing]; rfl⟩
        rw [hji, hreleasing] at hmarking
        cases hmarking
      simp [s, hkept]
  · change (((p.tally key).unrecorded || goneOut requests p.toDeliveries s key (.call i c)) &&
      decide (store.receipt key = .reserved)) = true at hunrecorded
    rw [Bool.and_eq_true, Bool.or_eq_true, decide_eq_true_eq] at hunrecorded
    obtain ⟨hbefore | hout, hreserved⟩ := hunrecorded
    · obtain ⟨j, hj, hmarking⟩ := h.marking hbefore
      by_cases hji : j = i
      · subst hji
        have hsettled := deliverNext_returned hnext (.inl (hmarked hmarking))
        rw [hj, hreserved] at hsettled
        cases hsettled
      · exact ⟨j, hj, (hother j hji).trans hmarking⟩
    · simp only [goneOut, decide_eq_true_eq] at hout
      exact ⟨i, hout.1, hout.2.2⟩
  · change s.calls j = .releasing .notRecorded at hj
    by_cases hji : j = i
    · subst hji
      rw [hself] at hj
      have hreturned := hmarked (deliverNext_notRecorded (hj ▸ hnext))
      rw [hj] at hreturned
      cases hreturned
    · exact h.recorded j ((hother j hji).symm.trans hj)

theorem Remembered.step (h : Remembered requests key p) (ha : Accounted requests first key p)
    (hrecords : Records d requests p a) (hstep : (SlackProcess.system d requests).step p a q) :
    Remembered requests key q := by
  have hnext : SlackProcess.next d requests p a = some q := hstep
  cases a with
  | step a =>
    simp only [SlackProcess.next] at hnext
    split_ifs at hnext
    obtain ⟨s, hs, rfl⟩ := Option.map_eq_some_iff.1 hnext
    cases a with
    | call i c =>
      obtain ⟨⟨pc, store⟩, hcall, rfl⟩ := Option.map_eq_some_iff.1 hs
      exact h.call ha hrecords hcall
    | other store =>
      simp only [RetryingSlackDelivery.next] at hs
      split_ifs at hs with hsame
      cases hs
      have hreceipt : store.receipt key = p.store.receipt key := by simp only [Store.receipt, hsame]
      have htally : (p.tally key).next false (store.receipt key) = p.tally key := by
        rw [hreceipt, ha.balanced.next_same]
      refine ⟨?_, ?_, h.recorded⟩
      · show ((p.tally key).next false (store.receipt key)).forgotten = 0
        rw [htally, h.forgotten]
      · show ((p.tally key).next false (store.receipt key)).unrecorded = true → _
        rw [htally]
        exact h.marking
  | crash =>
    cases hnext
    refine ⟨h.forgotten, fun hunrecorded => ?_, fun i hi => ?_⟩
    · obtain ⟨i, -, hmarking⟩ := h.marking hunrecorded
      have hsent := hrecords i
      rw [hmarking] at hsent
      cases hsent
    · change (p.calls i).crash = .releasing .notRecorded at hi
      cases hpc : p.calls i <;> rw [hpc] at hi <;> cases hi
  | restart fate =>
    simp only [SlackProcess.next] at hnext
    split_ifs at hnext with hup
    -- The process was down, so no message is about to be recorded.
    have hunrecorded : (p.tally key).unrecorded = false := by
      rw [Bool.eq_false_iff]
      intro hunrecorded
      obtain ⟨i, -, hmarking⟩ := h.marking hunrecorded
      have hholds := ha.down (Bool.eq_false_iff.2 hup) i
      rw [hmarking] at hholds
      cases hholds
    cases hnext
    refine ⟨?_, fun hafter => ?_, h.recorded⟩
    · simp [SlackProcess.record, Tally.next, h.forgotten, hunrecorded]
    · simp [SlackProcess.record, Tally.next, hunrecorded] at hafter

/-- While recording succeeds and the process does not die before it, a message goes out once, over
any number of calls, crashes and restarts. -/
theorem sent_once {as : List (ProcessLabel ι)}
    (hfirst : (SlackProcess.system d requests).init first)
    (hrun : ((SlackProcess.system d requests).guard (Records d requests)).Run first as p)
    (key : String) :
    (p.tally key).sent ≤ 1 ∧ (first.delivered key = true → (p.tally key).sent = 0) ∧
      (p.delivered key = true → first.delivered key = false → (p.tally key).sent = 1) := by
  have hforgotten : Remembered requests key p := by
    have hboth : Accounted requests first key p ∧ Remembered requests key p := by
      refine hrun.keeps (I := fun p => Accounted requests first key p ∧ Remembered requests key p)
        (fun p a q h hstep => ?_) ⟨.init hfirst.1 hfirst.2 key, ?_⟩
      · obtain ⟨hrecords, hstep⟩ := hstep
        exact ⟨h.1.step hstep, h.2.step h.1 hrecords hstep⟩
      · refine ⟨by rw [hfirst.2], fun h => ?_, fun i hi => ?_⟩
        · rw [hfirst.2] at h
          cases h
        · rw [hfirst.1] at hi
          cases hi
    exact hboth.2
  obtain ⟨hbalance, hatMost, hdelivered, -⟩ := sent_accounted hfirst hrun.of_guard key
  rw [hforgotten.forgotten] at hbalance hatMost hdelivered
  refine ⟨by omega, fun hbefore => ?_, hdelivered⟩
  rw [hbefore] at hatMost
  simpa using hatMost

end

namespace Sample

/-- The process dies before a send, and the next one sends the message. -/
def remembers : List (ProcessLabel (Fin 2)) :=
  [.step (delivers first 1), .step (delivers first 2), .crash, .restart .returns,
    .step (delivers second 4), .step (delivers second 5), .step (delivers second 6),
    .step (delivers second 7)]

def afterRemembers : SlackProcess (Fin 2) :=
  System.execD (System.guardNext (Records delivery fun _ => answer)
    (SlackProcess.next delivery fun _ => answer)) twoProcesses remembers

end Sample

open Sample in
/-- The message goes out once. -/
theorem sent_once_sample : ∃ key, (afterRemembers.tally key).sent = 1 ∧
    afterRemembers.delivered key = true := by
  have hdelivered :
      afterRemembers.delivered (receiptKey answer.deliveryId.val) = true := by decide +kernel
  have hrun : ((SlackProcess.system delivery fun _ => answer).guard
      (Records delivery fun _ => answer)).Run twoProcesses remembers afterRemembers := by
    rw [SlackProcess.system, System.ofNext_guard]
    exact System.run_execD (by decide +kernel)
  exact ⟨_, (sent_once ⟨fun _ => rfl, fun _ => rfl⟩ hrun _).2.2 hdelivered rfl, hdelivered⟩

end AIHub
