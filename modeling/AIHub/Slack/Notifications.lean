import AIHub.Slack.Updates
import Mathlib.Data.List.ProdSigma

/-!
# Replayed notifications

`StoredRouteResultNotifier.reconcile_pending` as a program that stops at its awaits: it lists the
routes and, for each task with a Slack route and a status worth telling, notifies unless the
receipt says that this has been done. What raises in the body of the loop is collected, and the
loop goes on.

The listing is `list_task_routes` with its default limit. A route behind the first 1000 is not
looked at, and no failure says so.

* `deliverNext_delivering`: what a `deliver` call that has the store for itself has done to it.
* `replay_inv`: while nothing has failed, the routes before the one at hand are served.
* `replay_delivers`: a replay that returns no failure has delivered all the updates, exactly if each
  of them had been delivered before, or has a route among the first 1000 and no reserved receipt.
-/

namespace AIHub

open Transition Reservation

/-! ## The program -/

structure StoredRouteResultNotifier where
  delivery : RetryingSlackDelivery
  redact : Redaction

structure NotifierChoice extends DeliveryChoice where
  /-- The exception that leaves the await is a cancellation. -/
  cancelled : Bool := false

/-- Where a `notify_task` call stands. -/
inductive NotifyPc where
  | routing
  | reading (route : TaskRoute)
  | delivering (request : SlackDeliveryRequest) (pc : DeliveryPc)
  | done
  | raised
  deriving DecidableEq

/-- Take a `notify_task` call past one await. -/
def notifyNext (n : StoredRouteResultNotifier) (task : Task) (c : NotifierChoice) :
    NotifyPc → Store → Option (NotifyPc × Store)
  | .routing, s =>
    match c.fate, s.getTaskRoute task.taskId.val with
    | .returns, some route =>
      if route.source.val = "slack" then some (.reading route, s) else some (.done, s)
    | .returns, none => some (.done, s)
    | _, _ => some (.raised, s)
  | .reading route, s =>
    match c.fate, s.listEvents (some task.taskId.val) 0 10000 with
    | .returns, .ok events =>
      match updateRequest n.redact task route events (s.listRuns task.taskId.val) with
      | .ok request => some (.delivering request .checking, s)
      | .error _ => some (.raised, s)
    | _, _ => some (.raised, s)
  | .delivering request pc, s =>
    (deliverNext n.delivery request c.toDeliveryChoice pc s).map fun
      | (.returned _, s) => (.done, s)
      | (.raised, s) => (.raised, s)
      | (pc, s) => (.delivering request pc, s)
  | .done, _ | .raised, _ => none

def replayableStatuses : List TaskStatus := [.running, .blocked, .completed, .failed, .cancelled]

/-- The loop over the routes: the one at hand, those after it, and the tasks that have failed. -/
structure ReplayLoop where
  route : TaskRoute
  rest : List TaskRoute
  failed : List TaskId
  deriving DecidableEq

/-- Where a `reconcile_pending` call stands. -/
inductive ReplayPc where
  | listing
  | loading (loop : ReplayLoop)
  | checking (task : Task) (loop : ReplayLoop)
  | notifying (task : Task) (pc : NotifyPc) (loop : ReplayLoop)
  | returned (failed : List TaskId)
  | raised
  deriving DecidableEq

/-- Go on to the next Slack route. -/
def nextRoute (failed : List TaskId) : List TaskRoute → ReplayPc
  | [] => .returned failed
  | route :: rest =>
    if route.source.val = "slack" then .loading ⟨route, rest, failed⟩ else nextRoute failed rest

/-- The body raises: `except Exception` lets a cancellation pass. -/
def ReplayLoop.raises (loop : ReplayLoop) (c : NotifierChoice) : ReplayPc :=
  if c.cancelled then .raised else nextRoute (loop.failed ++ [loop.route.taskId]) loop.rest

/-- Take a `reconcile_pending` call past one await. -/
def replayNext (n : StoredRouteResultNotifier) (c : NotifierChoice) :
    ReplayPc → Store → Option (ReplayPc × Store)
  | .listing, s =>
    match c.fate, s.listTaskRoutes 1000 with
    | .returns, .ok routes => some (nextRoute [] routes, s)
    | _, _ => some (.raised, s)
  | .loading loop, s =>
    match c.fate, s.getTask loop.route.taskId.val with
    | .returns, .ok task =>
      if task.status ∈ replayableStatuses then some (.checking task loop, s)
      else some (nextRoute loop.failed loop.rest, s)
    | _, _ => some (loop.raises c, s)
  | .checking task loop, s =>
    match c.fate, s.isDeliveryDelivered (updateDeliveryId task) with
    | .returns, .ok true => some (nextRoute loop.failed loop.rest, s)
    | .returns, .ok false => some (.notifying task .routing loop, s)
    | _, _ => some (loop.raises c, s)
  | .notifying task pc loop, s =>
    (notifyNext n task c pc s).map fun
      | (.done, s) => (nextRoute loop.failed loop.rest, s)
      | (.raised, s) => (loop.raises c, s)
      | (pc, s) => (.notifying task pc loop, s)
  | .returned _, _ | .raised, _ => none

/-- A `reconcile_pending` call and the store. -/
structure Replay where
  pc : ReplayPc
  store : Store

def Replay.next (n : StoredRouteResultNotifier) (r : Replay) (c : NotifierChoice) :
    Option Replay :=
  (replayNext n c r.pc r.store).map fun r => ⟨r.1, r.2⟩

/-- A call on the store `s`, to which nobody else writes. -/
def replaySystem (n : StoredRouteResultNotifier) (s : Store) : System Replay NotifierChoice :=
  .ofNext (fun r => r = ⟨.listing, s⟩) (Replay.next n)

/-- The update on the task is to be sent to the route. -/
structure Store.Routed (s : Store) (route : TaskRoute) (task : Task) : Prop where
  stored : route ∈ s.taskRoutes
  slack : route.source.val = "slack"
  found : s.getTask route.taskId.val = .ok task
  replayable : task.status ∈ replayableStatuses

/-! ## A `deliver` call that has the store for itself -/

/-- Only the receipt `key` may differ. -/
structure OnlyReceipt (s s' : Store) (key : String) : Prop where
  tasks : s'.tasks = s.tasks
  routes : s'.taskRoutes = s.taskRoutes
  others : ∀ k, k ≠ key → s'.receipt k = s.receipt k

/-- What a `deliver` call has done, as long as it does not fail. -/
def Delivering (s s' : Store) (key : String) : DeliveryPc → Prop
  | .checking => s' = s
  | .reserving => s' = s ∧ s.receipt key ≠ .settled ()
  | .sending _ | .sleeping _ | .marking =>
    OnlyReceipt s s' key ∧ s.receipt key = .free ∧ s'.receipt key = .reserved
  | .returned .sent => OnlyReceipt s s' key ∧ s.receipt key = .free ∧ s'.receipt key = .settled ()
  | .returned .duplicate => s' = s ∧ s.receipt key = .settled ()
  | .returned .inProgress => s' = s ∧ s.receipt key = .reserved
  | .releasing _ | .raised => True

section

variable {d : RetryingSlackDelivery} {request : SlackDeliveryRequest} {c : DeliveryChoice}
  {pc pc' : DeliveryPc} {s s' s'' : Store} {key : String}

theorem OnlyReceipt.trans (h : OnlyReceipt s s' key) (h' : OnlyReceipt s' s'' key) :
    OnlyReceipt s s'' key where
  tasks := h'.tasks.trans h.tasks
  routes := h'.routes.trans h.routes
  others k hk := (h'.others k hk).trans (h.others k hk)

/-- A store call leaves alone what the operation does. -/
theorem storeCall_same {α β : Type} {fate : CallFate} {op : Store → Except HubError (α × Store)}
    {result : Option α} {f : Store → β} (h : storeCall fate op s = (result, s'))
    (hop : ∀ a s', op s = .ok (a, s') → f s' = f s) : f s' = f s := by
  rcases storeCall_effect h with ⟨rfl, _⟩ | ⟨a, ha, _⟩
  · rfl
  · exact hop a s' ha

theorem storeCall_some {α : Type} {fate : CallFate} {op : Store → Except HubError (α × Store)}
    {a : α} (h : storeCall fate op s = (some a, s')) : op s = .ok (a, s') := by
  rcases storeCall_effect h with ⟨_, hnone⟩ | ⟨a', ha, _, hsome | hnone⟩
  · cases hnone
  · cases hsome
    exact ha
  · cases hnone

/-- A step leaves the tasks and the routes alone. -/
theorem deliverNext_same (h : deliverNext d request c pc s = some (pc', s')) :
    (s'.tasks, s'.taskRoutes) = (s.tasks, s.taskRoutes) := by
  cases pc with
  | returned | raised => cases h
  | checking =>
    simp only [deliverNext] at h
    split at h <;> cases h <;> rfl
  | sending attempt =>
    simp only [deliverNext] at h
    repeat' split at h
    all_goals
      cases h
      rfl
  | sleeping attempt =>
    simp only [deliverNext] at h
    split_ifs at h <;> cases h <;> rfl
  | reserving =>
    simp only [deliverNext] at h
    generalize hcall : storeCall c.fate _ s = r at h
    have hsame := storeCall_same (f := fun s => (s.tasks, s.taskRoutes)) hcall fun b s₁ hop => by
      obtain ⟨id, _, ⟨_, rfl, _⟩ | ⟨_, _, rfl⟩⟩ := Store.reserveDelivery_ok hop <;> rfl
    obtain ⟨_ | _ | _, s₁⟩ := r <;> cases h <;> exact hsame
  | marking =>
    simp only [deliverNext] at h
    generalize hcall : storeCall c.fate _ s = r at h
    have hsame := storeCall_same (f := fun s => (s.tasks, s.taskRoutes)) hcall fun b s₁ hop => by
      obtain ⟨_, _, _, _, ⟨_, rfl⟩ | ⟨_, rfl⟩⟩ := Store.markDeliveryDelivered_ok hop <;> rfl
    obtain ⟨_ | _, s₁⟩ := r <;> cases h <;> exact hsame
  | releasing error =>
    cases h
    exact storeCall_same (f := fun s => (s.tasks, s.taskRoutes)) rfl fun b s₁ hop => by
      obtain ⟨_, _, ⟨_, rfl⟩ | ⟨_, _, _, rfl⟩⟩ := Store.releaseDelivery_ok hop <;> rfl

theorem deliverNext_onlyReceipt (h : deliverNext d request c pc s = some (pc', s')) :
    OnlyReceipt s s' (receiptKey request.deliveryId.val) where
  tasks := congrArg Prod.fst (deliverNext_same h)
  routes := congrArg Prod.snd (deliverNext_same h)
  others := (deliverNext_receipts h).move.2

/-- Each step of a call that does not fail does to the receipt what its place says. -/
theorem deliverNext_delivering (h : deliverNext d request c pc s' = some (pc', s''))
    (hd : Delivering s s' (receiptKey request.deliveryId.val) pc) :
    Delivering s s'' (receiptKey request.deliveryId.val) pc' := by
  have honly := deliverNext_onlyReceipt h
  cases pc with
  | returned | raised => cases h
  | checking =>
    obtain rfl : s' = s := hd
    simp only [deliverNext] at h
    split at h
    · rename_i hdelivered
      cases h
      exact ⟨rfl, (isDeliveryDelivered_eq_ok.1 hdelivered).2.1 rfl⟩
    · rename_i hdelivered
      cases h
      refine ⟨rfl, fun hsettled => ?_⟩
      cases (isDeliveryDelivered_eq_ok.1 hdelivered).2.2 hsettled
    · cases h
      trivial
  | reserving =>
    obtain ⟨rfl, hunsettled⟩ := hd
    simp only [deliverNext] at h
    generalize hcall : storeCall c.fate _ s' = r at h
    obtain ⟨_ | _ | _, s₁⟩ := r
    · cases h
      trivial
    · cases h
      obtain ⟨id, hid, ⟨_, rfl, htaken⟩ | ⟨htrue, _⟩⟩ := Store.reserveDelivery_ok
        (storeCall_some hcall)
      · refine ⟨rfl, ?_⟩
        cases hcell : s''.receipt (receiptKey request.deliveryId.val) with
        | reserved => rfl
        | settled => exact absurd hcell hunsettled
        | free =>
          rw [receiptKey_eq hid, receipt_eq_free] at hcell
          simp [hcell] at htaken
      · cases htrue
    · cases h
      rcases receipt_reserve (storeCall_some hcall) with ⟨hfalse, _⟩ | ⟨_, hfree, hwrite⟩
      · cases hfalse
      · exact ⟨honly, hfree, by rw [hwrite, if_pos rfl]⟩
  | sending attempt =>
    obtain ⟨hsame, hfree, hreserved⟩ := hd
    simp only [deliverNext] at h
    repeat' split at h
    all_goals cases h
    · exact ⟨hsame, hfree, hreserved⟩
    · trivial
    · trivial
    · trivial
    · exact ⟨hsame, hfree, hreserved⟩
  | sleeping attempt =>
    obtain ⟨hsame, hfree, hreserved⟩ := hd
    simp only [deliverNext] at h
    split_ifs at h <;> cases h
    · exact ⟨hsame, hfree, hreserved⟩
    · trivial
  | marking =>
    obtain ⟨hsame, hfree, hreserved⟩ := hd
    simp only [deliverNext] at h
    generalize hcall : storeCall c.fate _ s' = r at h
    obtain ⟨_ | receipt, s₁⟩ := r
    · cases h
      trivial
    · cases h
      refine ⟨hsame.trans honly, hfree, ?_⟩
      obtain ⟨id, row, hid, hrow, ⟨hstate, rfl⟩ | ⟨_, rfl⟩⟩ := Store.markDeliveryDelivered_ok
        (storeCall_some hcall)
      · rw [receiptKey_eq hid, receipt_eq_settled, hrow, Option.any_some, hstate]
        rfl
      · rw [receiptKey_eq hid, receipt_eq_settled, Table.get?_update, hrow]
        simp [Table.key_of_get? hrow]
  | releasing error =>
    cases h
    trivial

end

/-! ## The loop -/

/-- The routes that the loop goes over. -/
def Store.listed (s : Store) : List TaskRoute := s.taskRoutes.ordered.take 1000

/-- What the call has done to the store `s`, if it has come past the routes `before` and nothing has
failed. -/
structure Progress (s s' : Store) (before : List TaskRoute) : Prop where
  tasks : s'.tasks = s.tasks
  routes : s'.taskRoutes = s.taskRoutes
  receipts : ∀ key, s'.receipt key = s.receipt key ∨ (s.receipt key = .free ∧
    s'.receipt key = .settled () ∧ ∃ route ∈ before, ∃ task, s.Routed route task ∧
      key = updateDeliveryId task)
  served : ∀ route ∈ before, ∀ task, s.Routed route task →
    (∃ id, RouteValue.validate "delivery_id" (updateDeliveryId task) = .ok id) ∧
      (s'.receipt (updateDeliveryId task) = .settled () ∨
        s.receipt (updateDeliveryId task) = .reserved)

section

variable {s s₁ s' s'' : Store} {before rest : List TaskRoute} {route : TaskRoute} {task : Task}
  {failed : List TaskId} {n : StoredRouteResultNotifier} {c : NotifierChoice}

theorem Progress.init (s : Store) : Progress s s [] where
  tasks := rfl
  routes := rfl
  receipts _ := .inl rfl
  served _ hroute := nomatch hroute

theorem Store.Routed.task_unique {task' : Task} (h : s.Routed route task)
    (h' : s.Routed route task') : task' = task :=
  Except.ok.inj (h'.found.symm.trans h.found)

/-- The loop comes past a route that is served without a write. -/
theorem Progress.pass (h : Progress s s' before)
    (hserved : ∀ task, s.Routed route task →
      (∃ id, RouteValue.validate "delivery_id" (updateDeliveryId task) = .ok id) ∧
        (s'.receipt (updateDeliveryId task) = .settled () ∨
          s.receipt (updateDeliveryId task) = .reserved)) :
    Progress s s' (before ++ [route]) where
  tasks := h.tasks
  routes := h.routes
  receipts key := by
    rcases h.receipts key with hsame | ⟨hfree, hsettled, route', hroute', hrest⟩
    · exact .inl hsame
    · exact .inr ⟨hfree, hsettled, route', List.mem_append_left _ hroute', hrest⟩
  served route' hroute' task' := by
    rcases List.mem_append.1 hroute' with hmem | hmem
    · exact h.served route' hmem task'
    · rw [List.mem_singleton.1 hmem]
      exact hserved task'

/-- The loop comes past a route by a call that delivers its update. -/
theorem Progress.deliver (h : Progress s s₁ before) (hrouted : s.Routed route task)
    (hid : ∃ id, RouteValue.validate "delivery_id" (updateDeliveryId task) = .ok id)
    {outcome : DeliveryOutcome}
    (hd : Delivering s₁ s' (updateDeliveryId task) (.returned outcome)) :
    Progress s s' (before ++ [route]) := by
  cases outcome with
  | duplicate =>
    obtain ⟨rfl, hsettled⟩ := hd
    refine h.pass fun task' hrouted' => ?_
    rw [hrouted.task_unique hrouted']
    exact ⟨hid, .inl hsettled⟩
  | inProgress =>
    obtain ⟨rfl, hreserved⟩ := hd
    refine h.pass fun task' hrouted' => ?_
    rw [hrouted.task_unique hrouted']
    rcases h.receipts (updateDeliveryId task) with hsame | ⟨_, hsettled, _⟩
    · exact ⟨hid, .inr (hsame.symm.trans hreserved)⟩
    · cases hreserved.symm.trans hsettled
  | sent =>
    obtain ⟨honly, hfree, hsettled⟩ := hd
    have hnow : ∀ key, s₁.receipt key = .settled () → s'.receipt key = .settled () := by
      intro key hkey
      by_cases heq : key = updateDeliveryId task
      · rw [heq]
        exact hsettled
      · rw [honly.others key heq]
        exact hkey
    constructor
    · exact honly.tasks.trans h.tasks
    · exact honly.routes.trans h.routes
    · intro key
      by_cases heq : key = updateDeliveryId task
      · subst heq
        rcases h.receipts (updateDeliveryId task) with hsame | ⟨_, hsettled₁, _⟩
        · exact .inr ⟨hsame.symm.trans hfree, hsettled, route, by simp, task, hrouted, rfl⟩
        · cases hfree.symm.trans hsettled₁
      · rw [honly.others key heq]
        rcases h.receipts key with hsame | ⟨hfree', hsettled', route', hroute', hrest⟩
        · exact .inl hsame
        · exact .inr ⟨hfree', hsettled', route', List.mem_append_left _ hroute', hrest⟩
    · intro route' hroute' task' hrouted'
      rcases List.mem_append.1 hroute' with hmem | hmem
      · obtain ⟨hvalid, hdone | hreserved⟩ := h.served route' hmem task' hrouted'
        · exact ⟨hvalid, .inl (hnow _ hdone)⟩
        · exact ⟨hvalid, .inr hreserved⟩
      · rw [List.mem_singleton.1 hmem] at hrouted'
        rw [hrouted.task_unique hrouted']
        exact ⟨hid, .inl hsettled⟩

/-! ## One notification -/

/-- What the call has done while it notifies about `task`. -/
def Notifying (s s' : Store) (before : List TaskRoute) (route : TaskRoute) (task : Task) :
    NotifyPc → Prop
  | .routing | .reading _ => Progress s s' before
  | .delivering request pc => request.deliveryId.val = updateDeliveryId task ∧
    ∃ s₁, Progress s s₁ before ∧ Delivering s₁ s' (updateDeliveryId task) pc
  | .done => Progress s s' (before ++ [route])
  | .raised => True

/-- The route of the task is the one that is looked up by the task's id. -/
theorem Store.Routed.getTaskRoute (hc : s.Coherent) (h : s.Routed route task) :
    task.taskId = route.taskId ∧ s.getTaskRoute task.taskId.val = some route := by
  have hfound := h.found
  rw [Store.getTask, map_eq_ok] at hfound
  obtain ⟨row, hrow, rfl⟩ := hfound
  rw [Store.taskRow_ok] at hrow
  have hkey : row.key = route.taskId.val := Table.key_of_get? hrow
  have hid : row.taskJson.taskId = route.taskId := (hc.json _ _ hrow).trans (Constrained.ext hkey)
  rw [hid]
  exact ⟨rfl, Table.get?_of_mem h.stored⟩

theorem notifyNext_notifying {pc pc' : NotifyPc} (hc : s.Coherent) (hrouted : s.Routed route task)
    (hid : ∃ id, RouteValue.validate "delivery_id" (updateDeliveryId task) = .ok id)
    (h : notifyNext n task c pc s' = some (pc', s''))
    (hn : Notifying s s' before route task pc) : Notifying s s'' before route task pc' := by
  cases pc with
  | done | raised => cases h
  | routing =>
    have hp : Progress s s' before := hn
    have hroute : s'.getTaskRoute task.taskId.val = some route := by
      rw [Store.getTaskRoute, hp.routes]
      exact (hrouted.getTaskRoute hc).2
    simp only [notifyNext, hroute] at h
    cases hfate : c.fate with
    | returns =>
      simp only [hfate, hrouted.slack, if_true] at h
      cases h
      exact hp
    | raises | takesEffectAndRaises =>
      simp only [hfate] at h
      cases h
      trivial
  | reading route' =>
    have hp : Progress s s' before := hn
    simp only [notifyNext] at h
    split at h
    · split at h
      · rename_i request hrequest
        cases h
        exact ⟨updateRequest_deliveryId hrequest, s', hp, rfl⟩
      · cases h
        trivial
    · cases h
      trivial
  | delivering request pc =>
    obtain ⟨hrequest, s₁, hp, hd⟩ := hn
    simp only [notifyNext, Option.map_eq_some_iff] at h
    obtain ⟨⟨pc₁, s₂⟩, hdeliver, hpc⟩ := h
    have hkey : receiptKey request.deliveryId.val = updateDeliveryId task := by
      rw [hrequest, receiptKey_updateDeliveryId]
    rw [← hkey] at hd
    have hnext := deliverNext_delivering hdeliver hd
    rw [hkey] at hnext
    split at hpc <;> rename_i heq <;> cases heq <;> cases hpc
    · exact hp.deliver hrouted hid hnext
    · trivial
    · exact ⟨hrequest, s₁, hp, hnext⟩

/-! ## The whole call -/

/-- What the call has done, as long as nothing has failed. -/
def Replay.Inv (s : Store) (r : Replay) : Prop :=
  match r.pc with
  | .listing => r.store = s
  | .loading loop => loop.failed = [] →
    ∃ before, s.listed = before ++ loop.route :: loop.rest ∧ loop.route.source.val = "slack" ∧
      Progress s r.store before
  | .checking task loop => loop.failed = [] →
    ∃ before, s.listed = before ++ loop.route :: loop.rest ∧ s.Routed loop.route task ∧
      Progress s r.store before
  | .notifying task pc loop => loop.failed = [] →
    ∃ before, s.listed = before ++ loop.route :: loop.rest ∧ s.Routed loop.route task ∧
      (∃ id, RouteValue.validate "delivery_id" (updateDeliveryId task) = .ok id) ∧
      Notifying s r.store before loop.route task pc
  | .returned failed => failed = [] → Progress s r.store s.listed
  | .raised => True

/-- The loop goes on with the routes `rest`. -/
theorem inv_nextRoute (h : failed = [] → ∃ before, s.listed = before ++ rest ∧
    Progress s s' before) : Replay.Inv s ⟨nextRoute failed rest, s'⟩ := by
  induction rest with
  | nil =>
    intro hnone
    obtain ⟨before, hlisted, hp⟩ := h hnone
    rw [hlisted, List.append_nil]
    exact hp
  | cons route rest ih =>
    rw [nextRoute]
    split_ifs with hslack
    · intro hnone
      obtain ⟨before, hlisted, hp⟩ := h hnone
      exact ⟨before, hlisted, hslack, hp⟩
    · refine ih fun hnone => ?_
      obtain ⟨before, hlisted, hp⟩ := h hnone
      exact ⟨before ++ [route], by rw [hlisted, List.append_cons],
        hp.pass fun task hrouted => absurd hrouted.slack hslack⟩

/-- Once something has failed, nothing more is said. -/
theorem inv_raises (loop : ReplayLoop) : Replay.Inv s ⟨loop.raises c, s'⟩ := by
  unfold ReplayLoop.raises
  split_ifs
  · trivial
  · exact inv_nextRoute fun hnone => by simp at hnone

theorem listTaskRoutes_listed : s.listTaskRoutes 1000 = .ok s.listed := rfl

theorem replay_step (hc : s.Coherent) {r r' : Replay} (h : Replay.next n r c = some r')
    (hr : r.Inv s) : r'.Inv s := by
  obtain ⟨pc, s'⟩ := r
  simp only [Replay.next, Option.map_eq_some_iff] at h
  obtain ⟨⟨pc', s''⟩, h, rfl⟩ := h
  cases pc with
  | returned | raised => cases h
  | listing =>
    obtain rfl : s' = s := hr
    simp only [replayNext, listTaskRoutes_listed] at h
    split at h
    · rename_i hlisted
      cases hlisted
      cases h
      exact inv_nextRoute fun _ => ⟨[], rfl, .init s'⟩
    · cases h
      trivial
  | loading loop =>
    simp only [replayNext] at h
    split at h
    · rename_i task _ htask
      split_ifs at h with hstatus
      · cases h
        intro hnone
        obtain ⟨before, hlisted, hslack, hp⟩ := hr hnone
        have hstored : loop.route ∈ s.listed := by rw [hlisted]; simp
        rw [Store.getTask, Store.taskRow, hp.tasks] at htask
        exact ⟨before, hlisted, ⟨Table.mem_ordered.1 (List.mem_of_mem_take hstored), hslack,
          htask, hstatus⟩, hp⟩
      · cases h
        refine inv_nextRoute fun hnone => ?_
        obtain ⟨before, hlisted, hslack, hp⟩ := hr hnone
        rw [Store.getTask, Store.taskRow, hp.tasks] at htask
        refine ⟨before ++ [loop.route], by rw [hlisted, List.append_cons], hp.pass ?_⟩
        intro task' hrouted
        cases htask.symm.trans hrouted.found
        exact absurd hrouted.replayable hstatus
    · cases h
      exact inv_raises loop
  | checking task loop =>
    simp only [replayNext] at h
    split at h
    · rename_i hdelivered
      cases h
      refine inv_nextRoute fun hnone => ?_
      obtain ⟨before, hlisted, hrouted, hp⟩ := hr hnone
      refine ⟨before ++ [loop.route], by rw [hlisted, List.append_cons], hp.pass ?_⟩
      intro task' hrouted'
      rw [hrouted.task_unique hrouted']
      obtain ⟨hid, hsettled⟩ := isDeliveryDelivered_eq_ok.1 hdelivered
      rw [receiptKey_updateDeliveryId] at hsettled
      exact ⟨hid, .inl (hsettled.1 rfl)⟩
    · rename_i hdelivered
      cases h
      intro hnone
      obtain ⟨before, hlisted, hrouted, hp⟩ := hr hnone
      exact ⟨before, hlisted, hrouted, (isDeliveryDelivered_eq_ok.1 hdelivered).1, hp⟩
    · cases h
      exact inv_raises loop
  | notifying task pc loop =>
    simp only [replayNext, Option.map_eq_some_iff] at h
    obtain ⟨⟨pc₁, s₂⟩, hnotify, hpc⟩ := h
    have hnext : loop.failed = [] → ∃ before, s.listed = before ++ loop.route :: loop.rest ∧
        s.Routed loop.route task ∧
        (∃ id, RouteValue.validate "delivery_id" (updateDeliveryId task) = .ok id) ∧
        Notifying s s₂ before loop.route task pc₁ := by
      intro hnone
      obtain ⟨before, hlisted, hrouted, hid, hn⟩ := hr hnone
      exact ⟨before, hlisted, hrouted, hid, notifyNext_notifying hc hrouted hid hnotify hn⟩
    split at hpc <;> rename_i heq <;> cases heq <;> cases hpc
    · refine inv_nextRoute fun hnone => ?_
      obtain ⟨before, hlisted, _, _, hn⟩ := hnext hnone
      exact ⟨before ++ [loop.route], by rw [hlisted, List.append_cons], hn⟩
    · exact inv_raises loop
    · exact hnext

theorem replay_inv (hc : s.Coherent) {r : Replay} (h : (replaySystem n s).Reachable r) :
    r.Inv s := by
  have hI : (replaySystem n s).Invariant (Replay.Inv s) := {
    init := by
      rintro r rfl
      rfl
    step := fun _ _ _ hr hstep => replay_step hc hstep hr }
  exact hI.reachable h

theorem Progress.routed_iff (h : Progress s s' before) :
    s'.Routed route task ↔ s.Routed route task := by
  have hfound : s'.getTask route.taskId.val = s.getTask route.taskId.val := by
    rw [Store.getTask, Store.taskRow, h.tasks]
    rfl
  constructor
  · rintro ⟨hstored, hslack, htask, hstatus⟩
    exact ⟨h.routes ▸ hstored, hslack, hfound ▸ htask, hstatus⟩
  · rintro ⟨hstored, hslack, htask, hstatus⟩
    exact ⟨h.routes ▸ hstored, hslack, hfound ▸ htask, hstatus⟩

/-- Two routed tasks with the same delivery id have the same route. -/
theorem Store.Routed.route_unique (hc : s.Coherent) {route' : TaskRoute} {task' : Task}
    (h : s.Routed route task) (h' : s.Routed route' task')
    (hid : updateDeliveryId task = updateDeliveryId task') : route' = route := by
  have htask : route'.taskId = route.taskId := by
    rw [← (h.getTaskRoute hc).1, ← (h'.getTaskRoute hc).1, taskId_of_updateDeliveryId hid]
  exact Table.eq_of_key_eq h'.stored h.stored (congrArg Constrained.val htask)

theorem isDeliveryDelivered_update :
    s.isDeliveryDelivered (updateDeliveryId task) = .ok true ↔
      (∃ id, RouteValue.validate "delivery_id" (updateDeliveryId task) = .ok id) ∧
        s.receipt (updateDeliveryId task) = .settled () := by
  rw [isDeliveryDelivered_eq_ok, receiptKey_updateDeliveryId]
  simp

/-- A replay that returns no failure has delivered the update on every task with a Slack route and a
status worth telling, exactly if, before it, each of these updates had been delivered, or its route
was among the first 1000 and its receipt not reserved. -/
theorem replay_delivers (n : StoredRouteResultNotifier) (hs : storeSystem.Reachable s)
    (hr : (replaySystem n s).Reachable ⟨.returned [], s'⟩) :
    (∀ route task, s'.Routed route task →
      s'.isDeliveryDelivered (updateDeliveryId task) = .ok true) ↔
    ∀ route task, s.Routed route task →
      s.isDeliveryDelivered (updateDeliveryId task) = .ok true ∨
        ((s.taskRoutes.rows.filter fun other => other.key < route.key).length < 1000 ∧
          s.receipt (updateDeliveryId task) ≠ .reserved) := by
  have hc := storeSystem_coherent hs
  have hp : Progress s s' s.listed := replay_inv hc hr rfl
  constructor
  · intro h route task hrouted
    obtain ⟨hid, hsettled⟩ := isDeliveryDelivered_update.1 (h route task (hp.routed_iff.2 hrouted))
    rcases hp.receipts (updateDeliveryId task) with hsame |
      ⟨hfree, _, route', hmem, task', hr', heq⟩
    · exact .inl (isDeliveryDelivered_update.2 ⟨hid, hsame.symm.trans hsettled⟩)
    · rw [hrouted.route_unique hc hr' heq] at hmem
      refine .inr ⟨(Table.mem_take_ordered.1 hmem).2, ?_⟩
      rw [hfree]
      simp
  · intro h route task hrouted
    rw [hp.routed_iff] at hrouted
    rcases h route task hrouted with hdelivered | ⟨hrank, hreserved⟩
    · obtain ⟨hid, hsettled⟩ := isDeliveryDelivered_update.1 hdelivered
      rcases hp.receipts (updateDeliveryId task) with hsame | ⟨_, hnow, _⟩
      · exact isDeliveryDelivered_update.2 ⟨hid, hsame.trans hsettled⟩
      · exact isDeliveryDelivered_update.2 ⟨hid, hnow⟩
    · obtain ⟨hid, hsettled | hheld⟩ := hp.served route
        (Table.mem_take_ordered.2 ⟨hrouted.stored, hrank⟩) task hrouted
      · exact isDeliveryDelivered_update.2 ⟨hid, hsettled⟩
      · exact absurd hheld hreserved

end

namespace Sample

def slackRoute : TaskRoute := ⟨taskId, ⟨"slack", by decide⟩, ⟨"channel:C1", by decide⟩⟩

/-- The queued task gets a route and is cancelled. -/
def routedStore : Store :=
  (WriteOp.cancelTask taskId.val ⟨event 3 .taskCancelled 12 .cancelled, by decide⟩).after
    ((WriteOp.saveTaskRoute slackRoute).after store)

theorem routedStore_reachable : storeSystem.Reachable routedStore :=
  storeSystem_after (storeSystem_after (storeSystem_after (storeSystem_after (.of_init rfl)
    trivial) trivial) trivial) trivial

def notifier : StoredRouteResultNotifier := ⟨delivery, fun _ text => text⟩

/-- A replay in an environment in which everything goes well. -/
theorem replay_returns :
    ∃ s, (replaySystem notifier routedStore).Reachable ⟨.returned [], s⟩ := by
  have hexec : (System.exec (Replay.next notifier) ⟨.listing, routedStore⟩
      (List.replicate 9 { time := ⟨30, 0⟩ })).map Replay.pc = some (.returned []) := by
    decide +kernel
  obtain ⟨⟨_, s⟩, hr, rfl⟩ := Option.map_eq_some_iff.1 hexec
  exact ⟨s, ⟨.listing, routedStore⟩, _, rfl, System.run_of_exec hr⟩

end Sample

open Sample in
theorem replay_delivers_sample : ∃ s,
    (replaySystem notifier routedStore).Reachable ⟨.returned [], s⟩ ∧
      ∀ route task, s.Routed route task →
        s.isDeliveryDelivered (updateDeliveryId task) = .ok true := by
  obtain ⟨s, hr⟩ := replay_returns
  refine ⟨s, hr, (replay_delivers notifier routedStore_reachable hr).2 ?_⟩
  intro route task _
  have hrows : routedStore.taskRoutes.rows.length = 1 := by decide +kernel
  have hreceipts : routedStore.deliveryReceipts = .empty _ := by decide +kernel
  refine .inr ⟨?_, ?_⟩
  · refine lt_of_le_of_lt (List.length_filter_le _ _) ?_
    rw [hrows]
    decide
  · rw [Store.receipt, hreceipts]
    simp

/-! ## A route behind the first thousand -/

/-- The store after its tasks were created and routed, in the order of `routes`. -/
structure Crowd (routes : List TaskRoute) (s : Store) : Prop where
  reachable : storeSystem.Reachable s
  tasks : ∀ k, (s.tasks.get? k).isSome = true → k ∈ routes.map TaskRoute.key
  pending : ∀ route ∈ routes, ∃ row, s.tasks.get? route.key = some row ∧
    row.taskJson.toTaskFields = { Sample.taskFields with taskId := route.taskId }
  events : ∀ e ∈ s.events, e.key.toNat < routes.length
  routes : s.taskRoutes.rows = routes
  receipts : s.deliveryReceipts = .empty _

namespace Sample

def taskOf (id : TaskId) : Task :=
  ⟨{ taskFields with taskId := id }, task.valid⟩

def createdOf (id : TaskId) (n : Nat) : EventEnvelope :=
  ⟨{ created.toEventFields with eventId := BitVec.ofNat 128 n, taskId := some id },
    created.context⟩

theorem lifecycle_createdOf (id : TaskId) (n : Nat) :
    LifecycleEvent (taskOf id) .pending (createdOf id n) :=
  ⟨rfl, rfl, rfl, rfl, rfl⟩

theorem crowd_empty : Crowd [] .empty where
  reachable := .of_init rfl
  tasks _ h := nomatch h
  pending _ h := nomatch h
  events _ h := absurd h (Table.not_mem_empty _)
  routes := rfl
  receipts := rfl

/-- One more task is created, and routed. -/
theorem crowd_snoc {routes : List TaskRoute} {s : Store} (h : Crowd routes s)
    (hlength : routes.length < 2 ^ 128) {route : TaskRoute}
    (hnew : route.key ∉ routes.map TaskRoute.key) : ∃ s', Crowd (routes ++ [route]) s' := by
  let task := taskOf route.taskId
  let event := createdOf route.taskId routes.length
  have hc := storeSystem_coherent h.reachable
  have hrow : s.tasks.get? task.taskId.val = none := by
    by_contra hsome
    exact hnew (h.tasks _ (Option.isSome_iff_ne_none.2 hsome))
  have hid : event.eventId.toNat = routes.length := by
    show (BitVec.ofNat 128 routes.length).toNat = _
    rw [BitVec.toNat_ofNat, Nat.mod_eq_of_lt hlength]
  have hfresh : s.events.get? event.eventId = none := by
    refine Table.get?_eq_none.2 fun e he heq => ?_
    have hlt := h.events e he
    rw [heq, hid] at hlt
    exact lt_irrefl _ hlt
  obtain ⟨s₁, hcreate⟩ : ∃ s₁, Store.createTask task event s = .ok (task, s₁) :=
    Store.createTask_commits rfl (lifecycle_createdOf _ _) hrow hfresh
  obtain ⟨hstep, hrecords, _⟩ := Store.createTask_ok hc hcreate
  have hafter : (WriteOp.createTask task event).after s = s₁ := by
    rw [WriteOp.after, WriteOp.exec, hcreate]
    rfl
  cases hstep with
  | create _ _ _ _ _ _ hputs hstores =>
    have hself : s₁.tasks.get? route.taskId.val = some (.created task event.timestamp) :=
      hputs.get?_self
    have hfree : s₁.taskRoutes.get? route.key = none := by
      rw [hrecords.taskRoutes]
      refine Table.get?_eq_none.2 fun r hr heq => hnew ?_
      rw [Table.mem_def, h.routes] at hr
      exact heq ▸ List.mem_map_of_mem hr
    have hsave : Store.saveTaskRoute route s₁ =
        .ok (route, { s₁ with taskRoutes := s₁.taskRoutes.insert route hfree }) :=
      Store.saveTaskRoute_commits (by rw [hself]; rfl) hfree
    refine ⟨(WriteOp.saveTaskRoute route).after s₁, ?_⟩
    have hafter' : (WriteOp.saveTaskRoute route).after s₁ =
        { s₁ with taskRoutes := s₁.taskRoutes.insert route hfree } := by
      rw [WriteOp.after, WriteOp.exec, hsave]
      rfl
    constructor
    · exact storeSystem_after (hafter ▸ storeSystem_after h.reachable trivial) trivial
    all_goals rw [hafter']
    · intro k hk
      have hk' : (s₁.tasks.get? k).isSome = true := hk
      rw [hputs k] at hk'
      rw [List.map_append, List.mem_append]
      split_ifs at hk' with heq
      · exact .inr (by rw [← heq]; simp [task, TaskRoute.key, taskOf])
      · exact .inl (h.tasks k hk')
    · intro route' hroute'
      rcases List.mem_append.1 hroute' with hmem | hmem
      · obtain ⟨row, hrow', hfields⟩ := h.pending route' hmem
        refine ⟨row, ?_, hfields⟩
        have hne : (TaskRow.created task event.timestamp).key ≠ route'.key := by
          intro heq
          exact hnew (List.mem_map.2 ⟨route', hmem, heq.symm⟩)
        exact (hputs.get?_of_ne hne).trans hrow'
      · rw [List.mem_singleton.1 hmem]
        exact ⟨_, hself, rfl⟩
    · intro e he
      rw [List.length_append, List.length_singleton]
      rcases hstores.mem.1 he with hold | rfl
      · exact Nat.lt_succ_of_lt (h.events e hold)
      · rw [← hid]
        exact Nat.lt_succ_self _
    · rw [Table.rows_insert, hrecords.taskRoutes, h.routes]
    · exact hrecords.deliveryReceipts.trans h.receipts

/-- Tasks with any routes can be stored. -/
theorem crowd_of_nodup {routes : List TaskRoute} (hnodup : (routes.map TaskRoute.key).Nodup)
    (hlength : routes.length < 2 ^ 128) : ∃ s, Crowd routes s := by
  induction routes using List.reverseRecOn with
  | nil => exact ⟨.empty, crowd_empty⟩
  | append_singleton routes route ih =>
    rw [List.map_append, List.nodup_append] at hnodup
    rw [List.length_append, List.length_singleton] at hlength
    obtain ⟨s, hs⟩ := ih hnodup.1 (by omega)
    refine crowd_snoc hs (by omega) fun hmem => ?_
    exact hnodup.2.2 _ hmem _ (by simp) rfl

/-- `TASK-000` to `TASK-999`. -/
def crowdText (d : Fin 10 × Fin 10 × Fin 10) : List Char :=
  ['T', 'A', 'S', 'K', '-', Nat.digitChar d.1, Nat.digitChar d.2.1, Nat.digitChar d.2.2]

theorem isDigit_digitChar : ∀ i : Fin 10, Text.isDigit (Nat.digitChar i) = true := by decide

theorem crowdText_ok (d : Fin 10 × Fin 10 × Fin 10) :
    StringConstraints.accepts ⟨6, 69, upperIdPattern "TASK-"⟩ (String.ofList (crowdText d)) =
      true := by
  have hid : ∀ c ∈ crowdText d, isIdChar c = true := by
    simp only [crowdText, List.mem_cons, List.not_mem_nil, or_false]
    rintro c (rfl | rfl | rfl | rfl | rfl | rfl | rfl | rfl) <;>
      first | decide | simp [isIdChar, isDigit_digitChar]
  have hstrip := Text.strip_of_graphic fun c hc => graphic_of_isIdChar (hid c hc)
  have hpattern : upperIdPattern "TASK-" (crowdText d) = true := by
    simp [upperIdPattern, crowdText, Text.headThen, isDigit_digitChar]
  have hlength : (crowdText d).length = 8 := rfl
  simp [StringConstraints.accepts, hstrip, hpattern, hlength]

def crowdId (d : Fin 10 × Fin 10 × Fin 10) : TaskId := ⟨_, crowdText_ok d⟩

def terminalRoute (id : TaskId) : TaskRoute :=
  ⟨id, ⟨"cli", by decide⟩, ⟨"terminal:local", by decide⟩⟩

def crowd : List TaskRoute :=
  (List.finRange 10 ×ˢ (List.finRange 10 ×ˢ List.finRange 10)).map fun d =>
    terminalRoute (crowdId d)

/-- Its id is greater than those of the crowd. -/
def lastRoute : TaskRoute := ⟨⟨"TASK-A", by decide⟩, ⟨"slack", by decide⟩, ⟨"C1", by decide⟩⟩

theorem crowd_length : crowd.length = 1000 := by
  simp [crowd, List.length_product]

theorem crowd_slack {route : TaskRoute} (h : route ∈ crowd) : route.source.val ≠ "slack" := by
  obtain ⟨d, _, rfl⟩ := List.mem_map.1 h
  show "cli" ≠ "slack"
  decide

theorem crowd_lt {route : TaskRoute} (h : route ∈ crowd) : route.key < lastRoute.key := by
  have hlt : ∀ i : Fin 10, Nat.digitChar i < 'A' := by decide
  obtain ⟨d, _, rfl⟩ := List.mem_map.1 h
  show String.ofList (crowdText d) < "TASK-A"
  rw [String.lt_iff_toList_lt]
  simp [crowdText]
  exact .rel (hlt _)

theorem crowd_nodup : ((crowd ++ [lastRoute]).map TaskRoute.key).Nodup := by
  have hdigit : ∀ i j : Fin 10, Nat.digitChar i = Nat.digitChar j → i = j := by decide
  have hinj : Function.Injective fun d => (terminalRoute (crowdId d)).key := by
    rintro ⟨i, j, k⟩ ⟨i', j', k'⟩ h
    have htext := congrArg String.toList h
    simp only [terminalRoute, TaskRoute.key, crowdId, String.toList_ofList, crowdText,
      List.cons.injEq, true_and, and_true] at htext
    rw [hdigit _ _ htext.1, hdigit _ _ htext.2.1, hdigit _ _ htext.2.2]
  have hcrowd : (crowd.map TaskRoute.key).Nodup := by
    rw [crowd, List.map_map]
    exact ((List.nodup_finRange 10).product
      ((List.nodup_finRange 10).product (List.nodup_finRange 10))).map hinj
  rw [List.map_append, List.nodup_append]
  refine ⟨hcrowd, List.nodup_singleton _, fun key hkey key' hkey' heq => ?_⟩
  obtain ⟨route, hroute, rfl⟩ := List.mem_map.1 hkey
  have hlt := crowd_lt hroute
  rw [heq, List.mem_singleton.1 hkey'] at hlt
  exact lt_irrefl _ hlt

/-- The event that cancels the last task. -/
def cancelled : EventEnvelope :=
  ⟨{ event 1001 .taskCancelled 20 .cancelled with taskId := some lastRoute.taskId }, by decide⟩

/-- A store with a thousand routes to a terminal, and a cancelled task with a Slack route behind
them. -/
theorem crowded : ∃ s, storeSystem.Reachable s ∧ s.taskRoutes.rows = crowd ++ [lastRoute] ∧
    s.deliveryReceipts = .empty _ ∧ ∃ task, s.Routed lastRoute task := by
  have hlength : (crowd ++ [lastRoute]).length = 1001 := by
    rw [List.length_append, crowd_length]
    rfl
  obtain ⟨s, hs⟩ := crowd_of_nodup crowd_nodup (by omega)
  obtain ⟨row, hrow, hfields⟩ := hs.pending lastRoute (by simp)
  have hc := storeSystem_coherent hs.reachable
  have hlife : LifecycleEvent row.taskJson .cancelled cancelled :=
    ⟨rfl, by rw [hfields]; rfl, by rw [hfields]; rfl, by rw [hfields]; rfl, rfl⟩
  have hfresh : s.events.get? cancelled.eventId = none := by
    refine Table.get?_eq_none.2 fun e he heq => ?_
    have hlt := hs.events e he
    rw [heq, hlength] at hlt
    exact absurd hlt (by decide)
  obtain ⟨updated, hmoved, hupdated⟩ :
      ∃ updated, transitionTask row.taskJson .cancelled cancelled.timestamp = .ok updated ∧
        updated.toTaskFields = row.taskJson.moved .cancelled cancelled.timestamp :=
    transitionTask_eq_ok (by rw [hfields]; decide) (by rw [hfields]; decide)
      (by rw [hfields]; decide)
  obtain ⟨s', hcancel⟩ := Store.transitionTask_commits hc hrow hlife hfresh hmoved
  obtain ⟨row', hrow', _, ⟨hstored, _⟩ | ⟨_, _, hputs, hrecords⟩⟩ := Store.transitionTask_ok hcancel
  · rw [Store.eventJsonLocked, hfresh] at hstored
    cases hstored
  · obtain rfl : row' = row := Option.some.inj (hrow'.symm.trans hrow)
    have hafter : (WriteOp.cancelTask lastRoute.key cancelled).after s = s' := by
      rw [WriteOp.after, WriteOp.exec, Store.cancelTask, hcancel]
      rfl
    have hfound : s'.tasks.get? lastRoute.taskId.val = some (row'.moved updated ⟨20, 0⟩) := by
      have hkey : row'.key = lastRoute.key := Table.key_of_get? hrow
      have hself := hputs.get?_self
      rw [TaskRow.key_moved, hkey] at hself
      exact hself
    refine ⟨s', hafter ▸ storeSystem_after hs.reachable trivial, ?_, ?_, updated, ?_, rfl, ?_, ?_⟩
    · rw [hrecords.taskRoutes, hs.routes]
    · rw [hrecords.deliveryReceipts, hs.receipts]
    · rw [Table.mem_def, hrecords.taskRoutes, hs.routes]
      simp
    · rw [Store.getTask, Store.taskRow, hfound]
      rfl
    · rw [hupdated]
      show TaskStatus.cancelled ∈ replayableStatuses
      decide

end Sample

theorem nextRoute_of_not_slack {failed : List TaskId} {routes : List TaskRoute}
    (h : ∀ route ∈ routes, route.source.val ≠ "slack") :
    nextRoute failed routes = .returned failed := by
  induction routes with
  | nil => rfl
  | cons route routes ih =>
    rw [nextRoute, if_neg (h route (by simp))]
    exact ih fun route' hroute' => h route' (by simp [hroute'])

theorem length_le_of_behind {before : List TaskRoute} {last : TaskRoute}
    (h : ∀ route ∈ before, route.key < last.key) :
    before.length ≤ ((before ++ [last]).filter fun other => other.key < last.key).length := by
  have hall : before.filter (fun other => other.key < last.key) = before :=
    List.filter_eq_self.2 fun other hother => by simpa using h other hother
  rw [List.filter_append, List.length_append, hall]
  exact Nat.le_add_right _ _

open Sample in
/-- With no delivery in progress, the replay on the crowded store returns no failure, and has not
delivered the update on the cancelled task. -/
theorem replay_skips : ¬ ∀ (n : StoredRouteResultNotifier) (s s' : Store),
    storeSystem.Reachable s → (∀ receipt ∈ s.deliveryReceipts, receipt.state ≠ .reserved) →
    (replaySystem n s).Reachable ⟨.returned [], s'⟩ → ∀ route task, s'.Routed route task →
    s'.isDeliveryDelivered (updateDeliveryId task) = .ok true := by
  intro h
  obtain ⟨s, hs, hroutes, hreceipts, task, hrouted⟩ := crowded
  have hlisted : ∀ route ∈ s.listed, route.source.val ≠ "slack" := by
    intro route hroute
    obtain ⟨hmem, hrank⟩ := Table.mem_take_ordered.1 hroute
    rw [Table.mem_def, hroutes, List.mem_append, List.mem_singleton] at hmem
    rcases hmem with hmem | rfl
    · exact crowd_slack hmem
    · -- the thousand routes of the crowd come before it
      have hcrowd : ∀ route ∈ crowd, route.key < lastRoute.key := fun _ => crowd_lt
      have hbehind := length_le_of_behind hcrowd
      rw [← hroutes, crowd_length] at hbehind
      exact absurd hrank (not_lt_of_ge hbehind)
  let n : StoredRouteResultNotifier := ⟨delivery, fun _ text => text⟩
  have hstep : (replaySystem n s).step ⟨.listing, s⟩ { time := ⟨30, 0⟩ } ⟨.returned [], s⟩ := by
    show Replay.next n ⟨.listing, s⟩ { time := ⟨30, 0⟩ } = _
    simp only [Replay.next, replayNext, listTaskRoutes_listed, nextRoute_of_not_slack hlisted,
      Option.map_some]
  have hfree : ∀ receipt ∈ s.deliveryReceipts, receipt.state ≠ .reserved := by
    intro receipt hreceipt
    rw [hreceipts] at hreceipt
    exact absurd hreceipt (Table.not_mem_empty receipt)
  have hdelivered := h n s s hs hfree ((System.Reachable.of_init rfl).step hstep) lastRoute task
    hrouted
  have hsettled := (isDeliveryDelivered_update.1 hdelivered).2
  rw [receipt_eq_settled, hreceipts] at hsettled
  cases hsettled

end AIHub
