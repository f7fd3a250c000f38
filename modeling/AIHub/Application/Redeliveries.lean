import AIHub.Application.Creation
import AIHub.Gateway.Dedup

/-!
# Crashes and redeliveries of a dev request

Any number of executions of `AgentGateway.handle` for one request, interleaved at their awaits. The
process may crash between any two steps; then every execution that has begun is lost, and the
reconciliations of `HubApplication.initialize` run before the gateway takes requests again.
Meanwhile the orchestrator and other requests write to the store.

**The invariant** (`DevRequest.Safe`). Wherever a response that is ACCEPTED stands, in a stage of an
execution or in the table of gateway requests, the task has been made.

* `safe_step`: no step breaks it, a crash included.
* `queued_once`: once an execution has returned ACCEPTED, the store has one task for the request,
  created and queued once, with the text, project, team and route that were asked for.
-/

namespace AIHub

open Transition

/-! ## Executions, crashes and restarts -/

/-- Whether the hub is up, or how far its restart has come. -/
inductive HubPhase where
  | down | runsReconciled | deliveriesReconciled | up
  deriving DecidableEq

/-- The next reconciliation of `initialize`, and the phase after it. -/
def HubPhase.reconciliation (time : Timestamp) (uuid4 : TaskId → Uuid) :
    HubPhase → Option (WriteOp × HubPhase)
  | down => some (.reconcileInterruptedRunning time uuid4, runsReconciled)
  | runsReconciled => some (.reconcileReservedDeliveries, deliveriesReconciled)
  | deliveriesReconciled => some (.reconcileIncompleteGatewayRequests, up)
  | up => none

/-- What a crash leaves of an execution: one that has not begun may still begin. -/
def HandleStage.afterCrash : HandleStage → HandleStage
  | authorizing => authorizing
  | returned response => returned response
  | looking | reserving | dispatching | remembering _ | releasing _ | interrupted => interrupted

namespace DevRequest

structure State (ι : Type) where
  store : Store
  phase : HubPhase
  stages : ι → HandleStage
  creations : ι → CreatePc

inductive Event (ι : Type) where
  /-- The authorizer answers, or raises. -/
  | authorized (i : ι) (answer : Option Bool)
  /-- A call to the deduplicator. -/
  | called (i : ι) (time : Timestamp)
  | created (i : ι) (c : CreateChoice)
  | dispatched (i : ι)
  /-- Somebody else writes to the store. -/
  | wrote (op : WriteOp)
  | crashed
  | reconciled (time : Timestamp) (uuid4 : TaskId → Uuid)

variable {ι : Type}

def Event.write : Event ι → Option WriteOp
  | wrote op => some op
  | authorized _ _ | called _ _ | created _ _ | dispatched _ | crashed | reconciled _ _ => none

def Event.isCrash : Event ι → Bool
  | crashed => true
  | authorized _ _ | called _ _ | created _ _ | dispatched _ | wrote _ | reconciled _ _ => false

variable [DecidableEq ι] (R : DevRequest)

def next (s : State ι) : Event ι → Option (State ι)
  | .authorized i answer =>
    if s.phase = .up ∧ s.stages i = .authorizing then
      some { s with
        stages := Function.update s.stages i (.authorized R.sensitive R.request answer) }
    else none
  | .called i time =>
    if s.phase = .up then
      ((s.stages i).call R.key).bind fun call =>
        let (reply, store) := DurableRequestDeduplicator.run time s.store call
        ((s.stages i).resume reply).map fun stage =>
          { s with store, stages := Function.update s.stages i stage }
    else none
  | .created i c =>
    if s.phase = .up ∧ s.stages i = .dispatching then
      (R.createNext c (s.creations i) s.store).map fun (pc, store) =>
        { s with store, creations := Function.update s.creations i pc }
    else none
  | .dispatched i =>
    match s.phase, s.stages i, s.creations i with
    | .up, .dispatching, .ended outcome =>
      some { s with stages := Function.update s.stages i (.dispatched outcome) }
    | _, _, _ => none
  | .wrote op =>
    if op.FreshUuids s.store then some { s with store := op.after s.store } else none
  | .crashed => some { s with
      phase := .down
      stages := fun i => (s.stages i).afterCrash
      creations := fun _ => .starting }
  | .reconciled time uuid4 =>
    (s.phase.reconciliation time uuid4).bind fun (op, phase) =>
      if op.FreshUuids s.store ∧ op.Commits s.store then
        some { s with store := op.after s.store, phase }
      else none

/-- The store has nothing of the request yet. -/
structure Unseen (s : Store) : Prop where
  task : s.tasks.get? R.taskId = none
  route : s.getTaskRoute R.taskId = none
  request : s.gatewayRequests.get? R.key = none

/-- At first the request has not been delivered. -/
def system : System (State ι) (Event ι) :=
  .ofNext (fun s => s.phase = .up ∧ (∀ i, s.stages i = .authorizing) ∧
    (∀ i, s.creations i = .starting) ∧ storeSystem.Reachable s.store ∧ R.Unseen s.store) R.next

/-- Others do not write about the request. -/
def Apart (_ : State ι) (a : Event ι) : Prop := (a.write).all fun op => R.Elsewhere op

instance (s : State ι) (a : Event ι) : Decidable (R.Apart s a) :=
  inferInstanceAs (Decidable (_ = true))

/-- The runs in which others do not write about the request. -/
def redeliveries : System (State ι) (Event ι) := R.system.guard R.Apart

/-- The runs without a crash. -/
def uninterrupted : System (State ι) (Event ι) :=
  R.redeliveries.guard fun _ a => a.isCrash = false

end DevRequest

namespace HandleStage

variable {stage stage' : HandleStage}

/-- The response of the handler is ACCEPTED. -/
def accepts : HandleStage → Bool
  | remembering r | releasing (some r) | returned r => r.code = .accepted
  | authorizing | looking | reserving | dispatching | releasing none | interrupted => false

theorem accepts_authorized (sensitive : String → Bool) (request : GatewayRequest)
    (answer : Option Bool) : (authorized sensitive request answer).accepts = false := by
  rcases answer with _ | _ | _
  · rfl
  · rfl
  · unfold authorized
    split_ifs <;> rfl

theorem accepts_dispatched {outcome : DispatchOutcome}
    (h : (dispatched outcome).accepts = true) :
    ∃ r, outcome = .response r ∧ r.code = .accepted := by
  cases outcome with
  | interrupted => cases h
  | response r =>
    refine ⟨r, rfl, ?_⟩
    simp only [dispatched] at h
    split_ifs at h <;> exact of_decide_eq_true h
  | error e => cases e <;> cases h

/-- A response that is ACCEPTED is the one of the stage before, or has been found. -/
theorem accepts_resume {reply : DedupReply} (h : stage.resume reply = some stage')
    (haccepts : stage'.accepts = true) : stage.accepts = true ∨
      ∃ cached, stage = looking ∧ reply = .found (some cached) ∧ cached.code = .accepted := by
  unfold resume at h
  split at h <;> cases h
  case h_1 cached => exact .inr ⟨cached, rfl, rfl, of_decide_eq_true haccepts⟩
  all_goals first | exact .inl haccepts | cases haccepts

theorem accepts_afterCrash (h : stage.afterCrash.accepts = true) : stage.accepts = true := by
  cases stage with
  | returned r => exact h
  | authorizing | looking | reserving | dispatching | remembering _ | releasing _
  | interrupted => cases h

end HandleStage

namespace DevRequest

/-! ## The invariant -/

section

variable {ι : Type}

theorem exists_key (R : DevRequest) : ∃ key : IdempotencyKey, key.val = R.key :=
  R.request.idempotencyKey_accepted

/-- Wherever a response that is ACCEPTED stands, the task has been made. -/
structure Safe (R : DevRequest) (s : State ι) : Prop where
  store : R.Sound s.store
  creations : ∀ i, R.Reached (R.Made s.store) (s.creations i)
  stages : ∀ i, (s.stages i).accepts = true → R.Made s.store
  stored : ∀ document response, s.store.document R.key = some document →
    GatewayResponse.modelValidate document = .ok response → response.code = .accepted →
      R.Made s.store

variable {R : DevRequest} {s s' : State ι} {store : Store}

/-- The store changes. What it has been told of the request is there, or is no news. -/
theorem Safe.wrote (h : R.Safe s) (hstore : R.Sound store)
    (hmade : R.Made s.store → R.Made store)
    (hdocument : ∀ document, store.document R.key = some document →
      s.store.document R.key = some document ∨ ∀ response,
        GatewayResponse.modelValidate document = .ok response → response.code = .accepted →
          R.Made s.store) : R.Safe { s with store } where
  store := hstore
  creations i := (h.creations i).mono hmade
  stages i hi := hmade (h.stages i hi)
  stored document response hstored hvalid hcode := by
    rcases hdocument document hstored with hbefore | hnew
    · exact hmade (h.stored document response hbefore hvalid hcode)
    · exact hmade (hnew response hvalid hcode)

/-- The store changes by an operation that leaves the task and the response to the gateway. -/
theorem Safe.after (h : R.Safe s) {op : WriteOp} (hop : R.Elsewhere op)
    (hfresh : op.FreshUuids s.store) : R.Safe { s with store := op.after s.store } := by
  have hleaves : R.LeavesTask op := by
    cases op <;> first | exact trivial | exact hop
  obtain ⟨hc, hunmade, hmade⟩ := hleaves.keeps h.store.coherent hfresh
  refine h.wrote ⟨hc, h.store.whole.imp hunmade hmade⟩ hmade fun document hdocument => ?_
  rcases WriteOp.document_after hdocument with hbefore | ⟨time, rfl⟩
  · exact .inl hbefore
  · exact absurd rfl hop

/-- A handler of the request makes its next call. -/
theorem Safe.call (h : R.Safe s) {i : ι} {call : DedupCall} (time : Timestamp)
    (hcall : (s.stages i).call R.key = some call) :
    R.Safe { s with store := (DurableRequestDeduplicator.run time s.store call).2 } := by
  rw [DurableRequestDeduplicator.run_snd]
  cases hstage : s.stages i with
  | authorizing | dispatching | returned _ | interrupted =>
    rw [hstage] at hcall
    cases hcall
  | looking =>
    rw [hstage] at hcall
    cases hcall
    exact h
  | reserving =>
    rw [hstage] at hcall
    cases hcall
    have hop : R.Elsewhere (.reserveGatewayRequest R.key time) := trivial
    simp only [DedupCall.write, Option.elim_some]
    exact h.after hop trivial
  | releasing _ =>
    rw [hstage] at hcall
    cases hcall
    have hop : R.Elsewhere (.releaseGatewayRequest R.key time) := trivial
    simp only [DedupCall.write, Option.elim_some]
    exact h.after hop trivial
  | remembering r =>
    rw [hstage] at hcall
    cases hcall
    have hleaves : R.LeavesTask (.rememberGatewayResponse R.key r.modelDump time) := trivial
    simp only [DedupCall.write, Option.elim_some]
    obtain ⟨hc, hunmade, hmade⟩ := hleaves.keeps h.store.coherent trivial
    refine h.wrote ⟨hc, h.store.whole.imp hunmade hmade⟩ hmade fun document hdocument => ?_
    rcases WriteOp.document_after hdocument with hbefore | ⟨time', hremember⟩
    · exact .inl hbefore
    · refine .inr fun response hvalid hcode => h.stages i ?_
      simp only [WriteOp.rememberGatewayResponse.injEq] at hremember
      rw [← hremember.2.1, GatewayResponse.modelValidate_modelDump] at hvalid
      cases hvalid
      rw [hstage]
      exact decide_eq_true hcode

variable [DecidableEq ι]

/-- A handler moves to a stage. -/
theorem Safe.stage (h : R.Safe s) (i : ι) {stage : HandleStage}
    (hstage : stage.accepts = true → R.Made s.store) :
    R.Safe { s with stages := Function.update s.stages i stage } where
  store := h.store
  creations := h.creations
  stages j hj := by
    by_cases hji : j = i
    · subst hji
      exact hstage (by simpa using hj)
    · exact h.stages j (by simpa [hji] using hj)
  stored := h.stored

theorem safe_step {a : Event ι} (h : R.Safe s) (hapart : R.Apart s a)
    (hstep : R.next s a = some s') : R.Safe s' := by
  cases a with
  | authorized i answer =>
    simp only [next] at hstep
    split_ifs at hstep
    cases hstep
    refine h.stage i fun haccepts => ?_
    rw [HandleStage.accepts_authorized] at haccepts
    cases haccepts
  | called i time =>
    simp only [next] at hstep
    split_ifs at hstep
    simp only [Option.bind_eq_some_iff, Option.map_eq_some_iff] at hstep
    obtain ⟨call, hcall, stage, hresume, rfl⟩ := hstep
    refine (h.call time hcall).stage i fun haccepts => ?_
    rcases HandleStage.accepts_resume hresume haccepts with hbefore | ⟨cached, hi, hfound, hcode⟩
    · exact (h.call time hcall).stages i hbefore
    · -- the handler looks the request up, and changes nothing
      rw [hi] at hcall
      cases hcall
      obtain ⟨key, hkey⟩ := R.exists_key
      simp only [DurableRequestDeduplicator.run, ← hkey] at hfound
      obtain ⟨document, hdocument, hvalid⟩ := DurableRequestDeduplicator.document_of_found hfound
      exact h.stored document cached (hkey ▸ hdocument) hvalid hcode
  | created i c =>
    simp only [next] at hstep
    split_ifs at hstep
    obtain ⟨⟨pc, store⟩, hnext, rfl⟩ := Option.map_eq_some_iff.1 hstep
    obtain ⟨hsound, hmade, hreached, hrequests⟩ := createNext_reached h.store (h.creations i) hnext
    have hsafe : R.Safe { s with store } := by
      refine h.wrote hsound hmade fun document hdocument => .inl ?_
      unfold Store.document at hdocument ⊢
      rwa [hrequests] at hdocument
    refine ⟨hsafe.store, fun j => ?_, hsafe.stages, hsafe.stored⟩
    by_cases hji : j = i
    · subst hji
      simpa using hreached
    · simpa [hji] using hsafe.creations j
  | dispatched i =>
    simp only [next] at hstep
    split at hstep
    · rename_i outcome _ _ houtcome
      cases hstep
      refine h.stage i fun haccepts => ?_
      obtain ⟨r, rfl, hcode⟩ := HandleStage.accepts_dispatched haccepts
      have hended := h.creations i
      rw [houtcome] at hended
      exact hended r rfl hcode
    · cases hstep
  | wrote op =>
    simp only [next] at hstep
    split_ifs at hstep with hfresh
    cases hstep
    exact h.after (of_decide_eq_true hapart) hfresh
  | crashed =>
    cases hstep
    exact ⟨h.store, fun _ => trivial, fun i hi => h.stages i (HandleStage.accepts_afterCrash hi),
      h.stored⟩
  | reconciled time uuid4 =>
    simp only [next] at hstep
    obtain ⟨⟨op, phase⟩, hphase, hstep⟩ := Option.bind_eq_some_iff.1 hstep
    split_ifs at hstep with hop
    cases hstep
    have hother : R.Elsewhere op := by
      revert hphase
      cases s.phase <;> intro hphase <;> cases hphase <;> trivial
    have hsafe := h.after hother hop.1
    exact ⟨hsafe.store, hsafe.creations, hsafe.stages, hsafe.stored⟩

theorem safe_reachable (h : R.redeliveries.Reachable s) : R.Safe s := by
  have hI : (R.redeliveries : System (State ι) (Event ι)).Invariant R.Safe := {
    init := by
      rintro s ⟨_, hstages, hcreations, hreachable, hunseen⟩
      refine ⟨⟨storeSystem_coherent hreachable, .inl ⟨hunseen.task, hunseen.route⟩⟩, fun i => ?_,
        fun i hi => ?_, fun document response hdocument => ?_⟩
      · rw [hcreations i]
        trivial
      · rw [hstages i] at hi
        cases hi
      · rw [Store.document, hunseen.request] at hdocument
        cases hdocument
    step := fun s a t h hst => safe_step h hst.1 hst.2 }
  exact hI.reachable h

/-! ## The main result -/

/-- However often the process crashes while it executes a dev request for a registered project,
and the request is delivered again: once an execution has returned ACCEPTED, the store has one task
for the request, created once and queued once, with the text, the project, the team and the route
that are asked for, as after a run without a crash. -/
theorem queued_once (R : DevRequest) (s : State ι) (i : ι) (r : GatewayResponse)
    (hs : R.redeliveries.Reachable s) (hreturned : s.stages i = .returned r)
    (hcode : r.code = .accepted) :
    R.summary s.store = R.expected ∧ ∀ (t : State ι) (j : ι) (r' : GatewayResponse),
      R.uninterrupted.Reachable t → t.stages j = .returned r' → r'.code = .accepted →
        R.summary s.store = R.summary t.store := by
  have hsummary : ∀ (t : State ι) (j : ι) (r' : GatewayResponse), R.redeliveries.Reachable t →
      t.stages j = .returned r' → r'.code = .accepted → R.summary t.store = R.expected := by
    intro t j r' ht hj hr'
    refine summary_eq ((safe_reachable ht).stages j ?_)
    rw [hj]
    exact decide_eq_true hr'
  refine ⟨hsummary s i r hs hreturned hcode, fun t j r' ht hj hr' => ?_⟩
  exact (hsummary s i r hs hreturned hcode).trans (hsummary t j r' ht.of_guard hj hr').symm

end

end DevRequest

namespace Sample

/-- A request for the shop. -/
def cartRequest : DevRequest where
  gateway := { longListing with uuid5 := fun _ => 7 }
  bundle := Config.Sample.besides
  sensitive := fun _ => false
  request := devRequest channelTarget
  dev := rfl
  registered := shop_registered

/-- The records draw the event ids `n` and `n + 1`. -/
def creates (i n : Nat) : DevRequest.Event Nat :=
  .created i ⟨⟨⟨0, 0⟩, n, ⟨1, 0⟩, n + 1, ⟨2, 0⟩⟩, n, ⟨3, 0⟩⟩

def cartStarted : EventEnvelope :=
  ⟨{ eventId := 3, eventType := .taskStarted, timestamp := ⟨4, 0⟩, taskId := some cartRequest.id
     project := some Config.Sample.shop, team := some Config.Sample.shop
     payload := [("status", .string TaskStatus.planning.value)] }, by decide⟩

/-- The process crashes after the task has been created, the orchestrator plans the task, and the
request is delivered again. -/
def deliveredTwice : List (DevRequest.Event Nat) :=
  [.authorized 0 (some true), .called 0 ⟨0, 0⟩, .called 0 ⟨0, 0⟩, creates 0 1, .crashed,
    .reconciled ⟨3, 0⟩ fun _ => 0, .reconciled ⟨3, 0⟩ fun _ => 0, .reconciled ⟨3, 0⟩ fun _ => 0,
    .wrote (.transitionTask cartRequest.taskId .planning cartStarted),
    .authorized 1 (some true), .called 1 ⟨5, 0⟩, .called 1 ⟨5, 0⟩, creates 1 5, creates 1 5,
    creates 1 5, creates 1 5, .dispatched 1, .called 1 ⟨6, 0⟩]

def undelivered : DevRequest.State Nat where
  store := .empty
  phase := .up
  stages := fun _ => .authorizing
  creations := fun _ => .starting

/-- The task is being planned when its request is accepted. -/
def cartAccepted : GatewayResponse where
  success := true
  code := .accepted
  message := ⟨"Task created. ID: TASK-00000000000000000000000000000007; project: shop; " ++
    "team: shop; status: planning.", by decide +kernel⟩
  task := some ⟨cartRequest.id, Config.Sample.shop, Config.Sample.shop, .planning, []⟩
  bounded := GatewayResponse.bounded_nil

end Sample

open Sample in
theorem queued_once_sample :
    let next := System.guardNext cartRequest.Apart cartRequest.next
    let s := System.execD next undelivered deliveredTwice
    cartRequest.summary s.store = cartRequest.expected := by
  intro next
  have hM : cartRequest.redeliveries = System.ofNext _ next := System.ofNext_guard
  have hinit : cartRequest.system.init undelivered :=
    ⟨rfl, fun _ => rfl, fun _ => rfl, .of_init rfl, ⟨rfl, rfl, rfl⟩⟩
  have hany : (System.exec next undelivered deliveredTwice).any
      (fun t => t.stages 1 = .returned cartAccepted) = true := by decide +kernel
  obtain ⟨hrun, hreturned⟩ := System.run_execD_any _ hany
  have hs : cartRequest.redeliveries.Reachable (System.execD next undelivered deliveredTwice) := by
    rw [hM]
    exact ⟨undelivered, deliveredTwice, hinit, hrun⟩
  exact (DevRequest.queued_once cartRequest _ 1 cartAccepted hs hreturned rfl).1

end AIHub
