import AIHub.Gateway.Answers
import AIHub.Gateway.Replays

/-!
# Where responses come from

A handler of `AgentGateway.handle` returns a response that it makes up itself, one that its dispatch
has given, or one that it finds for its key. What it finds, some handler with the key has
remembered. So a property that dispatches give to their responses, those for a key, is a property of
every response for the key: of those that handlers return, of those that calls are about to
remember, and of those that the store has.

* `carries_step`: no step breaks this (`DurableGateway.Carries`).
* `outcome_views`: a dispatch shows the tasks that its ports have returned.
-/

namespace AIHub

open Transition

namespace GatewayResponse

/-- The responses that a handler makes up itself. -/
def own : List GatewayResponse :=
  [authorizationUnavailable, unauthorized, credentialMaterial, deduplicationUnavailable,
    alreadyProcessed, taskNotFound, taskConflict, dependencyUnavailable, internalError]

/-- A handler keeps the property: its own responses have it, and so has what it makes of others. -/
structure Passes (P : GatewayResponse → Prop) : Prop where
  own : ∀ r ∈ own, P r
  replay : ∀ r, P r → P r.replay
  receiptLost : ∀ r, P r → P r.receiptLost

/-- The tasks that the response shows. -/
def views (r : GatewayResponse) : List TaskView := r.task.toList ++ r.tasks

theorem views_of_construct {success : Bool} {code : GatewayCode} {message : String}
    {task : Option TaskView} {tasks : List TaskView} {r : GatewayResponse}
    (h : construct success code message task tasks = .ok r) : r.views = task.toList ++ tasks := by
  simp only [construct, bind_eq_ok] at h
  obtain ⟨_, _, h⟩ := h
  split at h <;> cases h
  rfl

theorem views_of_own {r : GatewayResponse} (h : r ∈ own) : r.views = [] := by
  simp only [own, List.mem_cons, List.not_mem_nil, or_false] at h
  rcases h with rfl | rfl | rfl | rfl | rfl | rfl | rfl | rfl | rfl <;> rfl

theorem code_of_own {r : GatewayResponse} (h : r ∈ own) : r.code ≠ .accepted := by
  simp only [own, List.mem_cons, List.not_mem_nil, or_false] at h
  rcases h with rfl | rfl | rfl | rfl | rfl | rfl | rfl | rfl | rfl <;> decide

end GatewayResponse

namespace AgentGateway

variable {gateway : AgentGateway} {request : GatewayRequest} {r : GatewayResponse}

/-- A port has returned the task. -/
inductive Returns (gateway : AgentGateway) (view : TaskView) : Prop
  | created (command : CreateTaskCommand) (h : gateway.createdTask command = .ok view)
  | cancelled (command : CancelTaskCommand) (h : gateway.cancelledTask command = .ok view)
  | found (taskId : TaskId) (h : gateway.foundTask taskId = .ok (some view))
  | listed (limit : Nat) (tasks : List TaskView) (h : gateway.listedTasks limit = .ok tasks)
      (hmem : view ∈ tasks)
  | enqueued (taskId : TaskId) (h : gateway.enqueuedTask taskId = .ok view)

theorem dispatch_of_outcome (h : gateway.outcome request = .response r) :
    gateway.dispatch request = .ok r := by
  rw [outcome] at h
  split at h <;> cases h
  assumption

/-- A dispatch makes its response of tasks that its ports have returned. -/
theorem dispatch_constructed (h : gateway.dispatch request = .ok r) :
    ∃ success code message task tasks,
      GatewayResponse.construct success code message task tasks = .ok r ∧
      (∀ view ∈ task.toList ++ tasks, gateway.Returns view) ∧
      (code = .accepted → ∃ taskId task, gateway.enqueuedTask taskId = .ok task) := by
  have hone : ∀ {task : TaskView}, gateway.Returns task →
      ∀ view ∈ (some task).toList ++ [], gateway.Returns view :=
    fun htask view hview => List.mem_singleton.1 hview ▸ htask
  unfold dispatch at h
  split at h
  · rw [help, mapError_eq_ok] at h
    exact ⟨_, _, _, _, _, h, (fun _ hview => by cases hview), fun hcode => by cases hcode⟩
  · simp only [createTask, bind_eq_ok] at h
    obtain ⟨command, _, task, hcreated, h⟩ := h
    cases henqueued : gateway.enqueuedTask task.taskId with
    | error e =>
      rw [henqueued] at h
      exact ⟨_, _, _, _, _, mapError_eq_ok.1 h, hone (.created command hcreated),
        fun hcode => by cases hcode⟩
    | ok queued =>
      rw [henqueued] at h
      exact ⟨_, _, _, _, _, mapError_eq_ok.1 h, hone (.enqueued _ henqueued),
        fun _ => ⟨_, _, henqueued⟩⟩
  · unfold taskDetail at h
    split at h
    · cases h
    · rename_i taskId _
      obtain ⟨found, hfound, h⟩ := bind_eq_ok.1 h
      cases found with
      | none => cases h
      | some task =>
        exact ⟨_, _, _, _, _, mapError_eq_ok.1 h, hone (.found taskId hfound),
          fun hcode => by cases hcode⟩
  · simp only [taskList, bind_eq_ok] at h
    obtain ⟨tasks, htasks, h⟩ := h
    exact ⟨_, _, _, _, _, mapError_eq_ok.1 h, fun _ hview => .listed 20 tasks htasks hview,
      fun hcode => by cases hcode⟩
  · simp only [status, bind_eq_ok] at h
    obtain ⟨tasks, htasks, h⟩ := h
    exact ⟨_, _, _, _, _, mapError_eq_ok.1 h, fun _ hview => .listed 100 tasks htasks hview,
      fun hcode => by cases hcode⟩
  · unfold cancel at h
    split at h
    · cases h
    · obtain ⟨task, hcancelled, h⟩ := bind_eq_ok.1 h
      exact ⟨_, _, _, _, _, mapError_eq_ok.1 h, hone (.cancelled _ hcancelled),
        fun hcode => by cases hcode⟩

/-- A response shows only tasks that a port has returned. -/
theorem outcome_views (h : gateway.outcome request = .response r) :
    ∀ view ∈ r.views, gateway.Returns view := by
  obtain ⟨_, _, _, _, _, hconstruct, hviews, _⟩ := dispatch_constructed (dispatch_of_outcome h)
  rw [GatewayResponse.views_of_construct hconstruct]
  exact hviews

/-- Only a request whose task has been queued is accepted. -/
theorem enqueued_of_accepted (h : gateway.outcome request = .response r)
    (hcode : r.code = .accepted) :
    ∃ taskId task, gateway.enqueuedTask taskId = .ok task := by
  obtain ⟨_, _, _, _, _, hconstruct, _, haccepts⟩ := dispatch_constructed (dispatch_of_outcome h)
  exact haccepts ((GatewayResponse.code_of_construct hconstruct).symm.trans hcode)

end AgentGateway

namespace HandleStage

/-- The response of the handler, once it has one. -/
def response : HandleStage → Option GatewayResponse
  | remembering r | releasing (some r) | returned r => some r
  | authorizing | looking | reserving | dispatching | releasing none | interrupted => none

variable {stage stage' : HandleStage} {r : GatewayResponse} {P : GatewayResponse → Prop}

theorem response_authorized {sensitive : String → Bool} {request : GatewayRequest}
    {answer : Option Bool} (h : (authorized sensitive request answer).response = some r) :
    r ∈ GatewayResponse.own := by
  rcases answer with _ | _ | _
  · cases h
    simp [GatewayResponse.own]
  · cases h
    simp [GatewayResponse.own]
  · rw [authorized] at h
    split_ifs at h <;> cases h
    simp [GatewayResponse.own]

theorem response_dispatched {outcome : DispatchOutcome}
    (h : (dispatched outcome).response = some r) :
    outcome = .response r ∨ r ∈ GatewayResponse.own := by
  cases outcome with
  | interrupted => cases h
  | response r' =>
    rw [dispatched] at h
    split_ifs at h <;> cases h <;> exact .inl rfl
  | error e =>
    cases e <;> cases h <;> exact .inr (by simp [GatewayResponse.own])

/-- After a call the response is one that has been found, or is made of the one before. -/
theorem response_resume {reply : DedupReply} (hP : GatewayResponse.Passes P)
    (h : stage.resume reply = some stage') (hfound : ∀ cached, stage = looking →
      reply = .found (some cached) → P cached)
    (hbefore : ∀ r, stage.response = some r → P r) : ∀ r, stage'.response = some r → P r := by
  intro r hr
  unfold resume at h
  split at h <;> cases h <;> cases hr
  case h_1 cached => exact hP.replay _ (hfound cached rfl rfl)
  case h_8 response => exact hP.receiptLost _ (hbefore response rfl)
  all_goals
    first
      | exact hbefore r rfl
      | exact hP.own _ (by simp [GatewayResponse.own])

theorem response_interrupt (h : stage.interrupt = some stage') : stage'.response = none := by
  rcases interrupt_cases h with rfl | ⟨_, rfl⟩ <;> rfl

end HandleStage

namespace DurableGateway

variable {ι : Type}

/-- The responses for the keys have the property. -/
structure Carries (G : DurableGateway ι) (P : String → GatewayResponse → Prop) (s : State ι) :
    Prop where
  stages : ∀ i r, (s.stages i).response = some r → P (G.key i) r
  left : ∀ i key r, s.left i = some (.remember key r) → P key r
  stored : ∀ key document r, s.store.document key = some document →
    GatewayResponse.modelValidate document = .ok r → P key r

variable {G : DurableGateway ι} {P Q : String → GatewayResponse → Prop} {s s' : State ι} {i : ι}
  {call : DedupCall}

theorem Carries.mono (h : G.Carries P s) (hPQ : ∀ key r, P key r → Q key r) : G.Carries Q s where
  stages i r hr := hPQ _ r (h.stages i r hr)
  left i key r hleft := hPQ key r (h.left i key r hleft)
  stored key document r hdocument hvalid := hPQ key r (h.stored key document r hdocument hvalid)

/-- The store changes. What it has been told has the property. -/
theorem Carries.withStore (h : G.Carries P s) {store : Store}
    (hstored : ∀ key document r, store.document key = some document →
      GatewayResponse.modelValidate document = .ok r →
        s.store.document key = some document ∨ P key r) : G.Carries P { s with store } where
  stages := h.stages
  left := h.left
  stored key document r hdocument hvalid := by
    rcases hstored key document r hdocument hvalid with hbefore | hnew
    · exact h.stored key document r hbefore hvalid
    · exact hnew

/-- An operation that remembers no response. -/
theorem Carries.after (h : G.Carries P s) {op : WriteOp}
    (hop : ∀ key document time, op ≠ .rememberGatewayResponse key document time) :
    G.Carries P { s with store := op.after s.store } := by
  refine h.withStore fun key document r hdocument _ => ?_
  rcases WriteOp.document_after hdocument with hbefore | ⟨time, hremember⟩
  · exact .inl hbefore
  · exact absurd hremember (hop key document time)

/-- A call remembers what has the property. -/
theorem Carries.run (h : G.Carries P s) (time : Timestamp)
    (hcall : ∀ key r, call = .remember key r → P key r) :
    G.Carries P { s with store := (DurableRequestDeduplicator.run time s.store call).2 } := by
  rw [DurableRequestDeduplicator.run_snd]
  cases call with
  | get key => exact h
  | reserve key | release key =>
    rw [DedupCall.write, Option.elim_some]
    exact h.after fun _ _ _ hop => by cases hop
  | remember key response =>
    rw [DedupCall.write, Option.elim_some]
    refine h.withStore fun key' document r hdocument hvalid => ?_
    rcases WriteOp.document_after hdocument with hbefore | ⟨time', hremember⟩
    · exact .inl hbefore
    · simp only [WriteOp.rememberGatewayResponse.injEq] at hremember
      obtain ⟨rfl, rfl, _⟩ := hremember
      rw [GatewayResponse.modelValidate_modelDump] at hvalid
      cases hvalid
      exact .inr (hcall key response rfl)

theorem Carries.callStore (h : G.Carries P s) (fate : DedupFate) (time : Timestamp)
    (hcall : ∀ key r, call = .remember key r → P key r) :
    G.Carries P { s with store := (DurableGateway.callStore fate time call s.store).2 } := by
  cases fate with
  | replies | raisesAfter => exact h.run time hcall
  | raises => exact h

/-- What the next call of a handler remembers is its response. -/
theorem Carries.called (h : G.Carries P s) (hcall : (s.stages i).call (G.key i) = some call) :
    ∀ key r, call = .remember key r → P key r := by
  rintro key r rfl
  cases hstage : s.stages i <;> rw [hstage] at hcall <;> cases hcall
  exact h.stages i r (by rw [hstage]; rfl)

/-- What a handler finds is what the store has for its key. -/
theorem Carries.found (h : G.Carries P s) {fate : DedupFate} {time : Timestamp}
    {cached : GatewayResponse} (hcall : (s.stages i).call (G.key i) = some call)
    (hstage : s.stages i = .looking)
    (hfound : (DurableGateway.callStore fate time call s.store).1 = .found (some cached)) :
    P (G.key i) cached := by
  rw [hstage] at hcall
  cases hcall
  cases fate with
  | raises | raisesAfter => cases hfound
  | replies =>
    obtain ⟨key, hkey⟩ := G.exists_key i
    simp only [DurableGateway.callStore, DurableRequestDeduplicator.run, ← hkey] at hfound
    obtain ⟨document, hdocument, hvalid⟩ := DurableRequestDeduplicator.document_of_found hfound
    exact hkey ▸ h.stored key.val document cached hdocument hvalid

variable [DecidableEq ι]

/-- A handler moves to a stage whose response, if any, has the property. -/
theorem Carries.move (h : G.Carries P s) {stage : HandleStage}
    (hstage : ∀ r, stage.response = some r → P (G.key i) r) : G.Carries P (s.move i stage) where
  stages j r hr := by
    by_cases hji : j = i
    · subst hji
      exact hstage r (by simpa [State.move] using hr)
    · exact h.stages j r (by simpa [State.move, hji] using hr)
  left := h.left
  stored := h.stored

/-- No step breaks it, if the dispatches give responses with the property. -/
theorem carries_step {a : Event ι} (hP : ∀ key, GatewayResponse.Passes (P key))
    (h : G.Carries P s)
    (hdispatched : ∀ i r, a = .dispatched i (.response r) → P (G.key i) r)
    (hwrote : ∀ op, a ≠ .wrote op) (hstep : G.next s a = some s') : G.Carries P s' := by
  cases a with
  | authorized i answer =>
    simp only [next] at hstep
    split_ifs at hstep
    cases hstep
    exact h.move fun r hr => (hP _).own r (HandleStage.response_authorized hr)
  | called i time fate =>
    simp only [next, Option.bind_eq_some_iff, Option.map_eq_some_iff] at hstep
    obtain ⟨call, hcall, stage, hresume, rfl⟩ := hstep
    have hstage := HandleStage.response_resume (hP _) hresume
      (fun _ hlooking hfound => h.found hcall hlooking hfound) (h.stages i)
    have hmoved := (h.callStore fate time (h.called hcall)).move hstage
    exact ⟨hmoved.stages, hmoved.left, hmoved.stored⟩
  | dispatched i outcome =>
    simp only [next] at hstep
    split_ifs at hstep
    cases hstep
    refine h.move fun r hr => ?_
    rcases HandleStage.response_dispatched hr with rfl | hown
    · exact hdispatched i r rfl
    · exact (hP _).own r hown
  | interrupted i =>
    simp only [next, Option.map_eq_some_iff] at hstep
    obtain ⟨stage, hinterrupt, rfl⟩ := hstep
    have hmoved : G.Carries P (s.move i stage) := h.move fun r hr => by
      rw [HandleStage.response_interrupt hinterrupt] at hr
      cases hr
    refine ⟨hmoved.stages, fun j key r hleft => ?_, hmoved.stored⟩
    by_cases hji : j = i
    · subst hji
      exact h.called (by simpa using hleft) key r rfl
    · exact h.left j key r (by simpa [hji] using hleft)
  | ranLeft i time fate =>
    simp only [next, Option.map_eq_some_iff] at hstep
    obtain ⟨call, hcall, rfl⟩ := hstep
    have hstored := h.callStore fate time fun key r hremember =>
      h.left i key r (hremember ▸ hcall)
    refine ⟨hstored.stages, fun j key r hleft => ?_, hstored.stored⟩
    by_cases hji : j = i
    · simp [hji] at hleft
    · exact h.left j key r (by simpa [hji] using hleft)
  | wrote op => exact absurd rfl (hwrote op)

end DurableGateway

end AIHub
