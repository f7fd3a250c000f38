import AIHub.Application.Admission
import AIHub.Gateway.Provenance

/-!
# What the hub answers

The responses of the hub, over all that can happen to their requests: handlers of many requests, of
the same one delivered again among them, that are interleaved, interrupted and lost in crashes.

A response comes from a dispatch of a request with its key (`DurableGateway.Carries`), and a
dispatch says what it has found in the store. So what was true of the store then is true of the
response, and if it stays true of the store, it is true of each response at all times.

* `Answers.moves`: this, for any property of responses that stays true.
* `accepted_made`: for each response that is ACCEPTED there is one task, made once and queued once,
  with what an admitted request with the same task id asks for.
* `shown_asked`: a response shows tasks only to an actor on the allowlist, and only such tasks as
  admitted requests ask for.
-/

namespace AIHub

open Transition DevRequest

variable {s s' : Store}

/-! ## Tasks that are found -/

section

variable {P : Task → Prop}

/-- The tasks that a call of `cancel_task` holds. -/
def CancelPc.tasks : CancelPc → List Task
  | gettingTask | done none => []
  | cancellingRuntime task | gotTask task | cancelling task _ | notifying task
  | done (some task) => [task]

/-- A call holds tasks that it has held, or that the store has. -/
theorem cancelNext_tasks {o : Orchestrator} {taskId : TaskId} {c : Choice} {pc pc' : CancelPc}
    (hc : s.Coherent) (h : cancelNext o taskId c pc s = some (pc', s'))
    (hpc : ∀ t ∈ pc.tasks, P t) (hs : s.AllTasks P) (hs' : s'.AllTasks P) :
    ∀ t ∈ pc'.tasks, P t := by
  cases pc with
  | gettingTask =>
    simp only [cancelNext] at h
    split at h
    · cases h
      exact fun _ ht => by cases ht
    · have htask := hs _ _ (readTask_some ‹_›)
      split_ifs at h <;> cases h <;> exact fun t ht => List.mem_singleton.1 ht ▸ htask
  | cancellingRuntime task =>
    simp only [cancelNext] at h
    split_ifs at h <;> cases h
    · exact fun _ ht => by cases ht
    · exact hpc
  | gotTask task =>
    simp only [cancelNext] at h
    split at h <;> cases h
    · exact hpc
    · exact fun _ ht => by cases ht
  | cancelling task event =>
    simp only [cancelNext, Option.map_eq_some_iff] at h
    obtain ⟨_ | ⟨after, s₁⟩, hcommit, h⟩ := h <;> cases h
    · exact fun _ ht => by cases ht
    · have hafter := hs' _ _ (commit_transition_tasks hc hcommit _ _ rfl)
      exact fun t ht => List.mem_singleton.1 ht ▸ hafter
  | notifying cancelled =>
    cases h
    exact hpc
  | done result => cases h

end

namespace Hub

variable {ι κ : Type} {H : Hub ι κ} {s t : State ι κ}

/-! ## Responses -/

/-- What a step writes, handlers aside, remembers no response. -/
theorem carries_effect {P : String → GatewayResponse → Prop} {store : Store}
    (h : H.handlers.Carries P s.gateway) (heffect : H.Effect s store) :
    H.handlers.Carries P { s.gateway with store } := by
  cases heffect with
  | same => exact h
  | quiet op hquiet hfresh =>
    refine h.after ?_
    rintro key document time rfl
    cases hquiet
  | requested i call time hcall =>
    refine h.run time ?_
    rcases hcall with hcall | hleft
    · exact h.called hcall
    · exact fun key r hremember => h.left i key r (hremember ▸ hleft)
  | created i R hR c pc pc' store hpc hnext =>
    have hafter : ∀ {op : WriteOp}, op.exec s.store = .ok store →
        (∀ key document time, op ≠ .rememberGatewayResponse key document time) →
        H.handlers.Carries P { s.gateway with store } := by
      intro op hexec hop
      have hstore : op.after s.store = store := by rw [WriteOp.after, hexec]
      exact hstore ▸ h.after hop
    rcases createNext_written hnext with rfl | ⟨_, _, _, _, hexec⟩ | ⟨_, _, _, _, hexec⟩
    · exact h
    · exact hafter hexec fun _ _ _ hop => by cases hop
    · exact hafter hexec fun _ _ _ hop => by cases hop
  | dropped => exact h.after fun _ _ _ hop => by cases hop

/-- The responses for the keys have the property, also those that dispatches have just given. -/
structure Answers (H : Hub ι κ) (P : String → GatewayResponse → Prop) (s : State ι κ) : Prop where
  carries : H.handlers.Carries P s.gateway
  outcomes : ∀ i r, (s.dispatches i).outcome = some (.response r) → P (H.handlers.key i) r

variable {P Q : String → GatewayResponse → Prop}

theorem Answers.mono (h : H.Answers P s) (hPQ : ∀ key r, P key r → Q key r) : H.Answers Q s where
  carries := h.carries.mono hPQ
  outcomes i r hr := hPQ _ r (h.outcomes i r hr)

/-- At first there is no response. -/
theorem answers_init [DecidableEq ι] [DecidableEq κ] (h : H.system.init s) : H.Answers P s := by
  obtain ⟨hstore, hstages, hleft, hdispatches, _, _⟩ := h
  refine ⟨⟨fun i r hr => ?_, fun i key r hcall => ?_, fun key document r hdocument => ?_⟩,
    fun i r hr => ?_⟩
  · rw [hstages i] at hr
    cases hr
  · rw [hleft i] at hcall
    cases hcall
  · rw [show s.gateway.store = .empty from hstore] at hdocument
    cases hdocument
  · rw [hdispatches i] at hr
    cases hr

/-- No step breaks it, if dispatches end with responses that have the property. -/
theorem Answers.moves [DecidableEq ι] [DecidableEq κ]
    (hP : ∀ key, GatewayResponse.Passes (P key)) (h : H.Answers P s)
    (hends : ∀ i c pc r, H.dispatchNext i c (s.dispatches i) s.store = some (pc, t.store) →
      pc.outcome = some (.response r) → P (H.handlers.key i) r)
    (hmoves : H.Moves s t) : H.Answers P t := by
  have hcarries := carries_effect h.carries hmoves.effect
  cases hmoves with
  | handled a gateway hhandles hnext =>
    refine ⟨DurableGateway.carries_step hP h.carries (fun i r heq => ?_) (fun op heq => ?_) hnext,
      h.outcomes⟩
    · cases hhandles <;> cases heq
      exact h.outcomes i r ‹_›
    · cases hhandles <;> cases heq
  | dispatching i c pc store _ hnext =>
    refine ⟨hcarries, fun j r hr => ?_⟩
    by_cases hji : j = i
    · subst hji
      exact hends j c pc r hnext (by simpa using hr)
    · exact h.outcomes j r (by simpa [hji] using hr)
  | called | processed | wrote => exact ⟨hcarries, h.outcomes⟩
  | crashed =>
    refine ⟨⟨fun i r hr => ?_, (fun i key r hleft => by cases hleft), h.carries.stored⟩,
      fun i r hr => by cases hr⟩
    refine h.carries.stages i r ?_
    cases hstage : s.gateway.stages i <;> simp only [hstage] at hr <;> cases hr
    rfl

end Hub

/-! ## Tasks that are shown -/

/-- The tasks that a dispatch has, or that its response shows. -/
def CreatePc.views : CreatePc → List TaskView
  | starting | comparing _ => []
  | comparingRoute _ existing => [.ofTask existing]
  | enqueuing task => [task]
  | queueing task current _ | waking task current => [task, .ofTask current]
  | ended (.response r) => r.views
  | ended (.error _) | ended .interrupted => []

namespace Hub

variable {ι κ : Type} {H : Hub ι κ} {s t : State ι κ}

/-- The task is one that an admitted dev request asks for. -/
def AskedView (H : Hub ι κ) (view : TaskView) : Prop :=
  ∃ task, H.Asked (contentOf task) ∧ view = .ofTask task

theorem Kept.found {store : Store} (h : H.Kept store) {taskId : TaskId} {task : Task}
    (hget : store.getTask taskId.val = .ok task) : H.AskedView (.ofTask task) :=
  ⟨task, h.allTasks taskId task (by rw [Store.task?, hget]; rfl), rfl⟩

theorem Kept.listed {store : Store} (h : H.Kept store) {limit : Int} {tasks : List Task}
    (hlist : store.listTasks limit = .ok tasks) : ∀ task ∈ tasks, H.AskedView (.ofTask task) := by
  simp only [Store.listTasks, bind_eq_ok, pure_eq_ok] at hlist
  obtain ⟨_, _, rfl⟩ := hlist
  intro task htask
  obtain ⟨row, hrow, rfl⟩ := List.mem_map.1 htask
  exact ⟨_, h.tasks row ((List.mem_insertionSort _).1 (List.mem_of_mem_take hrow)), rfl⟩

/-- A task that has been moved is in the store. -/
theorem Kept.moved {store store' : Store} (h : H.Kept store) (h' : H.Kept store')
    {id : String} {target : TaskStatus} {event : EventEnvelope} {task : Task}
    (hmove : store.transitionTask id target event = .ok (task, store')) :
    H.AskedView (.ofTask task) := by
  obtain ⟨row, hrow, _, ⟨_, rfl, _⟩ | ⟨_, _, hputs, _⟩⟩ := Store.transitionTask_ok hmove
  · exact ⟨_, h.tasks row (Table.get?_eq_some.1 hrow).1, rfl⟩
  · exact ⟨task, h'.tasks _ (Table.get?_eq_some.1 hputs.get?_self).1, rfl⟩

/-- The end of `_create_task` shows the tasks that the ports have returned. -/
theorem outcome_shown {i : ι} {R : DevRequest} (hR : H.devRequest? i = some R)
    {created enqueued : Except PortError TaskView}
    (hcreated : ∀ view, created = .ok view → H.AskedView view)
    (henqueued : ∀ view, enqueued = .ok view → H.AskedView view) :
    ∀ view ∈ (CreatePc.ended (R.outcome created enqueued)).views, H.AskedView view := by
  intro view hview
  cases houtcome : R.outcome created enqueued with
  | error | interrupted =>
    rw [houtcome] at hview
    cases hview
  | response r =>
    rw [houtcome] at hview
    unfold devRequest? at hR
    split_ifs at hR
    cases hR
    cases AgentGateway.outcome_views houtcome view hview with
    | created _ h => exact hcreated view h
    | enqueued _ h => exact henqueued view h
    | cancelled _ h | found _ h | listed _ _ h => cases h

/-- A dispatch has tasks that it has had, or that the store has. -/
theorem createNext_views {i : ι} {R : DevRequest} {c : CreateChoice} {pc pc' : CreatePc}
    {store store' : Store} (hR : H.devRequest? i = some R) (hc : store.Coherent)
    (h : H.Kept store) (h' : H.Kept store')
    (hnext : R.createNext c pc store = some (pc', store'))
    (hpc : ∀ view ∈ pc.views, H.AskedView view) : ∀ view ∈ pc'.views, H.AskedView view := by
  have hone : ∀ {view : TaskView}, H.AskedView view → ∀ v ∈ [view], H.AskedView v :=
    fun hview v hv => List.mem_singleton.1 hv ▸ hview
  have htwo : ∀ {v₁ v₂ : TaskView}, H.AskedView v₁ → H.AskedView v₂ →
      ∀ v ∈ [v₁, v₂], H.AskedView v := by
    intro v₁ v₂ h₁ h₂ v hv
    rcases List.mem_pair.1 hv with rfl | rfl
    · exact h₁
    · exact h₂
  have hfails : ∀ {e e' : PortError},
      ∀ view ∈ (CreatePc.ended (R.outcome (.error e) (.error e'))).views, H.AskedView view :=
    outcome_shown hR (fun _ hok => by cases hok) fun _ hok => by cases hok
  have hends : ∀ {task : TaskView} {enqueued : Except PortError TaskView}, H.AskedView task →
      (∀ view, enqueued = .ok view → H.AskedView view) →
      ∀ view ∈ (CreatePc.ended (R.outcome (.ok task) enqueued)).views, H.AskedView view :=
    fun htask henqueued => outcome_shown hR (fun _ hok => Except.ok.inj hok ▸ htask) henqueued
  have herror : ∀ {e : PortError} (view : TaskView), .error e = Except.ok view →
      H.AskedView view := fun _ hok => by cases hok
  cases pc with
  | starting =>
    simp only [createNext] at hnext
    split at hnext
    · cases hnext
      exact hfails
    · split at hnext
      · cases hnext
        exact hfails
      · split at hnext
        · rename_i task s₁ hcreate
          cases hnext
          have hcreation := Store.createQueuedTask_ok hc hcreate
          exact hone ⟨task, h'.tasks _ (Table.get?_eq_some.1 hcreation.puts.get?_self).1, rfl⟩
        · cases hnext
          exact fun _ hview => by cases hview
        · split_ifs at hnext <;> cases hnext <;> exact hfails
  | comparing records =>
    simp only [createNext] at hnext
    split at hnext
    · cases hnext
      exact hone (h.found ‹_›)
    · cases hnext
      exact hfails
  | comparingRoute records existing =>
    simp only [createNext] at hnext
    split_ifs at hnext <;> cases hnext
    · exact hfails
    · exact hpc
  | enqueuing task =>
    have htask := hpc task (List.mem_singleton_self task)
    simp only [createNext] at hnext
    split at hnext
    · cases hnext
      exact hends htask herror
    · have hcurrent := h.found ‹_›
      split_ifs at hnext
      · split at hnext <;> cases hnext
        · exact htwo htask hcurrent
        · exact hends htask herror
      · cases hnext
        exact htwo htask hcurrent
      · cases hnext
        exact hends htask fun _ hok => Except.ok.inj hok ▸ hcurrent
  | queueing task current event =>
    have htask := hpc task List.mem_cons_self
    simp only [createNext] at hnext
    split at hnext
    · cases hnext
      exact hends htask herror
    · rename_i moved s₁ hmove
      split_ifs at hnext <;> cases hnext
      · exact htwo htask (h.moved h' hmove)
      · exact hends htask fun _ hok => Except.ok.inj hok ▸ h.moved h' hmove
  | waking task current =>
    cases hnext
    refine hends (hpc task List.mem_cons_self) fun _ hok => Except.ok.inj hok ▸ ?_
    exact hpc _ (by simp [CreatePc.views])
  | ended outcome => cases hnext

theorem createFails_views {i : ι} {R : DevRequest} {pc pc' : CreatePc}
    (hR : H.devRequest? i = some R) (hfails : createFails R pc = some pc')
    (hpc : ∀ view ∈ pc.views, H.AskedView view) : ∀ view ∈ pc'.views, H.AskedView view := by
  cases pc with
  | starting | comparing _ | comparingRoute _ _ =>
    cases hfails
    exact outcome_shown hR (fun _ hok => by cases hok) fun _ hok => by cases hok
  | enqueuing task | queueing task _ _ =>
    cases hfails
    exact outcome_shown hR (fun _ hok => Except.ok.inj hok ▸ hpc task List.mem_cons_self)
      fun _ hok => by cases hok
  | waking | ended => cases hfails

/-- What the dispatch has, or shows, is asked for. -/
def DispatchShown (H : Hub ι κ) : DispatchPc → Prop
  | .waiting | .querying => True
  | .creating pc => ∀ view ∈ pc.views, H.AskedView view
  | .cancelling pc => ∀ task ∈ pc.tasks, H.Asked (contentOf task)
  | .ended (.response r) => ∀ view ∈ r.views, H.AskedView view
  | .ended (.error _) | .ended .interrupted => True

theorem DispatchShown.outcome {pc : DispatchPc} {r : GatewayResponse} (h : H.DispatchShown pc)
    (hr : pc.outcome = some (.response r)) : ∀ view ∈ r.views, H.AskedView view := by
  cases pc with
  | waiting | cancelling | querying => cases hr
  | ended outcome =>
    cases hr
    exact h
  | creating pc =>
    cases pc with
    | ended outcome =>
      cases hr
      exact h
    | starting | comparing | comparingRoute | enqueuing | queueing | waking => cases hr

/-- The ports of a query or of a cancellation return tasks that are asked for. -/
theorem ports_shown {i : ι} {c : DispatchChoice} {store : Store}
    {cancelled : Except PortError TaskView} (h : H.Kept store)
    (hcancelled : ∀ view, cancelled = .ok view → H.AskedView view) :
    H.DispatchShown (.ended ((H.ports c store cancelled).outcome (H.requests i))) := by
  cases houtcome : (H.ports c store cancelled).outcome (H.requests i) with
  | error | interrupted => trivial
  | response r =>
    intro view hview
    cases AgentGateway.outcome_views houtcome view hview with
    | created _ h | enqueued _ h => cases h
    | cancelled _ h => exact hcancelled view h
    | found taskId hfound =>
      simp only [ports, GatewayTaskAdapter.getTask] at hfound
      split_ifs at hfound
      split at hfound
      · rename_i task hget
        cases hfound
        exact h.found hget
      · cases hfound
      · split_ifs at hfound
    | listed limit tasks hlisted hmem =>
      simp only [ports, GatewayTaskAdapter.listTasks] at hlisted
      split_ifs at hlisted
      split at hlisted
      · rename_i listed hlist
        cases hlisted
        obtain ⟨task, htask, rfl⟩ := List.mem_map.1 hmem
        exact h.listed hlist task htask
      · split_ifs at hlisted

theorem dispatchNext_shown {i : ι} {c : DispatchChoice} {pc pc' : DispatchPc}
    {store store' : Store} (hc : store.Coherent) (h : H.Kept store) (h' : H.Kept store')
    (hnext : H.dispatchNext i c pc store = some (pc', store')) (hpc : H.DispatchShown pc) :
    H.DispatchShown pc' := by
  cases pc with
  | waiting =>
    cases hnext
    unfold begin
    split
    · split_ifs
      · exact fun _ hview => by cases hview
      · exact ports_shown h fun _ hok => by cases hok
    · exact fun _ htask => by cases htask
    all_goals trivial
  | querying =>
    cases hnext
    exact ports_shown h fun _ hok => by cases hok
  | ended outcome => cases hnext
  | creating create =>
    simp only [dispatchNext, Option.bind_eq_bind, Option.bind_eq_some_iff] at hnext
    obtain ⟨R, hR, hnext⟩ := hnext
    split_ifs at hnext
    · simp only [Option.bind_eq_some_iff, Option.pure_def, Option.some.injEq,
        Prod.mk.injEq] at hnext
      obtain ⟨_, hfails, rfl, _⟩ := hnext
      exact createFails_views hR hfails hpc
    · simp only [Option.bind_eq_some_iff, Option.pure_def, Option.some.injEq,
        Prod.mk.injEq] at hnext
      obtain ⟨⟨_, _⟩, hnext, rfl, rfl⟩ := hnext
      exact createNext_views hR hc h h' hnext hpc
  | cancelling cancel =>
    cases cancel with
    | done result =>
      cases hnext
      refine ports_shown h fun view hok => ?_
      cases result with
      | none => cases hok
      | some task =>
        cases hok
        exact ⟨task, hpc task (List.mem_singleton_self task), rfl⟩
    | gettingTask | cancellingRuntime | gotTask | cancelling | notifying =>
      simp only [dispatchNext, Option.bind_eq_bind, Option.bind_eq_some_iff, Option.pure_def,
        Option.some.injEq, Prod.mk.injEq] at hnext
      obtain ⟨taskId, _, ⟨_, _⟩, hnext, rfl, rfl⟩ := hnext
      exact cancelNext_tasks hc hnext hpc h.allTasks h'.allTasks

/-- The responses show, and the dispatches have, only tasks that are asked for, and who is not
admitted gets a response that the handler has made up itself. -/
structure Shown (H : Hub ι κ) (s : State ι κ) : Prop where
  admitted : H.Admitted s
  answers : H.Answers (fun _ r => ∀ view ∈ r.views, H.AskedView view) s
  dispatches : ∀ i, H.DispatchShown (s.dispatches i)
  refused : ∀ i r, (s.gateway.stages i).response = some r →
    H.Admits i ∨ r ∈ GatewayResponse.own

/-- A handler that is not beyond the authorization makes up its response itself. -/
theorem refused_next [DecidableEq ι] {g g' : DurableGateway.State ι} {a : DurableGateway.Event ι}
    (hg : H.HandlersAdmitted g)
    (h : ∀ i r, (g.stages i).response = some r → H.Admits i ∨ r ∈ GatewayResponse.own)
    (hstep : H.handlers.next g a = some g') :
    ∀ i r, (g'.stages i).response = some r → H.Admits i ∨ r ∈ GatewayResponse.own := by
  have hmove : ∀ (i : ι) (stage : HandleStage),
      (∀ r, stage.response = some r → H.Admits i ∨ r ∈ GatewayResponse.own) → ∀ j r,
        ((g.move i stage).stages j).response = some r → H.Admits j ∨ r ∈ GatewayResponse.own := by
    intro i stage hstage j r hr
    by_cases hji : j = i
    · subst hji
      exact hstage r (by simpa [DurableGateway.State.move] using hr)
    · exact h j r (by simpa [DurableGateway.State.move, hji] using hr)
  cases a with
  | authorized i answer =>
    simp only [DurableGateway.next] at hstep
    split_ifs at hstep
    cases hstep
    exact hmove i _ fun r hr => .inr (HandleStage.response_authorized hr)
  | called i time fate =>
    simp only [DurableGateway.next, Option.bind_eq_some_iff, Option.map_eq_some_iff] at hstep
    obtain ⟨call, hcall, stage, _, rfl⟩ := hstep
    exact hmove i stage fun _ _ => .inl (hg.call hcall).1
  | dispatched i outcome =>
    simp only [DurableGateway.next] at hstep
    split_ifs at hstep with hstage
    cases hstep
    exact hmove i _ fun _ _ => .inl (hg.stages i (by rw [hstage]; rfl))
  | interrupted i =>
    simp only [DurableGateway.next, Option.map_eq_some_iff] at hstep
    obtain ⟨stage, hinterrupt, rfl⟩ := hstep
    refine hmove i stage fun r hr => ?_
    rw [HandleStage.response_interrupt hinterrupt] at hr
    cases hr
  | ranLeft i time fate =>
    simp only [DurableGateway.next, Option.map_eq_some_iff] at hstep
    obtain ⟨_, _, rfl⟩ := hstep
    exact h
  | wrote op =>
    simp only [DurableGateway.next] at hstep
    split_ifs at hstep
    cases hstep
    exact h

theorem passes_views (key : String) : GatewayResponse.Passes
    ((fun _ r => ∀ view ∈ r.views, H.AskedView view : String → GatewayResponse → Prop) key) where
  own := by
    intro r hr view hview
    rw [GatewayResponse.views_of_own hr] at hview
    cases hview
  replay _ h := h
  receiptLost _ h := h

section

variable [DecidableEq ι] [DecidableEq κ]

theorem Shown.moves (hs : H.Shown s) (h : H.Moves s t) : H.Shown t := by
  have hadmitted := hs.admitted.moves h
  have hdispatched : ∀ i c pc, H.dispatchNext i c (s.dispatches i) s.store = some (pc, t.store) →
      H.DispatchShown pc := fun i c pc hnext =>
    dispatchNext_shown hs.admitted.coherent hs.admitted.kept hadmitted.kept hnext (hs.dispatches i)
  refine ⟨hadmitted, hs.answers.moves passes_views
    (fun i c pc r hnext hr => (hdispatched i c pc hnext).outcome hr) h, ?_, ?_⟩
  · cases h with
    | dispatching i c pc store _ hnext =>
      intro j
      by_cases hji : j = i
      · subst hji
        simpa using hdispatched j c pc hnext
      · simpa [hji] using hs.dispatches j
    | handled | called | processed | wrote => exact hs.dispatches
    | crashed => exact fun _ => trivial
  · cases h with
    | handled a gateway _ hnext => exact refused_next hs.admitted.handlers hs.refused hnext
    | dispatching | called | processed | wrote => exact hs.refused
    | crashed =>
      intro i r hr
      refine hs.refused i r ?_
      cases hstage : s.gateway.stages i <;> simp only [hstage] at hr <;> cases hr
      rfl

theorem shown_reachable (h : H.system.Reachable s) : H.Shown s := by
  have hI : H.system.Invariant H.Shown := {
    init := by
      intro s hinit
      refine ⟨admitted_reachable ⟨s, [], hinit, .nil s⟩, answers_init hinit, fun i => ?_,
        fun i r hr => ?_⟩
      · rw [hinit.2.2.2.1 i]
        trivial
      · rw [hinit.2.1 i] at hr
        cases hr
    step := fun s a t hs hst => hs.moves (next_moves hst) }
  exact hI.reachable h

omit [DecidableEq ι] [DecidableEq κ] in
theorem Shown.returned (hs : H.Shown s) {i : ι} {r : GatewayResponse}
    (hreturned : s.gateway.stages i = .returned r) :
    ∀ view ∈ r.views, H.Admits i ∧ H.AskedView view := by
  have hresponse : (s.gateway.stages i).response = some r := by rw [hreturned]; rfl
  intro view hview
  refine ⟨(hs.refused i r hresponse).resolve_right fun hown => ?_,
    hs.answers.carries.stages i r hresponse view hview⟩
  rw [GatewayResponse.views_of_own hown] at hview
  cases hview

/-- Whatever the hub does, a response that it has returned shows tasks only if the actor of its
request is on the allowlist, and then only tasks that requests of such actors ask for. -/
theorem shown_asked (h : H.system.Reachable s) {i : ι} {r : GatewayResponse}
    (hreturned : s.gateway.stages i = .returned r) :
    ∀ view ∈ r.views, H.Admits i ∧ H.AskedView view :=
  (shown_reachable h).returned hreturned

end

/-! ## Accepted requests -/

/-- The task of an admitted dev request with the task id has been made. -/
def MadeFor (H : Hub ι κ) (store : Store) (taskId : String) : Prop :=
  ∃ i R, H.devRequest? i = some R ∧ H.Admits i ∧ R.taskId = taskId ∧ R.Made store

theorem taskId_eq {i : ι} {R : DevRequest} (hR : H.devRequest? i = some R) :
    R.taskId = taskIdText H.uuid5 (H.requests i).idempotencyKey :=
  congrArg TaskContent.taskId (content_eq hR)

theorem MadeFor.row {store : Store} {R : DevRequest} (h : H.MadeFor store R.taskId) :
    ∃ row, store.tasks.get? R.taskId = some row ∧ row.taskJson.taskId = R.id ∧
      row.taskJson.status ≠ .pending := by
  obtain ⟨_, R', _, _, hid, hmade⟩ := h
  obtain ⟨row, hrow, hcontent, hstatus⟩ := hmade.history.row
  have hrow : store.tasks.get? R'.taskId = some row := hrow
  refine ⟨row, hid ▸ hrow, Constrained.ext ?_, hstatus⟩
  exact (congrArg TaskContent.taskId hcontent).trans hid

theorem MadeFor.not_unmade {store : Store} {R : DevRequest} (h : H.MadeFor store R.taskId) :
    ¬ R.Unmade store := by
  intro hunmade
  obtain ⟨row, hrow, _⟩ := h.row
  cases hunmade.task.symm.trans hrow

/-- Where the task is there, `_create_task` makes none, and finds it. -/
theorem createNext_found {R : DevRequest} {c : CreateChoice} {pc pc' : CreatePc}
    {store store' : Store} {made : Prop} (hc : store.Coherent)
    (hrow : ∃ row, store.tasks.get? R.taskId = some row ∧ row.taskJson.taskId = R.id ∧
      row.taskJson.status ≠ .pending) (hmade : made)
    (hpc : R.Reached made pc) (hnext : R.createNext c pc store = some (pc', store')) :
    store' = store ∧ R.Reached made pc' := by
  obtain ⟨row, hrow, hid, hstatus⟩ := hrow
  have hfound : ∀ {taskId : TaskId} {task : Task}, taskId = R.id →
      store.getTask taskId.val = .ok task → task.taskId = R.id ∧ task.status ≠ .pending := by
    rintro taskId task rfl hget
    simp only [Store.getTask, map_eq_ok, Store.taskRow_ok] at hget
    obtain ⟨row', hrow', rfl⟩ := hget
    cases (show store.tasks.get? R.taskId = some row' from hrow').symm.trans hrow
    exact ⟨hid, hstatus⟩
  cases pc with
  | starting =>
    simp only [createNext] at hnext
    split at hnext
    · cases hnext
      exact ⟨rfl, reached_error⟩
    · rename_i command hcommand
      split at hnext
      · cases hnext
        exact ⟨rfl, reached_error⟩
      · rename_i records hrecords
        obtain ⟨htask, _⟩ := records_content hcommand hrecords
        split at hnext
        · -- no task with the id is made a second time
          rename_i task s₁ hcreate
          have hnew := (Store.createQueuedTask_ok hc hcreate).new
          rw [htask] at hnew
          cases hnew.symm.trans hrow
        · cases hnext
          exact ⟨rfl, htask⟩
        · split_ifs at hnext <;> cases hnext <;> exact ⟨rfl, reached_error⟩
  | comparing records =>
    simp only [createNext] at hnext
    split at hnext
    · cases hnext
      exact ⟨rfl, hmade, (hfound hpc ‹_›).1⟩
    · cases hnext
      exact ⟨rfl, reached_error⟩
  | comparingRoute records existing =>
    simp only [createNext] at hnext
    split_ifs at hnext <;> cases hnext
    · exact ⟨rfl, reached_error⟩
    · exact ⟨rfl, hpc⟩
  | enqueuing task =>
    simp only [createNext] at hnext
    split at hnext
    · cases hnext
      exact ⟨rfl, reached_error⟩
    · rw [if_neg (hfound hpc.2 ‹_›).2] at hnext
      split_ifs at hnext <;> cases hnext
      · exact ⟨rfl, hmade⟩
      · exact ⟨rfl, fun _ _ _ => hmade⟩
  | queueing => exact hpc.elim
  | waking task current =>
    cases hnext
    exact ⟨rfl, fun _ _ _ => hmade⟩
  | ended => cases hnext

/-- The store has nothing of a dev request, or the task of a request with its task id. -/
structure Whole (H : Hub ι κ) (store : Store) : Prop where
  coherent : store.Coherent
  whole : ∀ i R, H.devRequest? i = some R → R.Unmade store ∨ H.MadeFor store R.taskId

/-- What has been made stays made. -/
structure Grows (H : Hub ι κ) (store store' : Store) : Prop where
  whole : H.Whole store'
  made : ∀ taskId, H.MadeFor store taskId → H.MadeFor store' taskId

theorem Whole.refl {store : Store} (h : H.Whole store) : H.Grows store store := ⟨h, fun _ h => h⟩

/-- An operation that is about the tasks of no request. -/
theorem Whole.after {store : Store} {op : WriteOp} (h : H.Whole store)
    (hfresh : op.FreshUuids store) (hop : ∀ R : DevRequest, R.LeavesTask op) :
    H.Grows store (op.after store) := by
  have hmade : ∀ taskId, H.MadeFor store taskId → H.MadeFor (op.after store) taskId := by
    rintro _ ⟨i, R, hR, hadmits, rfl, hmade⟩
    exact ⟨i, R, hR, hadmits, rfl, ((hop R).keeps h.coherent hfresh).2.2 hmade⟩
  refine ⟨⟨coherent_after h.coherent hfresh, fun i R hR => ?_⟩, hmade⟩
  exact (h.whole i R hR).imp ((hop R).keeps h.coherent hfresh).2.1 (hmade R.taskId)

/-- The creation of a task for an admitted request. -/
theorem Whole.created {store store' : Store} {i : ι} {R : DevRequest} {queued : Task}
    {command : CreateTaskCommand} {draws : TaskDraws} {records : NewTask} (h : H.Whole store)
    (hR : H.devRequest? i = some R) (hadmits : H.Admits i)
    (hcommand : createTaskCommand R.gateway.uuid5 R.request = .ok command)
    (hrecords : newTaskRecords R.bundle R.gateway.uuid5 draws command = .ok records)
    (hcreate : store.createQueuedTask records.task records.created records.queued records.route =
      .ok (queued, store')) : H.Grows store store' := by
  obtain ⟨hid, hcontent, hroute⟩ := records_content hcommand hrecords
  have hcreation := Store.createQueuedTask_ok h.coherent hcreate
  have hunmade : R.Unmade store := by
    refine (h.whole i R hR).resolve_right fun hmade => ?_
    obtain ⟨row, hrow, _⟩ := hmade.row
    have hnew := hcreation.new
    rw [hid] at hnew
    cases hnew.symm.trans hrow
  obtain ⟨hc', hmade⟩ := made_of_created h.coherent hunmade hid hcontent hroute hcreate
  have hnew : H.MadeFor store' R.taskId := ⟨i, R, hR, hadmits, rfl, hmade⟩
  have hafter : (WriteOp.createQueuedTask records.task records.created records.queued
      records.route).after store = store' := by
    rw [WriteOp.after, WriteOp.exec, hcreate]
    rfl
  -- for the requests with another task id, this is an operation like any other
  have hothers : ∀ R' : DevRequest, R'.taskId ≠ R.taskId →
      (R'.Unmade store → R'.Unmade store') ∧ (R'.Made store → R'.Made store') := by
    intro R' hne
    have htask : records.task.taskId.val ≠ R'.taskId := by
      rw [hid]
      exact hne.symm
    have hop : R'.LeavesTask (.createQueuedTask records.task records.created records.queued
        records.route) := htask
    have hkeeps := (hop.keeps h.coherent trivial).2
    rwa [hafter] at hkeeps
  have hgrows : ∀ taskId, H.MadeFor store taskId → H.MadeFor store' taskId := by
    rintro _ ⟨j, R', hR', hadmits', rfl, hmade'⟩
    by_cases hsame : R'.taskId = R.taskId
    · rw [hsame]
      exact hnew
    · exact ⟨j, R', hR', hadmits', rfl, (hothers R' hsame).2 hmade'⟩
  refine ⟨⟨hc', fun j R' hR' => ?_⟩, hgrows⟩
  by_cases hsame : R'.taskId = R.taskId
  · rw [hsame]
    exact .inr hnew
  · exact (h.whole j R' hR').imp (hothers R' hsame).1 (hgrows R'.taskId)

/-- A dispatch that ends with a response that is ACCEPTED has made the task, or found it. -/
def DispatchMade (H : Hub ι κ) (store : Store) (i : ι) : DispatchPc → Prop
  | .creating pc =>
    ∃ R, H.devRequest? i = some R ∧ R.Reached (H.MadeFor store R.taskId) pc
  | .ended (.response r) => r.code ≠ .accepted
  | .waiting | .cancelling _ | .querying | .ended (.error _) | .ended .interrupted => True

/-- The tasks of accepted requests have been made. -/
structure Accounted (H : Hub ι κ) (s : State ι κ) : Prop where
  admitted : H.Admitted s
  whole : H.Whole s.store
  dispatches : ∀ i, H.DispatchMade s.store i (s.dispatches i)
  answers : H.Answers (fun key r => r.code = .accepted →
    H.MadeFor s.store (taskIdText H.uuid5 key)) s

theorem leaves_of_quiet {op : WriteOp} (hquiet : op.isQuiet = true) (R : DevRequest) :
    R.LeavesTask op := by
  cases op with
  | createTask | createQueuedTask | saveTaskRoute | reserveGatewayRequest | rememberGatewayResponse
  | releaseGatewayRequest | reconcileIncompleteGatewayRequests => cases hquiet
  | transitionTask taskId target event =>
    have htarget : target ≠ .queued := of_decide_eq_true hquiet
    exact fun _ => htarget
  | assignTask | cancelTask | appendEvent | createRun | startRun | finishRun | createArtifact
  | reserveDelivery | markDeliveryDelivered | releaseDelivery | reconcileReservedDeliveries
  | reconcileInterruptedRunning => trivial

/-- A step makes tasks for admitted requests, and leaves those that have been made. -/
theorem Accounted.grows (hs : H.Accounted s) {store : Store} (h : H.Effect s store) :
    H.Grows s.store store := by
  cases h with
  | same => exact hs.whole.refl
  | quiet op hquiet hfresh => exact hs.whole.after hfresh (leaves_of_quiet hquiet)
  | requested i call time hcall =>
    rw [DurableRequestDeduplicator.run_snd]
    cases call with
    | get key => exact hs.whole.refl
    | reserve key | remember key response | release key =>
      rw [DedupCall.write, Option.elim_some]
      exact hs.whole.after trivial fun _ => trivial
  | created i R hR c pc pc' store hpc hnext =>
    rcases createNext_written hnext with rfl | ⟨command, records, hcommand, hrecords, hexec⟩ |
      ⟨_, _, _, rfl, _⟩
    · exact hs.whole.refl
    · rw [WriteOp.exec, map_eq_ok] at hexec
      obtain ⟨⟨queued, _⟩, hcreate, rfl⟩ := hexec
      have hadmits : H.Admits i := hs.admitted.dispatches i (by simp [hpc])
      exact hs.whole.created hR hadmits hcommand hrecords hcreate
    · -- the task is never found pending
      obtain ⟨_, _, hreached⟩ := hpc ▸ hs.dispatches i
      exact hreached.elim
  | dropped => exact hs.whole.after trivial fun _ => trivial

theorem createFails_reached {R : DevRequest} {made : Prop} {pc pc' : CreatePc}
    (h : createFails R pc = some pc') : R.Reached made pc' := by
  cases pc <;> cases h <;> exact reached_error

theorem DispatchMade.mono {store store' : Store} {i : ι} {pc : DispatchPc}
    (h : H.DispatchMade store i pc)
    (hgrows : ∀ taskId, H.MadeFor store taskId → H.MadeFor store' taskId) :
    H.DispatchMade store' i pc := by
  cases pc with
  | creating pc =>
    obtain ⟨R, hR, hreached⟩ := h
    exact ⟨R, hR, hreached.mono (hgrows R.taskId)⟩
  | waiting | cancelling | querying => trivial
  | ended outcome => cases outcome <;> exact h

theorem DispatchMade.outcome {store : Store} {i : ι} {pc : DispatchPc} {r : GatewayResponse}
    (h : H.DispatchMade store i pc) (hr : pc.outcome = some (.response r))
    (hcode : r.code = .accepted) :
    H.MadeFor store (taskIdText H.uuid5 (H.requests i).idempotencyKey) := by
  cases pc with
  | waiting | cancelling | querying => cases hr
  | ended outcome =>
    cases hr
    exact absurd hcode h
  | creating pc =>
    obtain ⟨R, hR, hreached⟩ := h
    rw [← taskId_eq hR]
    cases pc with
    | ended outcome =>
      cases hr
      exact hreached r rfl hcode
    | starting | comparing | comparingRoute | enqueuing | queueing | waking => cases hr

/-- Queries and cancellations do not end with a response that is ACCEPTED. -/
theorem ports_made {i : ι} {c : DispatchChoice} {store store' : Store}
    {cancelled : Except PortError TaskView} :
    H.DispatchMade store' i (.ended ((H.ports c store cancelled).outcome (H.requests i))) := by
  cases houtcome : (H.ports c store cancelled).outcome (H.requests i) with
  | error | interrupted => trivial
  | response r =>
    intro hcode
    obtain ⟨_, _, henqueued⟩ := AgentGateway.enqueued_of_accepted houtcome hcode
    cases henqueued

/-- A dispatch that goes on has made the task, or finds it. -/
theorem Accounted.dispatched (hs : H.Accounted s) {i : ι} {c : DispatchChoice} {pc : DispatchPc}
    {store : Store} (hnext : H.dispatchNext i c (s.dispatches i) s.store = some (pc, store)) :
    H.DispatchMade store i pc := by
  have hi := hs.dispatches i
  cases hpc : s.dispatches i with
  | waiting =>
    rw [hpc] at hnext
    cases hnext
    unfold begin
    split
    · rename_i hdev
      split_ifs with hregistered
      · exact ⟨_, dif_pos ⟨hdev, hregistered⟩, trivial⟩
      · exact ports_made
    all_goals trivial
  | querying =>
    rw [hpc] at hnext
    cases hnext
    exact ports_made
  | ended outcome =>
    rw [hpc] at hnext
    cases hnext
  | cancelling cancel =>
    rw [hpc] at hnext
    cases cancel with
    | done result =>
      cases hnext
      exact ports_made
    | gettingTask | cancellingRuntime | gotTask | cancelling | notifying =>
      simp only [dispatchNext, Option.bind_eq_bind, Option.bind_eq_some_iff, Option.pure_def,
        Option.some.injEq, Prod.mk.injEq] at hnext
      obtain ⟨_, _, _, _, rfl, _⟩ := hnext
      trivial
  | creating create =>
    rw [hpc] at hnext hi
    obtain ⟨R, hR, hreached⟩ := hi
    simp only [dispatchNext, Option.bind_eq_bind, Option.bind_eq_some_iff] at hnext
    obtain ⟨R', hR', hnext⟩ := hnext
    cases hR'.symm.trans hR
    refine (?_ : ∃ create', pc = .creating create' ∧
      R.Reached (H.MadeFor store R.taskId) create').elim fun create' h => h.1 ▸ ⟨R, hR, h.2⟩
    split_ifs at hnext
    · simp only [Option.bind_eq_some_iff, Option.pure_def, Option.some.injEq,
        Prod.mk.injEq] at hnext
      obtain ⟨create', hfails, rfl, _⟩ := hnext
      exact ⟨create', rfl, createFails_reached hfails⟩
    · simp only [Option.bind_eq_some_iff, Option.pure_def, Option.some.injEq,
        Prod.mk.injEq] at hnext
      obtain ⟨⟨create', _⟩, hnext, rfl, rfl⟩ := hnext
      refine ⟨create', rfl, ?_⟩
      rcases hs.whole.whole i R hR with hunmade | hmade
      · have hadmits : H.Admits i := hs.admitted.dispatches i (by simp [hpc])
        have hnone : R.Reached (R.Made s.store) create :=
          hreached.mono fun hmade => absurd hunmade hmade.not_unmade
        have hcreated := createNext_reached ⟨hs.whole.coherent, .inl hunmade⟩ hnone hnext
        exact hcreated.2.2.1.mono fun hmade => ⟨i, R, hR, hadmits, rfl, hmade⟩
      · obtain ⟨rfl, hreached'⟩ :=
          createNext_found hs.whole.coherent hmade.row hmade hreached hnext
        exact hreached'

theorem passes_accepted {made : String → Prop} (key : String) : GatewayResponse.Passes
    ((fun key r => r.code = .accepted → made key : String → GatewayResponse → Prop) key) where
  own _ hr hcode := absurd hcode (GatewayResponse.code_of_own hr)
  replay _ h := h
  receiptLost _ _ hcode := by cases hcode

section

variable [DecidableEq ι] [DecidableEq κ]

theorem Accounted.moves (hs : H.Accounted s) (h : H.Moves s t) : H.Accounted t := by
  have hgrows := hs.grows h.effect
  have hanswers := hs.answers.mono
    (Q := fun key r => r.code = .accepted → H.MadeFor t.store (taskIdText H.uuid5 key))
    fun key r hmade hcode => hgrows.made _ (hmade hcode)
  refine ⟨hs.admitted.moves h, hgrows.whole, fun i => ?_, hanswers.moves passes_accepted
    (fun i c pc r hnext hr hcode => (hs.dispatched hnext).outcome hr hcode) h⟩
  have hi := (hs.dispatches i).mono hgrows.made
  cases h with
  | dispatching j c pc store _ hnext =>
    by_cases hij : i = j
    · subst hij
      show H.DispatchMade store i (Function.update s.dispatches i pc i)
      rw [Function.update_self]
      exact hs.dispatched hnext
    · simpa [hij] using hi
  | handled | called | processed | wrote => exact hi
  | crashed => trivial

theorem accounted_reachable (h : H.system.Reachable s) : H.Accounted s := by
  have hI : H.system.Invariant H.Accounted := {
    init := by
      intro s hinit
      refine ⟨admitted_reachable ⟨s, [], hinit, .nil s⟩, ?_, fun i => ?_, answers_init hinit⟩
      · rw [hinit.1]
        exact ⟨Store.coherent_empty, fun i R _ => .inl ⟨rfl, rfl⟩⟩
      · rw [hinit.2.2.2.1 i]
        trivial
    step := fun s a t hs hst => hs.moves (next_moves hst) }
  exact hI.reachable h

/-- Whatever happens to a request, once its response is ACCEPTED the store has one task for it,
created once and queued once, with the content and the route that an admitted request with this
task id asks for. -/
theorem accepted_made (h : H.system.Reachable s) {i : ι} {r : GatewayResponse}
    (hreturned : s.gateway.stages i = .returned r) (hcode : r.code = .accepted) :
    ∃ j R, H.devRequest? j = some R ∧ H.Admits j ∧
      R.taskId = taskIdText H.uuid5 (H.requests i).idempotencyKey ∧
      R.summary s.store = R.expected := by
  have hresponse : (s.gateway.stages i).response = some r := by rw [hreturned]; rfl
  obtain ⟨j, R, hR, hadmits, htaskId, hmade⟩ :=
    (accounted_reachable h).answers.carries.stages i r hresponse hcode
  exact ⟨j, R, hR, hadmits, htaskId, summary_eq hmade⟩

end

end Hub

namespace Sample

/-- The request is dispatched, and its response is remembered. -/
def cartDelivered : List (Hub.Event Unit Unit) :=
  cartReserved ++ List.replicate 4 dispatches ++ [.dispatched (), .called () ⟨4, 0⟩ .replies]

def cartQueued : GatewayResponse where
  success := true
  code := .accepted
  message := ⟨"Task created. ID: TASK-00000000000000000000000000000007; project: shop; " ++
    "team: shop; status: queued.", by decide +kernel⟩
  task := some ⟨cartRequest.id, Config.Sample.shop, Config.Sample.shop, .queued, []⟩
  bounded := GatewayResponse.bounded_nil

theorem cart_delivered : ∃ s, shopHub.system.Reachable s ∧
    s.gateway.stages () = .returned cartQueued := by
  have hany : (System.exec shopHub.next shopDown cartDelivered).any
      (fun t => t.gateway.stages () = .returned cartQueued) = true := by decide +kernel
  obtain ⟨hrun, hreturned⟩ := System.run_execD_any _ hany
  exact ⟨_, ⟨shopDown, cartDelivered,
    ⟨rfl, fun _ => rfl, fun _ => rfl, fun _ => rfl, fun _ => rfl, rfl⟩, hrun⟩, hreturned⟩

end Sample

open Sample in
theorem shown_asked_sample : shopHub.Admits () ∧
    shopHub.AskedView ⟨cartRequest.id, Config.Sample.shop, Config.Sample.shop, .queued, []⟩ := by
  obtain ⟨s, hs, hreturned⟩ := cart_delivered
  exact Hub.shown_asked hs hreturned _ (List.mem_singleton_self _)

open Sample in
theorem accepted_made_sample : ∃ s : Hub.State Unit Unit,
    s.gateway.stages () = .returned cartQueued ∧
    ∃ j R, shopHub.devRequest? j = some R ∧ shopHub.Admits j ∧
      R.taskId = taskIdText shopHub.uuid5 (shopHub.requests ()).idempotencyKey ∧
      R.summary s.store = R.expected := by
  obtain ⟨s, hs, hreturned⟩ := cart_delivered
  exact ⟨s, hreturned, Hub.accepted_made hs hreturned rfl⟩

end AIHub
