import AIHub.Slack.Background

/-!
# Serving

`HubApplication.serve` from its first reconciliation to its end: it reconciles, starts the HTTP
server, the orchestrator and the Slack service, waits for the first of them to end, and then ends
the others. It has a time limit for that, and may be cancelled at any await.

A gathering that is cancelled, by the time limit or from outside, cancels the tasks that it gathers
and still waits for them. So the services outlive `serve` only where it does not come to gather
them.

* `serve_ends`: when `serve` has ended, either nothing was started, because a reconciliation failed
  or was cancelled; or every service has ended, and the result tells which ones ended first, and
  how; or `SlackSocketModeService.stop` has raised.
* `serve_settles`: unless `stop` has raised, the tasks of the Slack events that were accepted
  before the connection was closed have ended, too.
-/

namespace AIHub

open Transition

/-! ## Services -/

inductive HubService where
  | server | orchestrator | slack
  deriving DecidableEq

inductive Reconciliation where
  | runs | deliveries | requests | pending
  deriving DecidableEq

/-- What there is of the optional components. -/
structure HubComponents where
  slack : Bool
  notifier : Bool

namespace HubComponents

variable (h : HubComponents)

/-- The steps of `initialize`. -/
def reconciliations : List Reconciliation :=
  [.runs, .deliveries, .requests] ++ if h.notifier then [.pending] else []

/-- The tasks of `serve`. -/
def services : Finset HubService :=
  if h.slack then {.server, .orchestrator, .slack} else {.server, .orchestrator}

end HubComponents

inductive ServeError where
  | reconciliation
  /-- The exception of a service. -/
  | service (x : HubService)
  /-- "a required background service stopped unexpectedly". -/
  | stoppedUnexpectedly
  /-- An exception of `SlackSocketModeService.stop`. -/
  | slackStop
  | cancelled
  deriving DecidableEq

/-- How `serve` ends, or is going to. -/
inductive ServeResult where
  | returned
  | raised (error : ServeError)
  deriving DecidableEq

/-- Where `serve` stands. -/
inductive ServePc where
  | initializing (left : List Reconciliation)
  | waiting
  /-- In `SlackSocketModeService.stop`; whether the time is up, and whether `serve` is cancelled. -/
  | stopping (result : ServeResult) (timedOut cancelled : Bool)
  | gathering (result : ServeResult) (timedOut cancelled : Bool)
  /-- Time is up, and the services have been cancelled. -/
  | cancelling (result : ServeResult) (cancelled : Bool)
  | ended (result : ServeResult)
  deriving DecidableEq

structure HubState (ι δ : Type) where
  pc : ServePc
  services : HubService → AsyncTask
  /-- The services that have ended when `serve` goes on. -/
  done : Finset HubService
  stop : Bool
  shouldExit : Bool
  slack : SlackService ι δ Unit

inductive HubEvent (ι δ : Type) where
  /-- A reconciliation ends. -/
  | reconciled (raises : Bool)
  | ends (x : HubService) (outcome : TaskOutcome)
  /-- `serve` goes on after a service has ended; the error it finds is the one of `error`. -/
  | wakes (error : Option HubService)
  | cancelled
  /-- The time limit. -/
  | timeout
  /-- `serve` goes on with its shutdown; with `raises`, closing the connection raises. -/
  | proceeds (raises : Bool)
  | slack (a : ServiceEvent ι δ Unit)

namespace HubComponents

variable {ι δ : Type} [DecidableEq ι] [DecidableEq δ] (h : HubComponents)

/-- The start of the `finally` block. -/
def shutdown (s : HubState ι δ) (result : ServeResult) : HubState ι δ :=
  { s with
    stop := true
    shouldExit := true
    pc := if h.slack then .stopping result false false else .gathering result false false }

/-- The services start, when everything is reconciled. -/
def start (s : HubState ι δ) : HubState ι δ :=
  { s with
    pc := .waiting
    services := fun x => if x ∈ h.services then .running false else s.services x }

/-- The services that have ended. -/
def doneServices (s : HubState ι δ) : Finset HubService :=
  h.services.filter fun x => (s.services x).isDone

/-- Cancel the services. -/
def cancelServices (s : HubState ι δ) : HubState ι δ :=
  { s with services := AsyncTask.cancelAll h.services s.services }

/-- After a step of `stop`, which has raised by itself with `raises`. -/
def afterStop (s : HubState ι δ) (result : ServeResult) (timedOut cancelled raises : Bool) :
    HubState ι δ :=
  match s.slack.stops () with
  | .returned =>
    { s with
      services := AsyncTask.cancelAll {.slack} s.services
      pc := .gathering result timedOut cancelled }
  | .raised =>
    if raises then { s with pc := .ended (.raised .slackStop) }
    else if cancelled then { s with pc := .ended (.raised .cancelled) }
    else { h.cancelServices s with pc := .cancelling result false }
  | .starting | .closing | .gathering _ _ =>
    { s with pc := .stopping result timedOut cancelled }

def next (s : HubState ι δ) : HubEvent ι δ → Option (HubState ι δ)
  | .reconciled raises =>
    match s.pc with
    | .initializing (_ :: left) =>
      if raises then some { s with pc := .ended (.raised .reconciliation) }
      else if left = [] then some (h.start s)
      else some { s with pc := .initializing left }
    | _ => none
  | .ends x outcome =>
    if (s.services x).isRunning then
      some { s with services := Function.update s.services x (.ended outcome) }
    else none
  | .wakes error =>
    if s.pc = .waiting ∧ h.doneServices s ≠ ∅ then
      let s := { s with done := h.doneServices s }
      match error with
      | some x =>
        if x ∈ s.done ∧ s.services x = .ended .raised then
          some (h.shutdown s (.raised (.service x)))
        else none
      | none =>
        if ∀ x ∈ s.done, s.services x ≠ .ended .raised then
          some (h.shutdown s
            (if .server ∈ s.done then .returned else .raised .stoppedUnexpectedly))
        else none
    else none
  | .cancelled =>
    match s.pc with
    | .initializing _ => some { s with pc := .ended (.raised .cancelled) }
    | .waiting => some (h.shutdown s (.raised .cancelled))
    | .stopping result timedOut _ =>
      (s.slack.next (.stop () true)).map fun slack =>
        h.afterStop { s with slack } result timedOut true false
    | .gathering result timedOut _ =>
      some { h.cancelServices s with pc := .gathering result timedOut true }
    | .cancelling result _ => some { h.cancelServices s with pc := .cancelling result true }
    | .ended _ => none
  | .timeout =>
    match s.pc with
    | .stopping result false cancelled =>
      (s.slack.next (.stop () true)).map fun slack =>
        h.afterStop { s with slack } result true cancelled false
    | .gathering result false cancelled =>
      some { h.cancelServices s with pc := .gathering result true cancelled }
    | _ => none
  | .proceeds raises =>
    match s.pc with
    | .stopping result timedOut cancelled =>
      -- The gathering in `stop` does not raise by itself.
      if raises ∧ s.slack.stops () ≠ .closing then none
      else (s.slack.next (.stop () raises)).map fun slack =>
        h.afterStop { s with slack } result timedOut cancelled raises
    | .gathering result timedOut cancelled =>
      if raises = false ∧ ∀ x ∈ h.services, (s.services x).isDone then
        some (
          if cancelled then { s with pc := .ended (.raised .cancelled) }
          else if timedOut then { h.cancelServices s with pc := .cancelling result false }
          else { s with pc := .ended result })
      else none
    | .cancelling result cancelled =>
      if raises = false ∧ ∀ x ∈ h.services, (s.services x).isDone then
        some { s with pc := .ended (if cancelled then .raised .cancelled else result) }
      else none
    | _ => none
  | .slack a =>
    match a with
    | .stop _ _ => none
    | a => (s.slack.next a).map fun slack => { s with slack }

def system : System (HubState ι δ) (HubEvent ι δ) :=
  .ofNext (fun s => s.pc = .initializing h.reconciliations ∧ (∀ x, s.services x = .absent) ∧
    s.done = ∅ ∧ s.stop = false ∧ s.shouldExit = false ∧ SlackService.system.init s.slack) h.next

/-! ## Where it stands -/

/-- What the result tells of the services that have ended first. -/
def Tells (done : Finset HubService) (services : HubService → AsyncTask) : ServeResult → Prop
  | .returned => .server ∈ done ∧ ∀ x ∈ done, services x ≠ .ended .raised
  | .raised (.service x) => x ∈ done ∧ services x = .ended .raised
  | .raised .stoppedUnexpectedly =>
    .server ∉ done ∧ done ≠ ∅ ∧ ∀ x ∈ done, services x ≠ .ended .raised
  | .raised .cancelled => True
  | .raised .reconciliation | .raised .slackStop => False

/-- The services are running or have ended, and the shutdown has begun. -/
structure Down (s : HubState ι δ) (result : ServeResult) : Prop where
  started : ∀ x ∈ h.services, s.services x ≠ .absent
  stop : s.stop = true
  shouldExit : s.shouldExit = true
  tells : Tells s.done s.services result

/-- What holds where `serve` stands. -/
def Stands (s : HubState ι δ) : Prop :=
  match s.pc with
  | .initializing _ => (∀ x, s.services x = .absent) ∧ s.slack.stops () = .starting
  | .waiting => (∀ x ∈ h.services, s.services x ≠ .absent) ∧ s.slack.stops () = .starting
  | .stopping result _ _ => h.Down s result ∧ h.slack = true
  | .gathering result _ _ =>
    h.Down s result ∧ (h.slack = true → s.slack.stops () = .returned)
  | .cancelling result _ => h.Down s result ∧
    (h.slack = true → s.slack.stops () = .returned ∨ s.slack.stops () = .raised)
  | .ended result =>
    ((∀ x, s.services x = .absent) ∧ s.slack.stops () = .starting ∧
        (result = .raised .reconciliation ∨ result = .raised .cancelled)) ∨
      (h.Down s result ∧ (∀ x ∈ h.services, (s.services x).isDone = true) ∧
        (h.slack = true → s.slack.stops () = .returned ∨ s.slack.stops () = .raised)) ∨
      (h.slack = true ∧ s.slack.stops () = .raised ∧ s.stop = true ∧ s.shouldExit = true ∧
        (result = .raised .slackStop ∨ result = .raised .cancelled))

variable {h : HubComponents} {s t u : HubState ι δ} {a : HubEvent ι δ} {result : ServeResult}

theorem Tells.follows {done : Finset HubService} {services services' : HubService → AsyncTask}
    (htells : Tells done services result) (hdone : ∀ x ∈ done, (services x).isDone = true)
    (hfollows : ∀ x, (services x).Follows (services' x)) : Tells done services' result := by
  have hsame : ∀ x ∈ done, services' x = services x := fun x hx => (hfollows x).done (hdone x hx)
  cases result with
  | returned =>
    refine ⟨htells.1, fun x hx => ?_⟩
    rw [hsame x hx]
    exact htells.2 x hx
  | raised error =>
    cases error with
    | reconciliation | slackStop => exact htells
    | cancelled => trivial
    | service x =>
      refine ⟨htells.1, ?_⟩
      rw [hsame x htells.1]
      exact htells.2
    | stoppedUnexpectedly =>
      refine ⟨htells.1, htells.2.1, fun x hx => ?_⟩
      rw [hsame x hx]
      exact htells.2.2 x hx

section

omit [DecidableEq ι] [DecidableEq δ]

/-- The services go on, or are cancelled. -/
structure Goes (s t : HubState ι δ) : Prop where
  services : ∀ x, (s.services x).Follows (t.services x)
  done : t.done = s.done
  stop : t.stop = s.stop
  shouldExit : t.shouldExit = s.shouldExit

theorem Down.goes (hdown : h.Down s result)
    (hdone : ∀ x ∈ s.done, (s.services x).isDone = true) (hgoes : Goes s t) :
    h.Down t result where
  started x hx := (hgoes.services x).started (hdown.started x hx)
  stop := hgoes.stop.trans hdown.stop
  shouldExit := hgoes.shouldExit.trans hdown.shouldExit
  tells := by
    rw [hgoes.done]
    exact hdown.tells.follows hdone hgoes.services

theorem goes_refl (s : HubState ι δ) (pc : ServePc) : Goes s { s with pc } :=
  ⟨fun _ => .refl _, rfl, rfl, rfl⟩

theorem goes_slack (s : HubState ι δ) (slack : SlackService ι δ Unit) : Goes s { s with slack } :=
  ⟨fun _ => .refl _, rfl, rfl, rfl⟩

theorem goes_cancelAll (s : HubState ι δ) (set : Finset HubService) (pc : ServePc) :
    Goes s { s with services := AsyncTask.cancelAll set s.services, pc } :=
  ⟨fun _ => AsyncTask.follows_cancelAll .., rfl, rfl, rfl⟩

/-- The invariant. -/
structure Serving (h : HubComponents) (s : HubState ι δ) : Prop where
  done : ∀ x ∈ s.done, (s.services x).isDone = true
  stands : h.Stands s

/-- The shutdown begins. -/
theorem Serving.shutdown (hdone : ∀ x ∈ s.done, (s.services x).isDone = true)
    (hstarted : ∀ x ∈ h.services, s.services x ≠ .absent)
    (htells : Tells s.done s.services result) : h.Serving (h.shutdown s result) := by
  have hdown : h.Down (h.shutdown s result) result := ⟨hstarted, rfl, rfl, htells⟩
  refine ⟨hdone, ?_⟩
  unfold Stands
  by_cases hslack : h.slack = true
  · have hpc : (h.shutdown s result).pc = .stopping result false false := if_pos hslack
    rw [hpc]
    exact ⟨hdown, hslack⟩
  · have hpc : (h.shutdown s result).pc = .gathering result false false := if_neg hslack
    rw [hpc]
    exact ⟨hdown, fun hs => absurd hs hslack⟩

/-- `serve` stays where it stands. -/
theorem Serving.goes (hs : h.Serving s) (hgoes : Goes s t) (hpc : t.pc = s.pc)
    (hstops : t.slack.stops () = s.slack.stops ())
    (habsent : (∀ x, s.services x = .absent) → ∀ x, t.services x = .absent) : h.Serving t := by
  refine ⟨fun x hx => (hgoes.services x).isDone (hs.done x (hgoes.done ▸ hx)), ?_⟩
  have hstands := hs.stands
  unfold Stands at hstands ⊢
  rw [hpc, hstops]
  have hdown : ∀ {result}, h.Down s result → h.Down t result := fun hd => hd.goes hs.done hgoes
  cases hs : s.pc with
  | initializing left =>
    rw [hs] at hstands
    exact ⟨habsent hstands.1, hstands.2⟩
  | waiting =>
    rw [hs] at hstands
    exact ⟨fun x hx => (hgoes.services x).started (hstands.1 x hx), hstands.2⟩
  | stopping | gathering | cancelling =>
    rw [hs] at hstands
    exact ⟨hdown hstands.1, hstands.2⟩
  | ended result =>
    rw [hs] at hstands
    obtain ⟨hnothing, hresult⟩ | ⟨hd, hdone, hstop⟩ | ⟨hslack, hraised, hstop, hexit, hresult⟩ :=
      hstands
    · exact .inl ⟨habsent hnothing, hresult⟩
    · exact .inr (.inl ⟨hdown hd, fun x hx => (hgoes.services x).isDone (hdone x hx), hstop⟩)
    · exact .inr (.inr ⟨hslack, hraised, hgoes.stop.trans hstop, hgoes.shouldExit.trans hexit,
        hresult⟩)

/-- `stop` has taken a step. -/
theorem Serving.afterStop (hdone : ∀ x ∈ s.done, (s.services x).isDone = true)
    (hdown : h.Down s result) (hslack : h.slack = true) (timedOut cancelled raises : Bool) :
    h.Serving (h.afterStop s result timedOut cancelled raises) := by
  unfold HubComponents.afterStop
  split
  · rename_i hstops
    have hgoes := goes_cancelAll s {.slack} (.gathering result timedOut cancelled)
    exact ⟨fun x hx => (hgoes.services x).isDone (hdone x hx), hdown.goes hdone hgoes,
      fun _ => hstops⟩
  · rename_i hstops
    split_ifs
    · exact ⟨hdone, .inr (.inr ⟨hslack, hstops, hdown.stop, hdown.shouldExit, .inl rfl⟩)⟩
    · exact ⟨hdone, .inr (.inr ⟨hslack, hstops, hdown.stop, hdown.shouldExit, .inr rfl⟩)⟩
    · have hgoes := goes_cancelAll s h.services (.cancelling result false)
      exact ⟨fun x hx => (hgoes.services x).isDone (hdone x hx), hdown.goes hdone hgoes,
        fun _ => .inr hstops⟩
  all_goals exact ⟨hdone, hdown.goes hdone (goes_refl s _), hslack⟩

end

theorem Serving.step (hs : h.Serving s) (hnext : h.next s a = some t) : h.Serving t := by
  obtain ⟨hdone, hstands⟩ := hs
  have hserving : h.Serving s := ⟨hdone, hstands⟩
  unfold Stands at hstands
  cases a with
  | reconciled raises =>
    simp only [next] at hnext
    split at hnext
    · rename_i x left hpc
      rw [hpc] at hstands
      split_ifs at hnext <;> cases hnext
      · exact ⟨hdone, .inl ⟨hstands.1, hstands.2, .inl rfl⟩⟩
      · refine ⟨fun x hx => ?_, fun x hx => ?_, hstands.2⟩
        · have hended := hdone x hx
          rw [hstands.1 x] at hended
          cases hended
        · simp [start, hx]
      · exact ⟨hdone, hstands⟩
    · cases hnext
  | ends x outcome =>
    simp only [next] at hnext
    split_ifs at hnext with hrunning
    cases hnext
    refine hserving.goes ⟨fun y => ?_, rfl, rfl, rfl⟩ rfl rfl fun habsent => ?_
    · by_cases hy : y = x
      · subst hy
        cases htask : s.services y with
        | running cancelling => simpa using .of_running _ (by simp)
        | absent | ended _ =>
          rw [htask] at hrunning
          cases hrunning
      · simp only [Function.update_of_ne hy]
        exact .refl _
    · rw [habsent x] at hrunning
      cases hrunning
  | wakes error =>
    simp only [next] at hnext
    by_cases hwaiting : s.pc = .waiting ∧ h.doneServices s ≠ ∅
    case neg =>
      rw [if_neg hwaiting] at hnext
      cases hnext
    rw [if_pos hwaiting] at hnext
    rw [hwaiting.1] at hstands
    have hended : ∀ x ∈ h.doneServices s, (s.services x).isDone = true := fun x hx =>
      (Finset.mem_filter.1 hx).2
    cases error with
    | some x =>
      dsimp only at hnext
      split_ifs at hnext with hx
      cases hnext
      exact .shutdown hended hstands.1 hx
    | none =>
      dsimp only at hnext
      split_ifs at hnext with hraised hserver
      · cases hnext
        exact .shutdown hended hstands.1 ⟨hserver, hraised⟩
      · cases hnext
        exact .shutdown hended hstands.1 ⟨hserver, hwaiting.2, hraised⟩
  | cancelled =>
    simp only [next] at hnext
    cases hpc : s.pc with
    | initializing left =>
      rw [hpc] at hnext hstands
      cases hnext
      exact ⟨hdone, .inl ⟨hstands.1, hstands.2, .inr rfl⟩⟩
    | waiting =>
      rw [hpc] at hnext hstands
      cases hnext
      exact .shutdown hdone hstands.1 trivial
    | stopping result timedOut cancelled =>
      rw [hpc] at hnext hstands
      obtain ⟨slack, -, rfl⟩ := Option.map_eq_some_iff.1 hnext
      exact .afterStop (s := { s with slack }) hdone (hstands.1.goes hdone (goes_slack s slack))
        hstands.2 ..
    | gathering result timedOut cancelled =>
      rw [hpc] at hnext hstands
      cases hnext
      have hgoes := goes_cancelAll s h.services (.gathering result timedOut true)
      exact ⟨fun x hx => (hgoes.services x).isDone (hdone x hx), hstands.1.goes hdone hgoes,
        hstands.2⟩
    | cancelling result cancelled =>
      rw [hpc] at hnext hstands
      cases hnext
      have hgoes := goes_cancelAll s h.services (.cancelling result true)
      exact ⟨fun x hx => (hgoes.services x).isDone (hdone x hx), hstands.1.goes hdone hgoes,
        hstands.2⟩
    | ended result =>
      rw [hpc] at hnext
      cases hnext
  | timeout =>
    simp only [next] at hnext
    split at hnext
    · rename_i result cancelled hpc
      rw [hpc] at hstands
      obtain ⟨slack, -, rfl⟩ := Option.map_eq_some_iff.1 hnext
      exact .afterStop (s := { s with slack }) hdone (hstands.1.goes hdone (goes_slack s slack))
        hstands.2 ..
    · rename_i result cancelled hpc
      rw [hpc] at hstands
      cases hnext
      have hgoes := goes_cancelAll s h.services (.gathering result true cancelled)
      exact ⟨fun x hx => (hgoes.services x).isDone (hdone x hx), hstands.1.goes hdone hgoes,
        hstands.2⟩
    · cases hnext
  | proceeds raises =>
    simp only [next] at hnext
    split at hnext
    · rename_i result timedOut cancelled hpc
      rw [hpc] at hstands
      split_ifs at hnext
      obtain ⟨slack, -, rfl⟩ := Option.map_eq_some_iff.1 hnext
      exact .afterStop (s := { s with slack }) hdone (hstands.1.goes hdone (goes_slack s slack))
        hstands.2 ..
    · rename_i result timedOut cancelled hpc
      rw [hpc] at hstands
      obtain ⟨hdown, hstop⟩ := hstands
      split_ifs at hnext with hended <;> cases hnext
      · exact ⟨hdone, .inr (.inl ⟨⟨hdown.started, hdown.stop, hdown.shouldExit, trivial⟩, hended.2,
          fun hslack => .inl (hstop hslack)⟩)⟩
      · have hgoes := goes_cancelAll s h.services (.cancelling result false)
        exact ⟨fun x hx => (hgoes.services x).isDone (hdone x hx), hdown.goes hdone hgoes,
          fun hslack => .inl (hstop hslack)⟩
      · exact ⟨hdone, .inr (.inl ⟨hdown.goes hdone (goes_refl s _), hended.2,
          fun hslack => .inl (hstop hslack)⟩)⟩
    · rename_i result cancelled hpc
      rw [hpc] at hstands
      obtain ⟨hdown, hstop⟩ := hstands
      split_ifs at hnext with hended <;> cases hnext
      · exact ⟨hdone, .inr (.inl ⟨⟨hdown.started, hdown.stop, hdown.shouldExit, trivial⟩, hended.2,
          hstop⟩)⟩
      · exact ⟨hdone, .inr (.inl ⟨hdown.goes hdone (goes_refl s _), hended.2, hstop⟩)⟩
    · cases hnext
  | slack a =>
    have hslack : ∃ slack, s.slack.next a = some slack ∧ t = { s with slack } ∧
        slack.stops () = s.slack.stops () := by
      cases a with
      | stop k raises => cases hnext
      | _ =>
        simp only [next, Option.map_eq_some_iff] at hnext
        obtain ⟨slack, hslack, rfl⟩ := hnext
        exact ⟨slack, hslack, rfl, next_stops hslack fun _ => by simp⟩
    obtain ⟨slack, -, rfl, hstops⟩ := hslack
    exact hserving.goes (goes_slack s slack) rfl hstops id

theorem reachable_serving (hs : (h.system : System (HubState ι δ) _).Reachable s) :
    h.Serving s := by
  have hI : (h.system : System (HubState ι δ) _).Invariant h.Serving := {
    init := by
      rintro s ⟨hpc, habsent, hdone, -, -, hslack⟩
      refine ⟨fun x hx => ?_, ?_⟩
      · rw [hdone] at hx
        cases hx
      · unfold Stands
        rw [hpc]
        exact ⟨habsent, hslack.2.2.2.2 ()⟩
    step := fun _ _ _ hs hstep => hs.step hstep }
  exact hI.reachable hs

/-! ## The end -/

/-- When `serve` has ended, either nothing was started, because a reconciliation failed or was
cancelled; or every service has ended, and the result tells which ones ended first, and how; or
`SlackSocketModeService.stop` has raised, and the services have been told to stop. -/
theorem serve_ends (hs : (h.system : System (HubState ι δ) _).Reachable s)
    (hended : s.pc = .ended result) :
    ((∀ x, s.services x = .absent) ∧
        (result = .raised .reconciliation ∨ result = .raised .cancelled)) ∨
      ((∀ x ∈ h.services, (s.services x).isDone = true) ∧ Tells s.done s.services result) ∨
      (h.slack = true ∧ s.slack.stops () = .raised ∧ s.stop = true ∧ s.shouldExit = true ∧
        (result = .raised .slackStop ∨ result = .raised .cancelled)) := by
  have hstands := (reachable_serving hs).stands
  unfold Stands at hstands
  rw [hended] at hstands
  obtain ⟨hnothing, -, hresult⟩ | ⟨hdown, hdone, -⟩ | hraised := hstands
  · exact .inl ⟨hnothing, hresult⟩
  · exact .inr (.inl ⟨hdone, hdown.tells⟩)
  · exact .inr (.inr hraised)

end HubComponents

namespace Sample

/-- A hub with a Slack service that is yet to be started. -/
def hub : HubComponents := ⟨true, true⟩

def startingHub : HubState Bool Unit where
  pc := .initializing hub.reconciliations
  services _ := .absent
  done := ∅
  stop := false
  shouldExit := false
  slack := idleService

theorem startingHub_init : (hub.system : System (HubState Bool Unit) _).init startingHub :=
  ⟨rfl, fun _ => rfl, rfl, rfl, rfl, fun _ => rfl, rfl, fun _ => rfl, fun _ => rfl, fun _ => rfl⟩

def reconcilesAll : List (HubEvent Bool Unit) :=
  [.reconciled false, .reconciled false, .reconciled false, .reconciled false]

/-- The orchestrator fails, and the server does not end in time. -/
def timesOut : List (HubEvent Bool Unit) :=
  reconcilesAll ++ [.slack .build, .ends .orchestrator .raised, .wakes (some .orchestrator),
    .proceeds false, .proceeds false, .ends .slack .cancelled, .timeout, .ends .server .cancelled,
    .proceeds false, .proceeds false]

def afterTimeout : HubState Bool Unit := System.execD hub.next startingHub timesOut

end Sample

open Sample in
theorem serve_ends_sample : (afterTimeout.services .server).isDone = true := by
  have hs : hub.system.Reachable afterTimeout :=
    ⟨startingHub, timesOut, startingHub_init, System.run_execD (by decide +kernel)⟩
  have hended : afterTimeout.pc = .ended (.raised (.service .orchestrator)) := by decide +kernel
  obtain ⟨-, hresult⟩ | ⟨hdone, -⟩ | ⟨-, -, -, -, hresult⟩ := HubComponents.serve_ends hs hended
  · simp at hresult
  · exact hdone .server (by decide)
  · simp at hresult

namespace HubComponents

variable {ι δ : Type} [DecidableEq ι] [DecidableEq δ] {h : HubComponents} {s t u : HubState ι δ}
  {a : HubEvent ι δ} {result : ServeResult}

/-! ## The tasks of Slack events -/

omit [DecidableEq ι] [DecidableEq δ] in
theorem slack_afterStop (s : HubState ι δ) (result : ServeResult)
    (timedOut cancelled raises : Bool) :
    (h.afterStop s result timedOut cancelled raises).slack = s.slack := by
  unfold HubComponents.afterStop
  split
  · rfl
  · split_ifs <;> rfl
  all_goals rfl

/-- A step of the hub is one of the Slack service, or none of its. -/
theorem next_slack (hnext : h.next s a = some t) :
    t.slack = s.slack ∨ ∃ b, s.slack.next b = some t.slack := by
  have hstop : ∀ {raises : Bool} {result : ServeResult} {timedOut cancelled own : Bool},
      (s.slack.next (.stop () raises)).map (fun slack =>
        h.afterStop { s with slack } result timedOut cancelled own) = some t →
      ∃ b, s.slack.next b = some t.slack := by
    intro raises result timedOut cancelled own hmap
    obtain ⟨slack, hslack, rfl⟩ := Option.map_eq_some_iff.1 hmap
    exact ⟨_, by rw [slack_afterStop, hslack]⟩
  cases a with
  | reconciled raises =>
    simp only [next] at hnext
    split at hnext
    · split_ifs at hnext <;> cases hnext <;> exact .inl rfl
    · cases hnext
  | ends x outcome =>
    simp only [next] at hnext
    split_ifs at hnext
    cases hnext
    exact .inl rfl
  | wakes error =>
    simp only [next] at hnext
    split at hnext
    · split at hnext <;> split_ifs at hnext <;> cases hnext <;> exact .inl rfl
    · cases hnext
  | cancelled =>
    simp only [next] at hnext
    split at hnext
    case h_3 => exact .inr (hstop hnext)
    case h_6 => cases hnext
    all_goals
      cases hnext
      exact .inl rfl
  | timeout =>
    simp only [next] at hnext
    split at hnext
    · exact .inr (hstop hnext)
    · cases hnext
      exact .inl rfl
    · cases hnext
  | proceeds raises =>
    simp only [next] at hnext
    split at hnext
    · split_ifs at hnext
      exact .inr (hstop hnext)
    · split_ifs at hnext <;> cases hnext <;> exact .inl rfl
    · split_ifs at hnext <;> cases hnext <;> exact .inl rfl
    · cases hnext
  | slack b =>
    cases b with
    | stop k raises => cases hnext
    | _ =>
      simp only [next, Option.map_eq_some_iff] at hnext
      obtain ⟨slack, hslack, rfl⟩ := hnext
      exact .inr ⟨_, hslack⟩

/-- A run of the hub is a run of the Slack service. -/
theorem slack_run {as : List (HubEvent ι δ)}
    (hrun : (h.system : System (HubState ι δ) _).Run s as t) :
    ∃ bs, (SlackService.system : System (SlackService ι δ Unit) _).Run s.slack bs t.slack := by
  induction hrun with
  | nil s => exact ⟨[], .nil s.slack⟩
  | @cons s t u a as hstep _ ih =>
    obtain ⟨bs, hbs⟩ := ih
    obtain hsame | ⟨b, hb⟩ := next_slack hstep
    · exact ⟨bs, hsame ▸ hbs⟩
    · exact ⟨b :: bs, .cons hb hbs⟩

/-- Unless `SlackSocketModeService.stop` has raised, the tasks of the events that were accepted
before the connection was closed have ended with `serve`. -/
theorem serve_settles {as : List (HubEvent ι δ)} {pending : ServeResult} {timedOut cancelled : Bool}
    (hs : (h.system : System (HubState ι δ) _).Reachable s)
    (hpc : s.pc = .stopping pending timedOut cancelled)
    (hclosed : s.slack.stops () = .closing ∨ s.slack.stops () = .starting ∧ s.slack.built = false)
    (hstep : h.system.step s (.proceeds false) t) (hrun : h.system.Run t as u)
    (hended : u.pc = .ended result) (hstop : u.slack.stops () ≠ .raised) :
    ∀ i, s.slack.tasks i ≠ .absent → (u.slack.tasks i).isDone = true := by
  have hreachable : (SlackService.system : System (SlackService ι δ Unit) _).Reachable s.slack := by
    obtain ⟨first, as, hinit, hrun⟩ := hs
    obtain ⟨bs, hbs⟩ := slack_run hrun
    exact ⟨first.slack, bs, hinit.2.2.2.2.2, hbs⟩
  have hslack : SlackService.system.step s.slack (.stop () false) t.slack := by
    have hnext : h.next s (.proceeds false) = some t := hstep
    simp only [next, hpc] at hnext
    rw [if_neg (by simp)] at hnext
    obtain ⟨slack, hslack, rfl⟩ := Option.map_eq_some_iff.1 hnext
    rw [slack_afterStop]
    exact hslack
  obtain ⟨bs, hbs⟩ := slack_run hrun
  have hawaits := stop_awaits hreachable hclosed hslack hbs
  have henabled := (reachable_serving hs).stands
  unfold Stands at henabled
  rw [hpc] at henabled
  have hstands := (reachable_serving ((hs.step hstep).run hrun)).stands
  unfold Stands at hstands
  rw [hended] at hstands
  have hreturned : u.slack.stops () = .returned := by
    obtain ⟨-, hstarting, -⟩ | ⟨-, -, hover⟩ | ⟨-, hraised, -⟩ := hstands
    · rw [Awaits, hstarting] at hawaits
      exact hawaits.elim
    · exact (hover henabled.2).resolve_right hstop
    · exact absurd hraised hstop
  rw [Awaits, hreturned] at hawaits
  exact hawaits

end HubComponents

namespace Sample

/-- An event is being processed when the server ends. -/
def processes : List (HubEvent Bool Unit) :=
  reconcilesAll ++ [.slack .build, .slack (.accept false mention), .ends .server .returned,
    .wakes none, .proceeds false]

def closes : List (HubEvent Bool Unit) :=
  [.slack (.ends false .cancelled), .proceeds false, .ends .orchestrator .returned,
    .ends .slack .returned, .proceeds false]

def beforeClose : HubState Bool Unit := System.execD hub.next startingHub processes

end Sample

open Sample in
theorem serve_settles_sample :
    let t := System.execD hub.next beforeClose [.proceeds false]
    let u := System.execD hub.next t closes
    (u.slack.tasks false).isDone = true := by
  intro t u
  have hs : hub.system.Reachable beforeClose :=
    ⟨startingHub, processes, startingHub_init, System.run_execD (by decide +kernel)⟩
  have hpc : beforeClose.pc = .stopping .returned false false := by decide +kernel
  have hstep : hub.system.step beforeClose (.proceeds false) t :=
    System.step_execD (by decide +kernel)
  have hrun : hub.system.Run t closes u := System.run_execD (by decide +kernel)
  have hended : u.pc = .ended .returned := by decide +kernel
  exact HubComponents.serve_settles hs hpc (.inl (by decide +kernel)) hstep hrun hended
    (by decide +kernel) false (by decide +kernel)

end AIHub
