import AIHub.Domain.Json
import AIHub.Lib.EventLoop
import AIHub.Lib.Transition
import Mathlib.Data.Finset.Basic
import Mathlib.Logic.Function.Basic

/-!
# Background tasks of the Slack service

`SlackSocketModeService.accept_event` starts a task for an event and returns to its listener. The
service keeps the task in a set until its callback runs, which takes it out and reports its error.
`drain` waits for the set to be empty. `stop` closes the connection, cancels what is in the set by
then, and waits for that.

A callback runs some time after its task has ended, and new events may be accepted at any time.

* `drain_settles`: when `drain` returns, every task that was ever accepted has ended, and every
  error has been reported, once.
* `stop_settles`: when `stop` has returned, every task that was accepted before the connection was
  closed has ended.
-/

namespace AIHub

open Transition

/-! ## The service -/

/-- Where a `drain` call stands. -/
inductive DrainPc (ι : Type) where
  | looping
  /-- The tasks that are gathered, and whether the call has been cancelled. -/
  | gathering (tasks : Finset ι) (cancelled : Bool)
  | returned
  | raised

/-- Where a `stop` call stands. -/
inductive StopPc (ι : Type) where
  | starting
  | closing
  | gathering (tasks : Finset ι) (cancelled : Bool)
  | returned
  | raised
  deriving DecidableEq

/-- The service, with its `drain` calls `δ` and its `stop` calls `κ`. -/
structure SlackService (ι δ κ : Type) where
  built : Bool
  tasks : ι → AsyncTask
  background : Finset ι
  /-- The calls of `on_background_error`. -/
  reported : ι → Nat
  drains : δ → DrainPc ι
  stops : κ → StopPc ι

inductive ServiceEvent (ι δ κ : Type) where
  | build
  | accept (i : ι) (event : JsonObject)
  | ends (i : ι) (outcome : TaskOutcome)
  | finish (i : ι)
  /-- The call goes on; with `raises`, its await raises, or the call is cancelled. -/
  | drain (d : δ) (raises : Bool)
  | stop (k : κ) (raises : Bool)

/-- `event.get("bot_id") is not None or event.get("subtype") == "bot_message"`. -/
def isBotEvent (event : JsonObject) : Bool :=
  (event.get? "bot_id").getD .null ≠ .null || event.get? "subtype" = some (.string "bot_message")

namespace SlackService

variable {ι δ κ : Type} [DecidableEq ι] [DecidableEq δ] [DecidableEq κ]

def acceptEvent (s : SlackService ι δ κ) (i : ι) (event : JsonObject) : SlackService ι δ κ :=
  if isBotEvent event then s
  else { s with
    tasks := Function.update s.tasks i (.running false)
    background := insert i s.background }

/-- `_finish_background_task`. -/
def finishBackgroundTask (s : SlackService ι δ κ) (i : ι) : SlackService ι δ κ :=
  { s with
    background := s.background.erase i
    reported :=
      if s.tasks i = .ended .raised then Function.update s.reported i (s.reported i + 1)
      else s.reported }

/-- `while self._background`, and the gathering that follows. -/
def drainLoop (s : SlackService ι δ κ) (d : δ) : SlackService ι δ κ :=
  { s with
    drains := Function.update s.drains d
      (if s.background = ∅ then .returned else .gathering s.background false) }

/-- Cancel the tasks of the set, and gather them. -/
def cancelBackground (s : SlackService ι δ κ) (k : κ) : SlackService ι δ κ :=
  { s with
    tasks := AsyncTask.cancelAll s.background s.tasks
    stops := Function.update s.stops k
      (if s.background = ∅ then .returned else .gathering s.background false) }

def drainNext (s : SlackService ι δ κ) (d : δ) (raises : Bool) : Option (SlackService ι δ κ) :=
  match s.drains d with
  | .looping => if raises then none else some (s.drainLoop d)
  | .gathering tasks cancelled =>
    if raises then
      -- The tasks that still run are cancelled with the call.
      some { s with
        tasks := AsyncTask.cancelAll tasks s.tasks
        drains := Function.update s.drains d (.gathering tasks true) }
    else if ∀ i ∈ tasks, (s.tasks i).isDone then
      if cancelled then some { s with drains := Function.update s.drains d .raised }
      else some (s.drainLoop d)
    else none
  | .returned | .raised => none

def stopNext (s : SlackService ι δ κ) (k : κ) (raises : Bool) : Option (SlackService ι δ κ) :=
  match s.stops k with
  | .starting =>
    if raises then none
    else if s.built then some { s with stops := Function.update s.stops k .closing }
    else some (s.cancelBackground k)
  | .closing =>
    if raises then some { s with stops := Function.update s.stops k .raised }
    else some (s.cancelBackground k)
  | .gathering tasks cancelled =>
    if raises then
      some { s with
        tasks := AsyncTask.cancelAll tasks s.tasks
        stops := Function.update s.stops k (.gathering tasks true) }
    else if ∀ i ∈ tasks, (s.tasks i).isDone then
      some { s with stops := Function.update s.stops k (if cancelled then .raised else .returned) }
    else none
  | .returned | .raised => none

def next (s : SlackService ι δ κ) : ServiceEvent ι δ κ → Option (SlackService ι δ κ)
  | .build => some { s with built := true }
  | .accept i event => if s.tasks i = .absent then some (s.acceptEvent i event) else none
  | .ends i outcome =>
    if (s.tasks i).isRunning then
      some { s with tasks := Function.update s.tasks i (.ended outcome) }
    else none
  | .finish i =>
    if i ∈ s.background ∧ (s.tasks i).isDone then some (s.finishBackgroundTask i) else none
  | .drain d raises => s.drainNext d raises
  | .stop k raises => s.stopNext k raises

def system : System (SlackService ι δ κ) (ServiceEvent ι δ κ) :=
  .ofNext (fun s => (∀ i, s.tasks i = .absent) ∧ s.background = ∅ ∧ (∀ i, s.reported i = 0) ∧
    (∀ d, s.drains d = .looping) ∧ ∀ k, s.stops k = .starting) next

end SlackService

/-! ## What a step does to the tasks -/

/-- What a step does to the tasks and to the set. -/
inductive TaskStep {ι δ κ : Type} [DecidableEq ι] (s t : SlackService ι δ κ) : Prop
  /-- A call cancels some tasks, or none. -/
  | calls (cancelled : Finset ι) (tasks : t.tasks = AsyncTask.cancelAll cancelled s.tasks)
      (background : t.background = s.background) (reported : t.reported = s.reported)
  | accepted (i : ι) (absent : s.tasks i = .absent)
      (tasks : t.tasks = Function.update s.tasks i (.running false))
      (background : t.background = insert i s.background) (reported : t.reported = s.reported)
  | ended (i : ι) (outcome : TaskOutcome) (running : (s.tasks i).isRunning = true)
      (tasks : t.tasks = Function.update s.tasks i (.ended outcome))
      (background : t.background = s.background) (reported : t.reported = s.reported)
  | finished (i : ι) (done : (s.tasks i).isDone = true) (mem : i ∈ s.background)
      (tasks : t.tasks = s.tasks) (background : t.background = s.background.erase i)
      (reported : t.reported = if s.tasks i = .ended .raised then
        Function.update s.reported i (s.reported i + 1) else s.reported)

section

variable {ι δ κ : Type} [DecidableEq ι] {s t u : SlackService ι δ κ}

/-- A step that leaves the tasks alone. -/
theorem TaskStep.quiet (tasks : t.tasks = s.tasks) (background : t.background = s.background)
    (reported : t.reported = s.reported) : TaskStep s t :=
  .calls ∅ (tasks.trans AsyncTask.cancelAll_empty.symm) background reported

theorem TaskStep.follows (h : TaskStep s t) (i : ι) : (s.tasks i).Follows (t.tasks i) := by
  cases h with
  | calls cancelled tasks =>
    rw [tasks]
    exact AsyncTask.follows_cancelAll ..
  | accepted j absent tasks =>
    rw [tasks]
    by_cases hij : i = j
    · subst hij
      rw [absent]
      exact .of_absent _
    · rw [Function.update_of_ne hij]
  | ended j outcome running tasks =>
    rw [tasks]
    by_cases hij : i = j
    · subst hij
      cases htask : s.tasks i with
      | running cancelling => simpa using .of_running _ (by simp)
      | absent | ended _ =>
        rw [htask] at running
        cases running
    · rw [Function.update_of_ne hij]
  | finished j done mem tasks => rw [tasks]

variable [DecidableEq δ] [DecidableEq κ] {a : ServiceEvent ι δ κ} {d : δ} {k : κ}

theorem next_taskStep (h : s.next a = some t) : TaskStep s t := by
  cases a with
  | build =>
    cases h
    exact .quiet rfl rfl rfl
  | accept i event =>
    simp only [SlackService.next, SlackService.acceptEvent] at h
    split_ifs at h with habsent <;> cases h
    · exact .quiet rfl rfl rfl
    · exact .accepted i habsent rfl rfl rfl
  | ends i outcome =>
    simp only [SlackService.next] at h
    split_ifs at h with hrunning
    cases h
    exact .ended i outcome hrunning rfl rfl rfl
  | finish i =>
    simp only [SlackService.next] at h
    split_ifs at h with hmem
    cases h
    exact .finished i hmem.2 hmem.1 rfl rfl rfl
  | drain d raises =>
    simp only [SlackService.next, SlackService.drainNext] at h
    split at h
    · split_ifs at h
      cases h
      exact .quiet rfl rfl rfl
    · split_ifs at h <;> cases h
      · exact .calls _ rfl rfl rfl
      · exact .quiet rfl rfl rfl
      · exact .quiet rfl rfl rfl
    all_goals cases h
  | stop k raises =>
    simp only [SlackService.next, SlackService.stopNext] at h
    split at h
    · split_ifs at h <;> cases h
      · exact .quiet rfl rfl rfl
      · exact .calls _ rfl rfl rfl
    · split_ifs at h <;> cases h
      · exact .quiet rfl rfl rfl
      · exact .calls _ rfl rfl rfl
    · split_ifs at h <;> cases h
      · exact .calls _ rfl rfl rfl
      · exact .quiet rfl rfl rfl
      · exact .quiet rfl rfl rfl
    all_goals cases h

/-! ## What the set holds -/

/-- The set holds what runs, and a task that has left it has had its error reported. -/
structure Kept (s : SlackService ι δ κ) : Prop where
  accepted : ∀ i ∈ s.background, s.tasks i ≠ .absent
  running : ∀ i, (s.tasks i).isRunning = true → i ∈ s.background
  reported : ∀ i, s.reported i = if s.tasks i = .ended .raised ∧ i ∉ s.background then 1 else 0

omit [DecidableEq δ] [DecidableEq κ] in
theorem Kept.step (h : Kept s) (hstep : TaskStep s t) : Kept t := by
  cases hstep with
  | calls cancelled tasks background reported =>
    refine ⟨fun i hi => ?_, fun i hi => ?_, fun i => ?_⟩
    · rw [tasks, ne_eq, AsyncTask.cancelAll_eq_absent]
      exact h.accepted i (background ▸ hi)
    · rw [tasks, AsyncTask.isRunning_cancelAll] at hi
      rw [background]
      exact h.running i hi
    · rw [reported, background, tasks, h.reported i]
      simp only [AsyncTask.cancelAll_eq_ended]
  | accepted j absent tasks background reported =>
    refine ⟨fun i hi => ?_, fun i hi => ?_, fun i => ?_⟩
    · rw [background, Finset.mem_insert] at hi
      rw [tasks]
      by_cases hij : i = j
      · simp [hij]
      · rw [Function.update_of_ne hij]
        exact h.accepted i (hi.resolve_left hij)
    · rw [background, Finset.mem_insert]
      by_cases hij : i = j
      · exact .inl hij
      · rw [tasks, Function.update_of_ne hij] at hi
        exact .inr (h.running i hi)
    · rw [reported, h.reported i, tasks, background]
      by_cases hij : i = j
      · simp [hij, absent]
      · simp [hij]
  | ended j outcome running tasks background reported =>
    refine ⟨fun i hi => ?_, fun i hi => ?_, fun i => ?_⟩
    · rw [tasks]
      by_cases hij : i = j
      · simp [hij]
      · rw [Function.update_of_ne hij]
        exact h.accepted i (background ▸ hi)
    · rw [background]
      by_cases hij : i = j
      · simp [tasks, hij, AsyncTask.isRunning] at hi
      · rw [tasks, Function.update_of_ne hij] at hi
        exact h.running i hi
    · rw [reported, h.reported i, tasks, background]
      by_cases hij : i = j
      · simp [hij, h.running j running]
      · simp [hij]
  | finished j done mem tasks background reported =>
    refine ⟨fun i hi => ?_, fun i hi => ?_, fun i => ?_⟩
    · rw [tasks]
      exact h.accepted i (Finset.mem_of_mem_erase (background ▸ hi))
    · rw [tasks] at hi
      rw [background, Finset.mem_erase]
      refine ⟨?_, h.running i hi⟩
      rintro rfl
      obtain ⟨outcome, htask⟩ := AsyncTask.isDone_iff.1 done
      rw [htask] at hi
      cases hi
    · rw [reported, tasks, background]
      by_cases hij : i = j
      · subst hij
        have hbefore : s.reported i = 0 := by simp [h.reported i, mem]
        by_cases hraised : s.tasks i = .ended .raised <;> simp [hraised, hbefore]
      · have hother : (if s.tasks j = .ended .raised then
            Function.update s.reported j (s.reported j + 1) else s.reported) i = s.reported i := by
          split_ifs
          · exact Function.update_of_ne hij ..
          · rfl
        rw [hother, h.reported i]
        simp [hij]

theorem reachable_kept
    (h : (SlackService.system : System (SlackService ι δ κ) _).Reachable s) : Kept s := by
  have hI : (SlackService.system : System (SlackService ι δ κ) _).Invariant Kept := {
    init := by
      rintro s ⟨htasks, hbackground, hreported, -, -⟩
      refine ⟨fun i hi => ?_, fun i hi => ?_, fun i => ?_⟩
      · rw [hbackground] at hi
        cases hi
      · rw [htasks i] at hi
        cases hi
      · simp [hreported i, htasks i]
    step := fun _ _ _ h hstep => h.step (next_taskStep hstep) }
  exact hI.reachable h

omit [DecidableEq δ] [DecidableEq κ] in
/-- An empty set: every task that was accepted has ended, and its error has been reported. -/
theorem Kept.settled (h : Kept s) (hempty : s.background = ∅) (i : ι)
    (hi : s.tasks i ≠ .absent) : ∃ outcome, s.tasks i = .ended outcome ∧
      s.reported i = if outcome = .raised then 1 else 0 := by
  cases htask : s.tasks i with
  | absent => exact absurd htask hi
  | running cancelling =>
    have hmem := h.running i (by rw [htask]; rfl)
    rw [hempty] at hmem
    cases hmem
  | ended outcome =>
    refine ⟨outcome, rfl, ?_⟩
    rw [h.reported i, htask, hempty]
    simp

/-! ## Waiting for the tasks -/

/-- When `drain` returns, every task that was ever accepted has ended, and every error has been
reported, once. -/
theorem drain_settles {raises : Bool}
    (hs : (SlackService.system : System (SlackService ι δ κ) _).Reachable s)
    (hstep : SlackService.system.step s (.drain d raises) t) (hreturned : t.drains d = .returned) :
    ∀ i, t.tasks i ≠ .absent → ∃ outcome, t.tasks i = .ended outcome ∧
      t.reported i = if outcome = .raised then 1 else 0 := by
  refine (reachable_kept (hs.step hstep)).settled ?_
  have hloop : ∀ r : SlackService ι δ κ, (r.drainLoop d).drains d = .returned →
      (r.drainLoop d).background = ∅ := by
    intro r hr
    by_contra hne
    rw [SlackService.drainLoop] at hr hne
    simp [hne] at hr
  have hnext : s.drainNext d raises = some t := hstep
  simp only [SlackService.drainNext] at hnext
  split at hnext
  · split_ifs at hnext
    cases hnext
    exact hloop s hreturned
  · split_ifs at hnext <;> cases hnext
    · simp at hreturned
    · simp at hreturned
    · exact hloop s hreturned
  all_goals cases hnext

end

namespace Sample

def mention : JsonObject := [("text", .string "status")]

def idleService : SlackService Bool Unit Unit where
  built := false
  tasks _ := .absent
  background := ∅
  reported _ := 0
  drains _ := .looping
  stops _ := .starting

/-- One event fails while its task is waited for, and the other one comes meanwhile. -/
def drained : List (ServiceEvent Bool Unit Unit) :=
  [.build, .accept false mention, .drain () false, .ends false .raised, .accept true mention,
    .finish false, .drain () false, .ends true .returned, .finish true]

def beforeDrained : SlackService Bool Unit Unit :=
  System.execD SlackService.next idleService drained

end Sample

open Sample in
theorem drain_settles_sample :
    let t := System.execD SlackService.next beforeDrained [.drain () false]
    t.reported false = 1 ∧ t.reported true = 0 := by
  intro t
  have hs : SlackService.system.Reachable beforeDrained :=
    ⟨idleService, drained, ⟨fun _ => rfl, rfl, fun _ => rfl, fun _ => rfl, fun _ => rfl⟩,
      System.run_execD (by decide +kernel)⟩
  have hstep : SlackService.system.step beforeDrained (.drain () false) t :=
    System.step_execD (by decide +kernel)
  have hreturned : (match t.drains () with | .returned => true | _ => false) = true := by
    decide +kernel
  have hdrain : t.drains () = .returned := by
    cases hpc : t.drains () <;> rw [hpc] at hreturned <;> first | rfl | cases hreturned
  obtain ⟨first, hfirst, hreported⟩ := drain_settles hs hstep hdrain false (by decide +kernel)
  obtain ⟨second, hsecond, hquiet⟩ := drain_settles hs hstep hdrain true (by decide +kernel)
  have hraised : t.tasks false = .ended .raised := by decide +kernel
  have hfine : t.tasks true = .ended .returned := by decide +kernel
  cases hfirst.symm.trans hraised
  cases hsecond.symm.trans hfine
  exact ⟨hreported, hquiet⟩

section

variable {ι δ κ : Type} [DecidableEq ι] [DecidableEq δ] [DecidableEq κ]
  {s t u : SlackService ι δ κ} {a : ServiceEvent ι δ κ} {k : κ}

/-- The `stop` call is past its snapshot: the tasks that were `accepted` by then have ended, or are
among those that it gathers. -/
def Awaits (accepted : ι → Prop) (k : κ) (s : SlackService ι δ κ) : Prop :=
  match s.stops k with
  | .starting | .closing => False
  | .gathering tasks _ => ∀ i, accepted i → i ∈ tasks ∨ (s.tasks i).isDone = true
  | .returned => ∀ i, accepted i → (s.tasks i).isDone = true
  | .raised => True

variable {accepted : ι → Prop}

omit [DecidableEq ι] [DecidableEq δ] [DecidableEq κ] in
theorem Awaits.mono (h : Awaits accepted k s) (hstops : t.stops k = s.stops k)
    (htasks : ∀ i, (s.tasks i).Follows (t.tasks i)) : Awaits accepted k t := by
  unfold Awaits at h ⊢
  rw [hstops]
  cases hpc : s.stops k with
  | starting | closing => rwa [hpc] at h
  | raised => trivial
  | returned =>
    rw [hpc] at h
    exact fun i hi => (htasks i).isDone (h i hi)
  | gathering tasks cancelled =>
    rw [hpc] at h
    exact fun i hi => (h i hi).imp_right (htasks i).isDone

omit [DecidableEq δ] in
theorem Awaits.of_cancelBackground (hkept : Kept s) :
    Awaits (fun i => s.tasks i ≠ .absent) k (s.cancelBackground k) := by
  -- What has left the set has ended.
  have hleft : ∀ i, s.tasks i ≠ .absent → i ∈ s.background ∨ (s.tasks i).isDone = true := by
    intro i hi
    cases htask : s.tasks i with
    | absent => exact absurd htask hi
    | running cancelling => exact .inl (hkept.running i (by rw [htask]; rfl))
    | ended outcome => exact .inr rfl
  have hdone : ∀ i, ((s.cancelBackground k).tasks i).isDone = (s.tasks i).isDone := fun i =>
    AsyncTask.isDone_cancelAll ..
  have hstops : (s.cancelBackground k).stops k =
      if s.background = ∅ then .returned else .gathering s.background false :=
    Function.update_self ..
  unfold Awaits
  rw [hstops]
  split_ifs with hempty
  · intro i hi
    rw [hdone]
    exact (hleft i hi).resolve_left (by simp [hempty])
  · intro i hi
    rw [hdone]
    exact hleft i hi

/-- Only a `stop` call itself goes on. -/
theorem next_stops (hnext : s.next a = some t) (ha : ∀ raises, a ≠ .stop k raises) :
    t.stops k = s.stops k := by
  cases a with
  | build =>
    cases hnext
    rfl
  | accept i event =>
    simp only [SlackService.next, SlackService.acceptEvent] at hnext
    split_ifs at hnext <;> cases hnext <;> rfl
  | ends i outcome | finish i =>
    simp only [SlackService.next] at hnext
    split_ifs at hnext
    cases hnext
    rfl
  | drain d raises =>
    simp only [SlackService.next, SlackService.drainNext] at hnext
    split at hnext
    · split_ifs at hnext
      cases hnext
      rfl
    · split_ifs at hnext <;> cases hnext <;> rfl
    all_goals cases hnext
  | stop j raises =>
    have hjk : k ≠ j := by
      rintro rfl
      exact ha raises rfl
    simp only [SlackService.next, SlackService.stopNext] at hnext
    split at hnext
    · split_ifs at hnext <;> cases hnext <;> exact Function.update_of_ne hjk ..
    · split_ifs at hnext <;> cases hnext <;> exact Function.update_of_ne hjk ..
    · split_ifs at hnext <;> cases hnext <;> exact Function.update_of_ne hjk ..
    all_goals cases hnext

theorem Awaits.step (h : Awaits accepted k s) (hnext : s.next a = some t) :
    Awaits accepted k t := by
  have hfollows := (next_taskStep hnext).follows
  by_cases ha : ∀ raises, a ≠ .stop k raises
  · exact h.mono (next_stops hnext ha) hfollows
  · obtain ⟨raises, rfl⟩ := not_forall_not.1 ha
    unfold Awaits at h
    have hstop : s.stopNext k raises = some t := hnext
    simp only [SlackService.stopNext] at hstop
    cases hpc : s.stops k with
    | starting | closing => simp [hpc] at h
    | returned | raised =>
      rw [hpc] at hstop
      cases hstop
    | gathering tasks cancelled =>
      rw [hpc] at h hstop
      dsimp only at h hstop
      split_ifs at hstop with hraises hdone hcancelled
      all_goals
        cases hstop
        simp only [Awaits, Function.update_self]
      · exact fun i hi => (h i hi).imp_right (hfollows i).isDone
      · exact fun i hi => (h i hi).elim (hdone i) id

/-- Once a `stop` call has closed the connection it waits for what was accepted before. -/
theorem stop_awaits {as : List (ServiceEvent ι δ κ)}
    (hs : (SlackService.system : System (SlackService ι δ κ) _).Reachable s)
    (hclosed : s.stops k = .closing ∨ s.stops k = .starting ∧ s.built = false)
    (hstep : SlackService.system.step s (.stop k false) t)
    (hrun : SlackService.system.Run t as u) : Awaits (fun i => s.tasks i ≠ .absent) k u := by
  have hsnapshot : t = s.cancelBackground k := by
    have hnext : s.stopNext k false = some t := hstep
    simp only [SlackService.stopNext] at hnext
    rcases hclosed with hpc | ⟨hpc, hbuilt⟩
    · rw [hpc] at hnext
      simpa using hnext.symm
    · rw [hpc] at hnext
      simpa [hbuilt] using hnext.symm
  refine hrun.keeps (fun _ _ _ h hstep => h.step hstep) ?_
  rw [hsnapshot]
  exact .of_cancelBackground (reachable_kept hs)

/-- When `stop` has returned, every task that was accepted before the connection was closed has
ended. -/
theorem stop_settles {as : List (ServiceEvent ι δ κ)}
    (hs : (SlackService.system : System (SlackService ι δ κ) _).Reachable s)
    (hclosed : s.stops k = .closing ∨ s.stops k = .starting ∧ s.built = false)
    (hstep : SlackService.system.step s (.stop k false) t)
    (hrun : SlackService.system.Run t as u) (hreturned : u.stops k = .returned) :
    ∀ i, s.tasks i ≠ .absent → (u.tasks i).isDone = true := by
  have hawaits := stop_awaits hs hclosed hstep hrun
  rw [Awaits, hreturned] at hawaits
  exact hawaits

end

namespace Sample

/-- An event is accepted, and the connection is about to be closed. -/
def closing : List (ServiceEvent Bool Unit Unit) :=
  [.build, .accept false mention, .stop () false]

def beforeClosed : SlackService Bool Unit Unit :=
  System.execD SlackService.next idleService closing

end Sample

open Sample in
theorem stop_settles_sample :
    let t := System.execD SlackService.next beforeClosed [.stop () false]
    let u := System.execD SlackService.next t [.ends false .cancelled, .stop () false]
    (u.tasks false).isDone = true := by
  intro t u
  have hs : SlackService.system.Reachable beforeClosed :=
    ⟨idleService, closing, ⟨fun _ => rfl, rfl, fun _ => rfl, fun _ => rfl, fun _ => rfl⟩,
      System.run_execD (by decide +kernel)⟩
  have hstep : SlackService.system.step beforeClosed (.stop () false) t :=
    System.step_execD (by decide +kernel)
  have hrun : SlackService.system.Run t [.ends false .cancelled, .stop () false] u :=
    System.run_execD (by decide +kernel)
  exact stop_settles hs (.inl rfl) hstep hrun rfl false (by decide +kernel)

end AIHub
