import AIHub.Orchestrator.Service

/-!
# The polling loop and its wake event

`run_forever` as a program that stops at its awaits, beside `enqueue_task` calls that set the wake
event. The queue is listed in a thread of its own, so the answer may be there for a while before the
loop goes on. The loop clears the event when `run_once` is over, and then waits for it in a task
that is yet to start.

* `wake_kept`: where no `enqueue_task` call falls between a listing and the clear, the event is set
  throughout every wait with an `enqueue_task` call after the latest listing.
* `wake_lost`: the call comes while the tasks of the listing are processed; the event is cleared,
  and the loop waits.
-/

namespace AIHub.RunForever

open Transition

/-! ## The loop -/

/-- A task that waits for an event. -/
inductive WaitPc where
  | created
  | blocked
  | finished
  deriving DecidableEq

/-- Where `run_forever` stands. -/
inductive LoopPc where
  | reconciling
  /-- Inside `run_once`; the queue is yet to be listed. -/
  | listing
  /-- The queue has been listed, if nothing has raised. -/
  | listed (tasks : Option (List TaskId))
  /-- Inside `run_once`; the tasks are processed. -/
  | processing
  | waiting (wake stop : WaitPc)
  /-- The pending waits have been cancelled. -/
  | gathering
  | returned
  | raised
  deriving DecidableEq

/-- What an await of the loop comes to. -/
structure LoopChoice where
  /-- The loop is cancelled. -/
  interrupted : Bool := false
  raises : Bool := false
  timesOut : Bool := false

structure LoopState where
  pc : LoopPc
  wake : Bool
  stop : Bool
  deriving DecidableEq

inductive LoopLabel where
  | loop (c : LoopChoice)
  /-- The store lists the queue. -/
  | list (tasks : Option (List TaskId))
  /-- The task of `self._wake.wait()` runs. -/
  | wakeTask
  /-- The task of `stop.wait()` runs. -/
  | stopTask
  | enqueue (taskId : TaskId)
  | stop

/-- `Event.wait`. -/
def WaitPc.next (isSet : Bool) : WaitPc → Option WaitPc
  | created => some (if isSet then finished else blocked)
  | blocked => if isSet then some finished else none
  | finished => none

/-- Any task wakes the loop. -/
def enqueueTask (_taskId : TaskId) (s : LoopState) : LoopState := { s with wake := true }

/-- The head of the loop. -/
def LoopState.again (s : LoopState) : LoopState :=
  { s with pc := if s.stop then .returned else .listing }

/-- What follows `run_once`, however it has ended. -/
def LoopState.startWait (s : LoopState) : LoopState :=
  { s with wake := false, pc := .waiting .created .created }

/-- Take `run_forever` past one await. -/
def loopNext (c : LoopChoice) (s : LoopState) : Option LoopState :=
  match s.pc with
  | .reconciling => some (if c.interrupted || c.raises then { s with pc := .raised } else s.again)
  | .listing => if c.interrupted then some { s with pc := .raised } else none
  | .listed tasks =>
    if c.interrupted then some { s with pc := .raised }
    else match tasks with
      | none | some [] => some s.startWait
      | some (_ :: _) => some { s with pc := .processing }
  -- An exception that is no cancellation is logged.
  | .processing => some (if c.interrupted then { s with pc := .raised } else s.startWait)
  | .waiting wake stop =>
    if c.interrupted then some { s with pc := .raised }
    else if c.timesOut ∨ wake = .finished ∨ stop = .finished then some { s with pc := .gathering }
    else none
  | .gathering => some (if c.interrupted then { s with pc := .raised } else s.again)
  | .returned | .raised => none

def next (s : LoopState) : LoopLabel → Option LoopState
  | .loop c => loopNext c s
  | .list tasks =>
    match s.pc with
    | .listing => some { s with pc := .listed tasks }
    | _ => none
  | .wakeTask =>
    match s.pc with
    | .waiting wake stop => (wake.next s.wake).map fun wake => { s with pc := .waiting wake stop }
    | _ => none
  | .stopTask =>
    match s.pc with
    | .waiting wake stop => (stop.next s.stop).map fun stop => { s with pc := .waiting wake stop }
    | _ => none
  | .enqueue taskId => some (enqueueTask taskId s)
  | .stop => some { s with stop := true }

/-- `run_forever` has just been called. -/
def Initial (s : LoopState) : Prop := s.pc = .reconciling

def system : System LoopState LoopLabel := .ofNext Initial next

/-! ## What is kept -/

/-- The loop waits for the wake event. -/
def LoopPc.isWaiting : LoopPc → Bool
  | waiting .. => true
  | _ => false

/-- Between the listing and the clear. -/
def LoopPc.hasListed : LoopPc → Bool
  | listed _ | processing => true
  | _ => false

def LoopLabel.isList : LoopLabel → Bool
  | list _ => true
  | _ => false

def LoopLabel.isEnqueue : LoopLabel → Bool
  | enqueue _ => true
  | _ => false

/-- There has been an `enqueue_task` call since the latest listing. -/
def EnqueuedSinceListing (as : List LoopLabel) : Prop :=
  ∃ bs tasks cs, as = bs ++ .list tasks :: cs ∧ (∀ a ∈ cs, a.isList = false) ∧
    ∃ a ∈ cs, a.isEnqueue = true

/-- An `enqueue_task` call while the loop has a listing that it is not done with. -/
def Overtakes (s : LoopState) (a : LoopLabel) : Prop := a.isEnqueue = true ∧ s.pc.hasListed = true

instance (s : LoopState) (a : LoopLabel) : Decidable (Overtakes s a) :=
  inferInstanceAs (Decidable (_ ∧ _))

/-- The runs in which no `enqueue_task` call falls between a listing and the clear. -/
def unhurried : System LoopState LoopLabel := system.guard fun s a => ¬ Overtakes s a

variable {s t : LoopState} {a : LoopLabel} {as : List LoopLabel}

/-- Outside `run_once` nothing clears the event, and only a listing leads back. -/
theorem next_wake (hpc : s.pc.hasListed = false) (ha : a.isList = false)
    (h : next s a = some t) :
    t.pc.hasListed = false ∧ (s.wake = true ∨ a.isEnqueue = true → t.wake = true) := by
  cases a with
  | loop c =>
    have hkeeps : ∀ pc : LoopPc, pc.hasListed = false →
        ({ s with pc } : LoopState).pc.hasListed = false ∧
          (s.wake = true ∨ (LoopLabel.loop c).isEnqueue = true → s.wake = true) :=
      fun pc hpc => ⟨hpc, fun hwake => hwake.resolve_right Bool.false_ne_true⟩
    simp only [next, loopNext] at h
    cases hs : s.pc with
    | listed tasks | processing =>
      rw [hs] at hpc
      cases hpc
    | reconciling | gathering =>
      rw [hs] at h
      cases h
      split
      · exact hkeeps _ rfl
      · refine hkeeps _ ?_
        split <;> rfl
    | listing | waiting wake stop =>
      rw [hs] at h
      simp only at h
      split_ifs at h <;> cases h <;> exact hkeeps _ rfl
    | returned | raised =>
      rw [hs] at h
      cases h
  | list tasks => cases ha
  | wakeTask | stopTask =>
    simp only [next] at h
    split at h
    · obtain ⟨pc, _, rfl⟩ := Option.map_eq_some_iff.1 h
      exact ⟨rfl, fun hwake => hwake.resolve_right Bool.false_ne_true⟩
    · cases h
  | enqueue taskId =>
    cases h
    exact ⟨hpc, fun _ => rfl⟩
  | stop =>
    cases h
    exact ⟨hpc, fun hwake => hwake.resolve_right Bool.false_ne_true⟩

/-- From then on until the next listing the event stays set. -/
theorem run_wake (hr : system.Run s as t) (hlist : ∀ a ∈ as, a.isList = false)
    (hpc : s.pc.hasListed = false) (hset : s.wake = true ∨ ∃ a ∈ as, a.isEnqueue = true) :
    t.wake = true := by
  induction hr with
  | nil s => simpa using hset
  | @cons s v t a as hst hr ih =>
    obtain ⟨hpc', hwake⟩ := next_wake hpc (hlist a List.mem_cons_self) hst
    refine ih (fun b hb => hlist b (List.mem_cons_of_mem a hb)) hpc' ?_
    rcases hset with hset | ⟨b, hb, henqueue⟩
    · exact .inl (hwake (.inl hset))
    · rcases List.mem_cons.1 hb with rfl | hb
      · exact .inl (hwake (.inr henqueue))
      · exact .inr ⟨b, hb, henqueue⟩

/-- Of the calls since the listing, all come after the clear. -/
theorem unhurried_wake (hr : unhurried.Run s as t) (hlist : ∀ a ∈ as, a.isList = false)
    (hpc : t.pc.hasListed = false) (hset : ∃ a ∈ as, a.isEnqueue = true) : t.wake = true := by
  induction hr with
  | nil s =>
    obtain ⟨a, ha, _⟩ := hset
    cases ha
  | @cons s v t a as hst hr ih =>
    by_cases hs : s.pc.hasListed = true
    · refine ih (fun b hb => hlist b (List.mem_cons_of_mem a hb)) hpc ?_
      obtain ⟨b, hb, henqueue⟩ := hset
      rcases List.mem_cons.1 hb with rfl | hb
      · exact absurd ⟨henqueue, hs⟩ hst.1
      · exact ⟨b, hb, henqueue⟩
    · exact run_wake (System.Run.of_guard (.cons hst hr)) hlist (Bool.eq_false_iff.2 hs) (.inr hset)

/-- Whenever the loop waits, and there has been an `enqueue_task` call since the latest listing, the
wake event is set. -/
theorem wake_kept (hr : unhurried.Run s as t) (hwaits : t.pc.isWaiting = true)
    (hset : EnqueuedSinceListing as) : t.wake = true := by
  obtain ⟨bs, tasks, cs, rfl, hlist, hset⟩ := hset
  have hsplit : unhurried.Run s ((bs ++ [.list tasks]) ++ cs) t := by simpa using hr
  obtain ⟨u, -, hcs⟩ := hsplit.split
  refine unhurried_wake hcs hlist ?_ hset
  cases hpc : t.pc with
  | waiting wake stop => rfl
  | _ =>
    rw [hpc] at hwaits
    cases hwaits

/-! ## A wake-up that is lost -/

namespace Sample

def called : LoopState where
  pc := .reconciling
  wake := false
  stop := false

def otherId : TaskId := ⟨"TASK-2", by decide⟩

/-- The queue is empty, and a task is enqueued when the loop has begun to wait. -/
def woken : List LoopLabel := [.loop {}, .list (some []), .loop {}, .enqueue otherId, .wakeTask]

/-- A task is enqueued while the one that was listed is processed. -/
def overtaken : List LoopLabel :=
  [.loop {}, .list (some [AIHub.Sample.taskId]), .loop {}, .enqueue otherId, .loop {}]

end Sample

open Sample in
theorem wake_kept_sample : (System.execD next called woken).wake = true := by
  have hexec : System.exec (System.guardNext (fun s a => ¬ Overtakes s a) next) called woken =
      some (System.execD next called woken) := by
    decide +kernel
  have hr : unhurried.Run called woken (System.execD next called woken) := by
    rw [unhurried, system, System.ofNext_guard]
    exact System.run_of_exec hexec
  exact wake_kept hr rfl ⟨[.loop {}], some [], [.loop {}, .enqueue otherId, .wakeTask], rfl,
    by decide, .enqueue otherId, by simp, rfl⟩

open Sample in
/-- The second task is enqueued after the listing, and the loop waits with a cleared event. -/
theorem wake_lost : ¬ ∀ (s t : LoopState) (as : List LoopLabel), Initial s →
    system.Run s as t → t.pc.isWaiting = true → EnqueuedSinceListing as → t.wake = true := by
  intro h
  have hwake := h called (System.execD next called overtaken) overtaken rfl
    (System.run_execD (by decide +kernel)) rfl
    ⟨[.loop {}], some [AIHub.Sample.taskId], [.loop {}, .enqueue otherId, .loop {}], rfl, by decide,
      .enqueue otherId, by simp, rfl⟩
  exact absurd hwake (by decide +kernel)

end AIHub.RunForever
