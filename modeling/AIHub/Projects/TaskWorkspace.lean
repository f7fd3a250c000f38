import AIHub.Locks.Release
import AIHub.Orchestrator.Service
import AIHub.Projects.Manager

/-!
# The workspace of a task

`ProjectExecutionAdapter.open_task_workspace`: a coroutine that awaits three calls in worker
threads, `lock.acquire`, `create_task_branch` and `lock.release`, while other instances use the
lock path. A cancelled await drops a call that no thread has taken, and leaves one that runs to
itself; `acquired` is set only once the coroutine has the result of `lock.acquire`.

**The invariant** (`WorkspaceState.Inv`). Where the coroutine stands says how far each call is,
and with it where the lock instance stands.

* `leaves_nothing`: as long as no await is cancelled at a bad moment (`CancelsInTime`), an
  execution that has left the context and has no call running has left no lock file, and no Git
  step has run after the release.
* `cancelled_mid_call`: a cancellation while `lock.acquire` runs leaves its file behind, and one
  while `create_task_branch` runs releases the lock under it.
-/

namespace AIHub

open Transition

/-! ## The coroutine -/

/-- What leaves the context. -/
inductive WorkspaceError where
  /-- `ProjectPreparationBlocked`. -/
  | blocked (message : String)
  /-- `ProjectPreparationError`. -/
  | preparation (message : String)
  | lock (e : LockError)
  | project (e : ProjectError)
  /-- An exception of the body. -/
  | body
  | cancelled
  deriving DecidableEq

/-- The first `except` clause. -/
def WorkspaceError.ofLock : LockError → WorkspaceError
  | .timeout _ => .blocked "project is locked by another task"
  | e => .lock e

/-- The other two. -/
def WorkspaceError.ofProject : ProjectError → WorkspaceError
  | .branchCollision _ | .dirtyWorkingTree _ => .blocked "project requires operator review"
  | .notFound _ | .unsafeWorkspace _ | .repositoryOrigin _ | .gitCommand _ _ _ =>
    .preparation "project workspace preparation failed"
  | e => .project e

inductive WorkspacePc where
  /-- It awaits `lock.acquire`. -/
  | acquiring
  /-- `acquired` is set, and it awaits `create_task_branch`. -/
  | preparing
  | body (workspace : PreparedWorkspace)
  /-- The `finally` clause awaits `lock.release`, with the exception that it will go on with. -/
  | releasing (pending : Option WorkspaceError)
  | left (raised : Option WorkspaceError)
  deriving DecidableEq

/-- What an execution does to the world, in order. -/
inductive WorkspaceEvent where
  /-- A Git process of `create_task_branch` has ended. -/
  | git (arguments : List String)
  /-- `lock.release` has removed the lock file. -/
  | released
  deriving DecidableEq

structure WorkspaceState (ι : Type) where
  lock : LockState ι
  pc : WorkspacePc := .acquiring
  acquire : Call Unit (Except LockError LockMetadata) := .queued
  branch : Call (WorkspaceProgram (Except ProjectError TaskBranch))
    (Except ProjectError TaskBranch) := .unsubmitted
  release : Call Unit (Except LockError Unit) := .unsubmitted
  log : List WorkspaceEvent := []

/-- The result of an `acquire` call, once it has one. -/
def LockPc.acquireResult : LockPc → Option (Except LockError LockMetadata)
  | held m _ _ => some (.ok m)
  | idle (some e) => some (.error e)
  | _ => none

/-- The result of a `release` call, once it has one. -/
def LockPc.releaseResult : LockPc → Option (Except LockError Unit)
  | idle _ => some (.ok ())
  | held _ _ (some e) => some (.error e)
  | _ => none

inductive WorkerThread where
  | acquire | branch | release
  deriving DecidableEq

inductive WorkspaceStep (ι : Type) where
  /-- A step at the lock path: of another instance, or of a call of this execution. -/
  | lock (i : ι) (a : LockStep)
  /-- A thread takes a queued call. -/
  | start (thread : WorkerThread)
  /-- `create_task_branch` gets its next answer. -/
  | answer (reply : ∀ o : WorkspaceOp, o.Answer)
  /-- The coroutine gets the result of the call it awaits. -/
  | resume
  /-- The body ends, normally or with an exception. -/
  | leaveBody (raised : Option WorkspaceError)
  /-- A cancellation is delivered at the await. -/
  | cancel

/-- The arguments of a call, with all instances of the project's lock. -/
structure WorkspaceCall (ι : Type) where
  manager : ProjectWorkspaceManager
  nfkdAscii : String → String
  locks : ι → ProjectFileLock
  /-- Its own instance, made for `project_id` and `task_id`. -/
  own : ι
  description : String

namespace WorkspaceOp

/-- What the end of a request puts into the log. -/
def events : WorkspaceOp → List WorkspaceEvent
  | git arguments _ => [.git arguments]
  | _ => []

end WorkspaceOp

/-- A step in the middle of a call of this execution. -/
def LockStep.inCall : LockStep → Bool
  | acquire | release | crash => false
  | _ => true

/-- No cancellation is delivered at the await of `lock.acquire` once a thread has taken that call,
unless it has raised; of `create_task_branch` while it runs; or of `lock.release` before a thread
has taken it. -/
def cancelsInTime {ι : Type} (s : WorkspaceState ι) : WorkspaceStep ι → Bool
  | .cancel =>
    match s.pc with
    | .acquiring =>
      match s.acquire with
      | .queued | .finished (.error _) => true
      | _ => false
    | .preparing =>
      match s.branch with
      | .running _ => false
      | _ => true
    | .releasing _ => s.release ≠ .queued
    | .body _ | .left _ => true
  | _ => true

/-- The coroutine has submitted `lock.acquire` and awaits it. -/
structure WorkspaceState.Initial {ι : Type} (s : WorkspaceState ι) : Prop where
  lock : s.lock.Initial
  entered : s = { lock := s.lock }

namespace WorkspaceCall

variable {ι : Type} (w : WorkspaceCall ι)

/-- `self._manager.create_task_branch(project_id, task_id, description)`. -/
def createTaskBranch : WorkspaceProgram (Except ProjectError TaskBranch) :=
  (w.manager.createTaskBranch w.nfkdAscii (w.locks w.own).projectId (w.locks w.own).taskId
    w.description).run

variable [DecidableEq ι]

/-- A step of the worker thread that runs `lock.acquire` or `lock.release`. -/
def lockStep (s : WorkspaceState ι) (a : LockStep) : Option (WorkspaceState ι) :=
  match s.acquire, s.release with
  | .running _, _ =>
    (s.lock.next w.locks (w.own, a)).map fun lock =>
      { s with lock := lock, acquire := .settle (lock.pc w.own).acquireResult }
  | _, .running _ =>
    (s.lock.next w.locks (w.own, a)).map fun lock =>
      let release := Call.settle (lock.pc w.own).releaseResult
      { s with
        lock := lock
        release := release
        log := if release = .finished (.ok ()) then s.log ++ [.released] else s.log }
  | _, _ => none

def start (s : WorkspaceState ι) : WorkerThread → Option (WorkspaceState ι)
  | .acquire =>
    if s.acquire = .queued then
      (s.lock.next w.locks (w.own, .acquire)).map fun lock =>
        { s with lock := lock, acquire := .running () }
    else none
  | .branch =>
    match s.branch with
    | .queued => some { s with branch := .ofProgram w.createTaskBranch }
    | _ => none
  | .release =>
    if s.release = .queued then
      (s.lock.next w.locks (w.own, .release)).map fun lock =>
        { s with lock := lock, release := .running () }
    else none

def next (s : WorkspaceState ι) : WorkspaceStep ι → Option (WorkspaceState ι)
  | .lock i a =>
    if i = w.own then
      if a.inCall then w.lockStep s a else none
    else (s.lock.next w.locks (i, a)).map fun lock => { s with lock := lock }
  | .start thread => w.start s thread
  | .answer reply =>
    match s.branch with
    | .running (.ask o next) =>
      some { s with branch := .ofProgram (next (reply o)), log := s.log ++ o.events }
    | _ => none
  | .resume =>
    match s.pc with
    | .acquiring =>
      match s.acquire with
      | .finished (.ok _) => some { s with pc := .preparing, branch := .queued }
      | .finished (.error e) => some { s with pc := .left (some (.ofLock e)) }
      | _ => none
    | .preparing =>
      match s.branch with
      | .finished (.ok branch) =>
        some { s with pc := .body { path := branch.workspace.text, branch := branch.branch } }
      | .finished (.error e) =>
        some { s with pc := .releasing (some (.ofProject e)), release := .queued }
      | _ => none
    | .releasing pending =>
      match s.release with
      | .finished (.ok _) => some { s with pc := .left pending }
      | .finished (.error e) => some { s with pc := .left (some (.lock e)) }
      | _ => none
    | _ => none
  | .leaveBody raised =>
    match s.pc with
    | .body _ => some { s with pc := .releasing raised, release := .queued }
    | _ => none
  | .cancel =>
    match s.pc with
    | .acquiring => some { s with pc := .left (some .cancelled), acquire := s.acquire.cancel }
    | .preparing =>
      some { s with
        pc := .releasing (some .cancelled)
        branch := s.branch.cancel
        release := .queued }
    | .releasing _ => some { s with pc := .left (some .cancelled), release := s.release.cancel }
    | .body _ | .left _ => none

def system : System (WorkspaceState ι) (WorkspaceStep ι) :=
  System.ofNext WorkspaceState.Initial w.next

/-- The executions in which every cancellation is delivered in time. -/
def inTime : System (WorkspaceState ι) (WorkspaceStep ι) :=
  w.system.guard fun s l => cancelsInTime s l = true

end WorkspaceCall

/-! ## What a call of the lock does -/

namespace LockPc

/-- `acquire` runs. -/
def acquiring : LockPc → Bool
  | preparing | looping | writing _ _ | discarding _ _ | inspecting | reading _ | judging _
  | rereading _ _ | comparing _ | recovering _ | waiting _ => true
  | idle _ | held _ _ _ | releaseReading _ _ _ | releaseComparing _ _ _
  | releaseUnlinking _ _ => false

/-- `release` runs. -/
def releasing : LockPc → Bool
  | releaseReading _ _ _ | releaseComparing _ _ _ | releaseUnlinking _ _ => true
  | _ => false

end LockPc

section

variable {ι : Type} {i : ι} {L : ProjectFileLock} {a : LockStep} {pc pc' : LockPc}
  {d d' : LockDirectory ι}

theorem lockNext_acquiring (h : lockNext i L a pc d = some (pc', d')) (hpc : pc.acquiring = true)
    (ha : a.inCall = true) :
    pc'.acquiring = true ∨ (∃ m f, pc' = .held m f none) ∨ ∃ e, pc' = .idle (some e) := by
  revert h hpc
  fun_cases lockNext i L a pc d
  all_goals
    intro h hpc
    simp only [Option.some.injEq, Prod.mk.injEq, reduceCtorEq] at h
    try obtain ⟨rfl, rfl⟩ := h
  case case9 m f _ => exact .inr (.inl ⟨m, f, rfl⟩)
  case case4 e | case5 e => exact .inr (.inr ⟨e, rfl⟩)
  case case11 => exact .inr (.inr ⟨_, rfl⟩)
  case case26 => exact .inr (.inr ⟨_, rfl⟩)
  case case36 => cases ha
  case case12 | case17 | case21 | case22 => split <;> exact .inl rfl
  all_goals first
    | exact .inl rfl
    | cases hpc

theorem lockNext_releasing (h : lockNext i L a pc d = some (pc', d')) (hpc : pc.releasing = true)
    (ha : a.inCall = true) :
    pc'.releasing = true ∨ pc' = .idle none ∨ ∃ m f e, pc' = .held m f (some e) := by
  revert h hpc
  fun_cases lockNext i L a pc d
  all_goals
    intro h hpc
    simp only [Option.some.injEq, Prod.mk.injEq, reduceCtorEq] at h
    try obtain ⟨rfl, rfl⟩ := h
  case case29 => exact .inl rfl
  case case30 | case31 | case34 => exact .inr (.inr ⟨_, _, _, rfl⟩)
  case case32 | case33 =>
    split
    · exact .inl rfl
    · exact .inr (.inr ⟨_, _, _, rfl⟩)
  case case35 => exact .inr (.inl rfl)
  case case36 => cases ha
  all_goals cases hpc

end

/-- The context has been left, and no call that was submitted goes on. -/
structure WorkspaceState.Over {ι : Type} (s : WorkspaceState ι) : Prop where
  left : ∃ raised, s.pc = .left raised
  acquire : s.acquire.atRest = true
  branch : s.branch.atRest = true
  release : s.release.atRest = true

/-- The lock file at the path is none that the execution has created. -/
def WorkspaceCall.NoFileLeft {ι : Type} (w : WorkspaceCall ι) (s : WorkspaceState ι) : Prop :=
  ∀ f, s.lock.directory.entry = some f → (s.lock.directory.files f).creator ≠ some w.own

/-! ## The invariant -/

/-- No Git step stands after the release. -/
def GitBeforeRelease (log : List WorkspaceEvent) : Prop :=
  log.Pairwise fun e e' => e = .released → ∀ arguments, e' ≠ .git arguments

theorem GitBeforeRelease.released {log : List WorkspaceEvent} (h : GitBeforeRelease log) :
    GitBeforeRelease (log ++ [.released]) := by
  refine List.pairwise_append.2 ⟨h, List.pairwise_singleton _ _, ?_⟩
  intro e _ e' he' _ arguments
  rw [List.mem_singleton.1 he']
  exact WorkspaceEvent.noConfusion

theorem GitBeforeRelease.events {log : List WorkspaceEvent} (h : GitBeforeRelease log)
    (hlog : .released ∉ log) (o : WorkspaceOp) : GitBeforeRelease (log ++ o.events) := by
  have hsingle : GitBeforeRelease o.events := by
    cases o with
    | git arguments cwd => exact List.pairwise_singleton _ _
    | _ => exact .nil
  refine List.pairwise_append.2 ⟨h, hsingle, ?_⟩
  intro e he e' _ heq
  exact absurd (heq ▸ he) hlog

theorem WorkspaceOp.released_notMem (o : WorkspaceOp) : .released ∉ o.events := by
  cases o <;> simp [WorkspaceOp.events]

/-- Where the lock stands while `lock.acquire` is awaited. -/
def AcquirePhase (p : LockPc) : Call Unit (Except LockError LockMetadata) → Prop
  | .queued => p = .idle none
  | .running _ => p.acquiring = true
  | .finished (.ok _) => ∃ m f, p = .held m f none
  | .finished (.error _) => p.running = false
  | .unsubmitted | .dropped => False

/-- Where the lock stands once `lock.release` is submitted. -/
def ReleasePhase (p : LockPc) : Call Unit (Except LockError Unit) → Prop
  | .queued => ∃ m f, p = .held m f none
  | .running _ => p.releasing = true
  | .finished (.ok _) => p.running = false
  | .finished (.error _) => ∃ m f e, p = .held m f (some e)
  | .unsubmitted | .dropped => False

/-- How far the calls are, and where the lock stands. -/
def WorkspaceState.Phase {ι : Type} (p : LockPc) (s : WorkspaceState ι) : Prop :=
  match s.pc with
  | .acquiring =>
    s.branch = .unsubmitted ∧ s.release = .unsubmitted ∧ AcquirePhase p s.acquire
  | .preparing =>
    s.acquire.atRest = true ∧ s.release = .unsubmitted ∧ ∃ m f, p = .held m f none
  | .body _ =>
    s.acquire.atRest = true ∧ s.branch.atRest = true ∧ s.release = .unsubmitted ∧
      ∃ m f, p = .held m f none
  | .releasing _ =>
    s.acquire.atRest = true ∧ s.branch.atRest = true ∧ ReleasePhase p s.release
  | .left _ =>
    s.acquire.atRest = true ∧ s.branch.atRest = true ∧
      (s.release = .unsubmitted ∧ p.running = false ∨
        s.release ≠ .queued ∧ ReleasePhase p s.release)

namespace WorkspaceCall

variable {ι : Type} (w : WorkspaceCall ι)

structure Inv (s : WorkspaceState ι) : Prop where
  created : s.lock.Created w.locks
  tidy : s.lock.Tidy w.own
  phase : s.Phase (s.lock.pc w.own)
  released : .released ∈ s.log → s.release = .finished (.ok ())
  ordered : GitBeforeRelease s.log

variable {w} {s t : WorkspaceState ι}

theorem Inv.of_initial (h : s.Initial) : w.Inv s := by
  have hs := h.entered
  have hphase : s.Phase (s.lock.pc w.own) := by
    rw [h.lock.idle w.own, hs]
    exact ⟨rfl, rfl, rfl⟩
  have hlog : s.log = [] := by rw [hs]
  refine ⟨h.lock.created, h.lock.tidy, hphase, ?_, ?_⟩
  · rw [hlog]
    intro hmem
    cases hmem
  · rw [hlog]
    exact .nil

/-- Only while it is awaited does a call of `lock.acquire` run. -/
theorem Inv.acquiring (hs : w.Inv s) (h : s.acquire.atRest = false) :
    s.pc = .acquiring ∧ s.branch = .unsubmitted ∧ s.release = .unsubmitted ∧
      AcquirePhase (s.lock.pc w.own) s.acquire := by
  have hphase := hs.phase
  unfold WorkspaceState.Phase at hphase
  split at hphase
  · rename_i hpc
    exact ⟨hpc, hphase⟩
  all_goals
    rw [hphase.1] at h
    cases h

/-- Only while it is awaited does `create_task_branch` run. -/
theorem Inv.preparing (hs : w.Inv s) (h : s.branch.atRest = false) :
    s.pc = .preparing ∧ s.acquire.atRest = true ∧ s.release = .unsubmitted ∧
      ∃ m f, s.lock.pc w.own = .held m f none := by
  have hphase := hs.phase
  unfold WorkspaceState.Phase at hphase
  split at hphase
  · rw [hphase.1] at h
    cases h
  · rename_i hpc
    exact ⟨hpc, hphase⟩
  all_goals
    rw [hphase.2.1] at h
    cases h

/-- Once `lock.release` is submitted, the two other calls are over. -/
theorem Inv.releasing (hs : w.Inv s) (h : s.release ≠ .unsubmitted) :
    s.acquire.atRest = true ∧ s.branch.atRest = true ∧
      ReleasePhase (s.lock.pc w.own) s.release ∧
      ((∃ pending, s.pc = .releasing pending) ∨
        ∃ raised, s.pc = .left raised ∧ s.release ≠ .queued) := by
  have hphase := hs.phase
  unfold WorkspaceState.Phase at hphase
  split at hphase
  · exact absurd hphase.2.1 h
  · exact absurd hphase.2.1 h
  · exact absurd hphase.2.2.1 h
  · rename_i pending hpc
    exact ⟨hphase.1, hphase.2.1, hphase.2.2, .inl ⟨pending, hpc⟩⟩
  · rename_i raised hpc
    rcases hphase.2.2 with ⟨hnone, -⟩ | ⟨hne, hrelease⟩
    · exact absurd hnone h
    · exact ⟨hphase.1, hphase.2.1, hrelease, .inr ⟨raised, hpc, hne⟩⟩

/-- What a step away from the lock path keeps. -/
theorem Inv.of_same (hs : w.Inv s) (hlock : t.lock = s.lock)
    (hphase : t.Phase (s.lock.pc w.own))
    (hreleased : .released ∈ t.log → t.release = .finished (.ok ()))
    (hordered : GitBeforeRelease t.log) : w.Inv t :=
  ⟨hlock ▸ hs.created, hlock ▸ hs.tidy, hlock ▸ hphase, hreleased, hordered⟩

/-- Nothing is released while `lock.release` is not over. -/
theorem Inv.not_released (hs : w.Inv s) (h : s.release ≠ .finished (.ok ())) :
    .released ∉ s.log :=
  fun hmem => h (hs.released hmem)

variable [DecidableEq ι]

/-- What a step at the lock path keeps, the calls of the execution apart. -/
theorem Inv.of_lock {i : ι} {a : LockStep} {lock : LockState ι} (hs : w.Inv s)
    (h : s.lock.next w.locks (i, a) = some lock) (hcrash : i = w.own → a ≠ .crash)
    (hacquire : i = w.own → a = .acquire → (s.lock.pc w.own).running = false)
    (hlock : t.lock = lock) (hphase : t.Phase (lock.pc w.own))
    (hreleased : .released ∈ t.log → t.release = .finished (.ok ()))
    (hordered : GitBeforeRelease t.log) : w.Inv t := by
  subst hlock
  exact ⟨hs.created.step h, hs.tidy.step hs.created h hcrash hacquire, hphase, hreleased, hordered⟩

theorem Inv.other_step {i : ι} {a : LockStep} {lock : LockState ι} (hs : w.Inv s)
    (hi : i ≠ w.own) (h : s.lock.next w.locks (i, a) = some lock) :
    w.Inv { s with lock := lock } := by
  refine hs.of_lock h (fun hown => absurd hown hi) (fun hown => absurd hown hi) rfl ?_
    hs.released hs.ordered
  rw [LockState.next_pc_of_ne h (Ne.symm hi)]
  exact hs.phase

/-- A step of the thread that runs `lock.acquire`. -/
theorem Inv.acquire_step {a : LockStep} {lock : LockState ι} {u : Unit} (hs : w.Inv s)
    (hrun : s.acquire = .running u) (ha : a.inCall = true)
    (h : s.lock.next w.locks (w.own, a) = some lock) :
    w.Inv { s with lock := lock, acquire := .settle (lock.pc w.own).acquireResult } := by
  obtain ⟨hpc, hbranch, hrelease, hphase⟩ := hs.acquiring (by rw [hrun]; rfl)
  rw [hrun] at hphase
  refine hs.of_lock h ?_ ?_ rfl ?_ hs.released hs.ordered
  · rintro - rfl
    cases ha
  · rintro - rfl
    cases ha
  · rw [WorkspaceState.Phase, hpc]
    refine ⟨hbranch, hrelease, ?_⟩
    obtain ⟨-, p, d, hnext, rfl⟩ := LockState.next_ok h
    simp only [Function.update_self]
    rcases lockNext_acquiring hnext hphase ha with hp | ⟨m, f, rfl⟩ | ⟨e, rfl⟩
    · have hnone : p.acquireResult = none := by
        cases p with
        | idle | held => cases hp
        | _ => rfl
      rw [hnone]
      exact hp
    · exact ⟨m, f, rfl⟩
    · rfl

/-- A step of the thread that runs `lock.release`. -/
theorem Inv.release_step {a : LockStep} {lock : LockState ι} {u : Unit} (hs : w.Inv s)
    (hrun : s.release = .running u) (ha : a.inCall = true)
    (h : s.lock.next w.locks (w.own, a) = some lock) :
    let release := Call.settle (lock.pc w.own).releaseResult
    w.Inv { s with
      lock := lock
      release := release
      log := if release = .finished (.ok ()) then s.log ++ [.released] else s.log } := by
  intro release
  obtain ⟨hacquire, hbranch, hphase, hpc⟩ := hs.releasing (by rw [hrun]; simp)
  rw [hrun] at hphase
  have hrelease : release ≠ .queued ∧ ReleasePhase (lock.pc w.own) release := by
    obtain ⟨-, p, d, hnext, rfl⟩ := LockState.next_ok h
    simp only [release, Function.update_self]
    rcases lockNext_releasing hnext hphase ha with hp | rfl | ⟨m, f, e, rfl⟩
    · have hnone : p.releaseResult = none := by
        cases p with
        | idle | held => cases hp
        | _ => rfl
      rw [hnone]
      exact ⟨by simp [Call.settle], hp⟩
    · exact ⟨by simp [Call.settle, LockPc.releaseResult], rfl⟩
    · exact ⟨by simp [Call.settle, LockPc.releaseResult], m, f, e, rfl⟩
  refine hs.of_lock h ?_ ?_ rfl ?_ ?_ ?_
  · rintro - rfl
    cases ha
  · rintro - rfl
    cases ha
  · rcases hpc with ⟨pending, hpc⟩ | ⟨raised, hpc, -⟩
    · rw [WorkspaceState.Phase, hpc]
      exact ⟨hacquire, hbranch, hrelease.2⟩
    · rw [WorkspaceState.Phase, hpc]
      exact ⟨hacquire, hbranch, .inr hrelease⟩
  · intro hmem
    by_cases hok : release = .finished (.ok ())
    · exact hok
    · rw [if_neg hok] at hmem
      exact absurd hmem (hs.not_released (by rw [hrun]; simp))
  · by_cases hok : release = .finished (.ok ())
    · rw [if_pos hok]
      exact hs.ordered.released
    · rw [if_neg hok]
      exact hs.ordered

theorem Inv.lock_step {i : ι} {a : LockStep} (hs : w.Inv s) (h : w.next s (.lock i a) = some t) :
    w.Inv t := by
  simp only [next] at h
  split_ifs at h with hi ha
  · subst hi
    unfold lockStep at h
    split at h
    · obtain ⟨lock, hlock, rfl⟩ := Option.map_eq_some_iff.1 h
      exact hs.acquire_step ‹_› ha hlock
    · obtain ⟨lock, hlock, rfl⟩ := Option.map_eq_some_iff.1 h
      exact hs.release_step ‹_› ha hlock
    · cases h
  · obtain ⟨lock, hlock, rfl⟩ := Option.map_eq_some_iff.1 h
    exact hs.other_step hi hlock

theorem Inv.start_step {thread : WorkerThread} (hs : w.Inv s)
    (h : w.next s (.start thread) = some t) : w.Inv t := by
  simp only [next] at h
  cases thread with
  | acquire =>
    simp only [start] at h
    split_ifs at h with hqueued
    obtain ⟨lock, hlock, rfl⟩ := Option.map_eq_some_iff.1 h
    obtain ⟨hpc, hbranch, hrelease, hphase⟩ := hs.acquiring (by rw [hqueued]; rfl)
    rw [hqueued] at hphase
    have hidle : s.lock.pc w.own = .idle none := hphase
    refine hs.of_lock hlock (by simp) ?_ rfl ?_ hs.released hs.ordered
    · rintro - -
      rw [hidle]
      rfl
    · obtain ⟨-, p, d, hnext, rfl⟩ := LockState.next_ok hlock
      rw [hidle] at hnext
      cases hnext
      rw [WorkspaceState.Phase, hpc]
      exact ⟨hbranch, hrelease, by simp [AcquirePhase, LockPc.acquiring]⟩
  | branch =>
    simp only [start] at h
    split at h
    · rename_i hqueued
      cases h
      obtain ⟨hpc, hacquire, hrelease, hheld⟩ := hs.preparing (by rw [hqueued]; rfl)
      refine hs.of_same rfl ?_ hs.released hs.ordered
      rw [WorkspaceState.Phase, hpc]
      exact ⟨hacquire, hrelease, hheld⟩
    · cases h
  | release =>
    simp only [start] at h
    split_ifs at h with hqueued
    obtain ⟨lock, hlock, rfl⟩ := Option.map_eq_some_iff.1 h
    obtain ⟨hacquire, hbranch, hphase, hpc⟩ := hs.releasing (by rw [hqueued]; simp)
    rw [hqueued] at hphase
    obtain ⟨m, f, hheld⟩ := hphase
    refine hs.of_lock hlock (by simp) (by simp) rfl ?_ ?_ hs.ordered
    · obtain ⟨-, p, d, hnext, rfl⟩ := LockState.next_ok hlock
      rw [hheld] at hnext
      cases hnext
      rcases hpc with ⟨pending, hpc⟩ | ⟨raised, -, hne⟩
      · rw [WorkspaceState.Phase, hpc]
        exact ⟨hacquire, hbranch, by simp [ReleasePhase, LockPc.releasing]⟩
      · exact absurd hqueued hne
    · intro hmem
      exact absurd hmem (hs.not_released (by rw [hqueued]; simp))

theorem Inv.answer_step {reply : ∀ o : WorkspaceOp, o.Answer} (hs : w.Inv s)
    (h : w.next s (.answer reply) = some t) : w.Inv t := by
  simp only [next] at h
  split at h
  · rename_i o k hrun
    cases h
    obtain ⟨hpc, hacquire, hrelease, hheld⟩ := hs.preparing (by rw [hrun]; rfl)
    have hlog := hs.not_released (by rw [hrelease]; simp)
    refine hs.of_same rfl ?_ ?_ (hs.ordered.events hlog o)
    · rw [WorkspaceState.Phase, hpc]
      exact ⟨hacquire, hrelease, hheld⟩
    · intro hmem
      rcases List.mem_append.1 hmem with hmem | hmem
      · exact absurd hmem hlog
      · exact absurd hmem o.released_notMem
  · cases h

theorem Inv.resume_step (hs : w.Inv s) (h : w.next s .resume = some t) : w.Inv t := by
  have hphase := hs.phase
  simp only [next] at h
  cases hpc : s.pc with
  | acquiring =>
    rw [hpc] at h
    rw [WorkspaceState.Phase, hpc] at hphase
    obtain ⟨hbranch, hrelease, hacquire⟩ := hphase
    simp only at h
    split at h
    · rename_i m hok
      cases h
      rw [hok] at hacquire
      exact hs.of_same rfl ⟨by rw [hok]; rfl, hrelease, hacquire⟩ hs.released hs.ordered
    · rename_i e herror
      cases h
      rw [herror] at hacquire
      exact hs.of_same rfl
        ⟨by rw [herror]; rfl, by rw [hbranch]; rfl, .inl ⟨hrelease, hacquire⟩⟩
        hs.released hs.ordered
    · cases h
  | preparing =>
    rw [hpc] at h
    rw [WorkspaceState.Phase, hpc] at hphase
    obtain ⟨hacquire, hrelease, hheld⟩ := hphase
    simp only at h
    split at h
    · rename_i branch hok
      cases h
      exact hs.of_same rfl ⟨hacquire, by rw [hok]; rfl, hrelease, hheld⟩ hs.released hs.ordered
    · rename_i e herror
      cases h
      refine hs.of_same rfl ⟨hacquire, by rw [herror]; rfl, hheld⟩ ?_ hs.ordered
      exact fun hmem => absurd hmem (hs.not_released (by rw [hrelease]; simp))
    · cases h
  | releasing pending =>
    rw [hpc] at h
    rw [WorkspaceState.Phase, hpc] at hphase
    obtain ⟨hacquire, hbranch, hrelease⟩ := hphase
    simp only at h
    split at h
    · rename_i u hok
      cases h
      exact hs.of_same rfl ⟨hacquire, hbranch, .inr ⟨by rw [hok]; simp, hrelease⟩⟩
        hs.released hs.ordered
    · rename_i e herror
      cases h
      exact hs.of_same rfl ⟨hacquire, hbranch, .inr ⟨by rw [herror]; simp, hrelease⟩⟩
        hs.released hs.ordered
    · cases h
  | body | left =>
    rw [hpc] at h
    cases h

theorem Inv.leaveBody_step {raised : Option WorkspaceError} (hs : w.Inv s)
    (h : w.next s (.leaveBody raised) = some t) : w.Inv t := by
  have hphase := hs.phase
  simp only [next] at h
  split at h
  · rename_i workspace hpc
    cases h
    rw [WorkspaceState.Phase, hpc] at hphase
    obtain ⟨hacquire, hbranch, hrelease, hheld⟩ := hphase
    refine hs.of_same rfl ⟨hacquire, hbranch, hheld⟩ ?_ hs.ordered
    exact fun hmem => absurd hmem (hs.not_released (by rw [hrelease]; simp))
  · cases h

/-- A cancellation in time leaves no call to itself that the lock depends on. -/
theorem Inv.cancel_step (hs : w.Inv s) (htime : cancelsInTime s .cancel = true)
    (h : w.next s .cancel = some t) : w.Inv t := by
  have hphase := hs.phase
  simp only [next] at h
  simp only [cancelsInTime] at htime
  cases hpc : s.pc with
  | acquiring =>
    rw [hpc] at h htime
    rw [WorkspaceState.Phase, hpc] at hphase
    obtain ⟨hbranch, hrelease, hacquire⟩ := hphase
    cases h
    have hover : s.acquire.cancel.atRest = true ∧ (s.lock.pc w.own).running = false := by
      cases hcall : s.acquire with
      | queued =>
        rw [hcall] at hacquire
        have hidle : s.lock.pc w.own = .idle none := hacquire
        exact ⟨rfl, by rw [hidle]; rfl⟩
      | finished r =>
        rw [hcall] at hacquire htime
        cases r with
        | ok m => cases htime
        | error e => exact ⟨rfl, hacquire⟩
      | running | unsubmitted | dropped =>
        rw [hcall] at htime
        cases htime
    exact hs.of_same rfl ⟨hover.1, by rw [hbranch]; rfl, .inl ⟨hrelease, hover.2⟩⟩
      hs.released hs.ordered
  | preparing =>
    rw [hpc] at h htime
    rw [WorkspaceState.Phase, hpc] at hphase
    obtain ⟨hacquire, hrelease, hheld⟩ := hphase
    cases h
    have hover : s.branch.cancel.atRest = true := by
      refine Call.atRest_cancel fun p hp => ?_
      rw [hp] at htime
      cases htime
    refine hs.of_same rfl ⟨hacquire, hover, hheld⟩ ?_ hs.ordered
    exact fun hmem => absurd hmem (hs.not_released (by rw [hrelease]; simp))
  | releasing pending =>
    rw [hpc] at h htime
    rw [WorkspaceState.Phase, hpc] at hphase
    obtain ⟨hacquire, hbranch, hrelease⟩ := hphase
    cases h
    have hne : s.release ≠ .queued := by simpa using htime
    have hkeeps : s.release.cancel = s.release := by
      cases hcall : s.release with
      | queued => exact absurd hcall hne
      | _ => rfl
    refine hs.of_same rfl ⟨hacquire, hbranch, .inr ?_⟩ ?_ hs.ordered
    · simp only [hkeeps]
      exact ⟨hne, hrelease⟩
    · simp only [hkeeps]
      exact hs.released
  | body | left =>
    rw [hpc] at h
    cases h

theorem Inv.step {l : WorkspaceStep ι} (hs : w.Inv s) (htime : cancelsInTime s l = true)
    (h : w.next s l = some t) : w.Inv t := by
  cases l with
  | lock i a => exact hs.lock_step h
  | start thread => exact hs.start_step h
  | answer reply => exact hs.answer_step h
  | resume => exact hs.resume_step h
  | leaveBody raised => exact hs.leaveBody_step h
  | cancel => exact hs.cancel_step htime h

theorem Inv.reachable (h : w.inTime.Reachable s) : w.Inv s := by
  have hinv : w.inTime.Invariant w.Inv := {
    init := fun s hs => .of_initial hs
    step := fun s l t hs ⟨htime, hst⟩ => hs.step htime hst }
  exact hinv.reachable h

/-! ## What an execution leaves behind -/

/-- Unless a cancellation is delivered at a bad moment, an execution that is over has left no lock
file, and no Git step has run after the release of the lock. -/
theorem leaves_nothing (h : w.inTime.Reachable s) :
    (s.Over → w.NoFileLeft s) ∧ GitBeforeRelease s.log := by
  have hs := Inv.reachable h
  refine ⟨?_, hs.ordered⟩
  rintro ⟨⟨raised, hpc⟩, -, -, hrest⟩ f hf
  have hphase := hs.phase
  rw [WorkspaceState.Phase, hpc] at hphase
  refine hs.tidy.absent ?_ hf
  rcases hphase.2.2 with ⟨-, hidle⟩ | ⟨-, hrelease⟩
  · exact .inl hidle
  · cases hcall : s.release with
    | finished r =>
      rw [hcall] at hrelease
      cases r with
      | ok => exact .inl hrelease
      | error e => exact .inr hrelease
    | unsubmitted | dropped =>
      rw [hcall] at hrelease
      cases hrelease
    | queued | running =>
      rw [hcall] at hrest
      cases hrest

end WorkspaceCall

namespace Sample

def website : List String := ["srv", "hub", "projects", "website"]

def manager : ProjectWorkspaceManager where
  repositoryRoot := ["srv", "hub"]
  workspaceRoot := ["srv", "hub", "projects"]
  projects projectId :=
    if projectId = "website" then some ⟨"ssh://git/website", "projects/website", some "main"⟩
    else none

/-- The call for one task, with no other instance of the lock. -/
def openWorkspace : WorkspaceCall Unit where
  manager := manager
  nfkdAscii := id
  locks _ := firstLock
  own := ()
  description := "Fix the login"

/-- There is no lock file. -/
def entered : WorkspaceState Unit where
  lock := {
    directory := { files := fun _ => ⟨false, ⟨0, 0, 0, 0⟩, none, none⟩, count := 0, entry := none }
    pc := fun _ => .idle none
    tokens := [] }

theorem entered_initial : entered.Initial where
  lock := {
    idle := fun _ => rfl
    entry := fun _ hf => by cases hf
    unused := fun _ _ => rfl
    creator := fun _ => rfl
    tokens := fun _ _ hm => by cases hm }
  entered := rfl

/-- A clean checkout without the branch. -/
def checkout : ∀ o : WorkspaceOp, o.Answer
  | .resolve _ _ => .ok website
  | .pathExists _ => true
  | .isSymlink _ => false
  | .isDir _ => true
  | .mkdir _ => .ok ()
  | .git ["rev-parse", _] _ => .ok ⟨0, "/srv/hub/projects/website\n", ""⟩
  | .git ["remote", _, _] _ => .ok ⟨0, "ssh://git/website\n", ""⟩
  | .git ["symbolic-ref", _, _, _] _ => .ok ⟨0, "main\n", ""⟩
  | .git ["show-ref", _, _, "refs/heads/agent/TASK-1-fix-the-login"] _ => .ok ⟨1, "", ""⟩
  | .git _ _ => .ok ⟨0, "", ""⟩

/-- The steps of `lock.acquire` where there is no lock file. -/
def acquires : List (WorkspaceStep Unit) :=
  [.lock () .prepare, .lock () (.create "2026-01-01T00:00:00.000000Z" "k1" ⟨1, 1, 0, 0⟩),
    .lock () (.write .complete ⟨1, 1, 150, 1⟩)]

/-- The steps of `lock.release`. -/
def releases : List (WorkspaceStep Unit) :=
  [.start .release, .lock () .read, .lock () .read, .lock () .read, .lock () .read,
    .lock () .compare, .lock () .unlink]

/-- `create_task_branch` gets `n` answers. -/
def answers (n : Nat) : List (WorkspaceStep Unit) := List.replicate n (.answer checkout)

end Sample

open Sample in
/-- The branch is made, the body ends, and the lock is released. -/
theorem WorkspaceCall.leaves_nothing_sample :
    let next := System.guardNext (fun s l => cancelsInTime s l = true) openWorkspace.next
    let s := System.execD next entered
      (.start .acquire :: acquires ++ [.resume, .start .branch] ++ answers 15 ++
        [.resume, .leaveBody none] ++ releases ++ [.resume])
    s.pc = .left none ∧ (s.Over → openWorkspace.NoFileLeft s) ∧ GitBeforeRelease s.log := by
  intro next s
  have hM : openWorkspace.inTime = System.ofNext WorkspaceState.Initial next :=
    System.ofNext_guard
  have hr : openWorkspace.inTime.Reachable s := by
    rw [hM]
    exact ⟨entered, _, entered_initial, System.run_execD (by decide +kernel)⟩
  exact ⟨by decide +kernel, leaves_nothing hr⟩

namespace Sample

/-- A cancellation while `lock.acquire` runs. -/
def cancelledAcquire : List (WorkspaceStep Unit) := .start .acquire :: .cancel :: acquires

/-- A cancellation while `create_task_branch` runs. -/
def cancelledBranch : List (WorkspaceStep Unit) :=
  .start .acquire :: acquires ++ [.resume, .start .branch] ++ answers 5 ++ [.cancel] ++ releases ++
    answers 1

/-- Two cancellations before a thread has taken `create_task_branch` or `lock.release`. -/
def cancelledRelease : List (WorkspaceStep Unit) :=
  .start .acquire :: acquires ++ [.resume, .cancel, .cancel]

end Sample

open Sample in
/-- The thread that runs `lock.acquire` makes the lock file after the coroutine has ended, with
`acquired` unset. Where the await of `create_task_branch` is cancelled, its thread runs Git after
`lock.release` has removed the lock file. -/
theorem WorkspaceCall.cancelled_mid_call :
    (¬ ∀ (w : WorkspaceCall Unit) (s : WorkspaceState Unit), w.system.Reachable s → s.Over →
      w.NoFileLeft s) ∧
    ¬ ∀ (w : WorkspaceCall Unit) (s : WorkspaceState Unit), w.system.Reachable s →
      GitBeforeRelease s.log := by
  constructor
  · intro h
    let s := System.execD openWorkspace.next entered cancelledAcquire
    have hr : openWorkspace.system.Reachable s :=
      ⟨entered, _, entered_initial, System.run_execD (by decide +kernel)⟩
    have hleft : s.pc = .left (some .cancelled) := by decide +kernel
    have hover : s.Over := {
      left := ⟨_, hleft⟩
      acquire := by decide +kernel
      branch := by decide +kernel
      release := by decide +kernel }
    have hentry : s.lock.directory.entry = some 0 := by decide +kernel
    have hcreator : (s.lock.directory.files 0).creator = some openWorkspace.own := by
      decide +kernel
    exact h openWorkspace s hr hover 0 hentry hcreator
  · intro h
    let s := System.execD openWorkspace.next entered cancelledBranch
    have hr : openWorkspace.system.Reachable s :=
      ⟨entered, _, entered_initial, System.run_execD (by decide +kernel)⟩
    have hlog : s.log = [.released, .git ["rev-parse", "--show-toplevel"]] := by decide +kernel
    have hordered := h openWorkspace s hr
    rw [hlog] at hordered
    exact (List.pairwise_cons.1 hordered).1 _ (List.mem_singleton_self _) rfl _ rfl

open Sample in
-- `lock.release` is dropped, and the lock file stays.
example : (System.execD openWorkspace.next entered cancelledRelease).release = .dropped ∧
    (System.execD openWorkspace.next entered cancelledRelease).lock.directory.entry = some 0 := by
  decide +kernel

end AIHub
