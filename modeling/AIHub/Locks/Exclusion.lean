import AIHub.Locks.FileLock
import Mathlib.Data.Fintype.Basic
import Mathlib.Data.Set.Subsingleton

/-!
# Mutual exclusion of project locks

Any number of instances acquire and release the lock of one project, each stopping between any
two of its file system calls.

**The invariant** (`LockState.Exclusive`). What an instance owns is what is at the path, and no
instance that is past a stale finding has found the metadata of an owner. A new owner has a new
token, and its process is alive when others judge it.

* `mutual_exclusion`: as long as every recovery removes the file that its snapshot was read from,
  no two instances hold the lock.
* `both_hold`: the path can change between the comparison and the `unlink` of a recovery, which
  then removes the lock of a live owner.
-/

namespace AIHub

open Transition

section

variable {ι : Type} [DecidableEq ι]

/-- `process_alive` is true of every process that runs an acquirer or a holder. -/
def ProcessesAlive (locks : ι → ProjectFileLock) (s : LockState ι) (l : ι × LockStep) : Prop :=
  ∀ m, (s.pc l.1).judged = some m → l.2 = .judge true false →
    ∀ j, (s.pc j).running = true → (locks j).pid ≠ m.pid

/-- A recovery removes the file that its snapshot was read from. -/
def RecoversSnapshot (s : LockState ι) (l : ι × LockStep) : Prop :=
  ∀ r, (s.pc l.1).snapshot = some r → l.2 = .unlink →
    ∀ f, s.directory.entry = some f → f = r.file

instance [Fintype ι] (locks : ι → ProjectFileLock) (s : LockState ι) (l : ι × LockStep) :
    Decidable (ProcessesAlive locks s l) :=
  inferInstanceAs (Decidable (∀ m, (s.pc l.1).judged = some m → l.2 = .judge true false →
    ∀ j, (s.pc j).running = true → (locks j).pid ≠ m.pid))

instance (s : LockState ι) (l : ι × LockStep) : Decidable (RecoversSnapshot s l) :=
  inferInstanceAs (Decidable (∀ r, (s.pc l.1).snapshot = some r → l.2 = .unlink →
    ∀ f, s.directory.entry = some f → f = r.file))

/-- The instances of one project's lock, interleaved. -/
def lockSystem (locks : ι → ProjectFileLock) : System (LockState ι) (ι × LockStep) :=
  (System.ofNext LockState.Initial (LockState.next locks)).guard (ProcessesAlive locks)

/-- The instances whose `acquire` has returned, and whose `release` has not. -/
def LockState.holders (s : LockState ι) : Set ι := { i | (s.pc i).holds = true }

structure LockState.Exclusive (locks : ι → ProjectFileLock) (s : LockState ι) : Prop where
  created : s.Created locks
  entry : ∀ i m f, (s.pc i).owner = some (m, f) → s.directory.entry = some f
  stale : ∀ k m, (s.pc k).stale = some m → ∀ i m' f, (s.pc i).owner = some (m', f) → m' ≠ m
  snapshot : ∀ k r, (s.pc k).snapshot = some r →
    (s.directory.files r.file).metadata = some r.metadata
  fileTokens : ∀ f m, (s.directory.files f).metadata = some m → m.ownerToken ∈ s.tokens
  ownerTokens : ∀ i m f, (s.pc i).owner = some (m, f) → m.ownerToken ∈ s.tokens
  judgedTokens : ∀ k m, (s.pc k).judged = some m → m.ownerToken ∈ s.tokens

variable {locks : ι → ProjectFileLock} {s t : LockState ι} {i : ι} {a : LockStep}

omit [DecidableEq ι] in
theorem LockState.Initial.exclusive (h : s.Initial) : s.Exclusive locks where
  created := h.created
  entry i m f hi := by rw [h.idle i] at hi; cases hi
  stale k m hk := by rw [h.idle k] at hk; cases hk
  snapshot k r hk := by rw [h.idle k] at hk; cases hk
  fileTokens := h.tokens
  ownerTokens i m f hi := by rw [h.idle i] at hi; cases hi
  judgedTokens k m hk := by rw [h.idle k] at hk; cases hk

theorem LockState.next_tokens (h : s.next locks (i, a) = some t) {k : String}
    (hk : k ∈ s.tokens) : k ∈ t.tokens := by
  obtain ⟨-, pc, d, -, rfl⟩ := LockState.next_ok h
  cases a with
  | create c k' g => exact List.mem_cons_of_mem _ hk
  | _ => exact hk

/-- What an instance judges, it judged before or has read from a file. -/
theorem LockState.next_judged (h : s.next locks (i, a) = some t) {k : ι} {m : LockMetadata}
    (hk : (t.pc k).judged = some m) :
    (s.pc k).judged = some m ∨ ∃ f, (s.directory.files f).metadata = some m := by
  by_cases hki : k = i
  · subst hki
    rcases LockState.next_looks h with ⟨hlook, -⟩ | hnone
    · exact hlook.judged m hk
    · rw [hnone] at hk
      cases hk
  · rw [LockState.next_pc_of_ne h hki] at hk
    exact .inl hk

/-- What an instance has found stale, it found stale before, or it is the one that steps and finds
it stale now. -/
theorem LockState.next_stale (h : s.next locks (i, a) = some t) {k : ι} {m : LockMetadata}
    (hk : (t.pc k).stale = some m) :
    (s.pc k).stale = some m ∨
      (s.pc i = .judging m ∧ a = .judge true false ∧ t.directory = s.directory) := by
  by_cases hki : k = i
  · subst hki
    rcases LockState.next_looks h with ⟨hlook, hd⟩ | hnone
    · exact (hlook.stale m hk).imp_right fun hj => ⟨hj.1, hj.2, hd⟩
    · rw [LockPc.judged_of_stale hk] at hnone
      cases hnone
  · rw [LockState.next_pc_of_ne h hki] at hk
    exact .inl hk

theorem LockState.next_snapshot (h : s.next locks (i, a) = some t) {k : ι} {r : LockSnapshot}
    (hk : (t.pc k).snapshot = some r) :
    (s.pc k).snapshot = some r ∨ (s.directory.files r.file).metadata = some r.metadata := by
  by_cases hki : k = i
  · subst hki
    rcases LockState.next_looks h with ⟨hlook, -⟩ | hnone
    · exact hlook.snapshot r hk
    · rw [LockPc.judged_of_snapshot hk] at hnone
      cases hnone
  · rw [LockState.next_pc_of_ne h hki] at hk
    exact .inl hk

/-- What is written into a file is the metadata of the instance that writes it. -/
theorem LockState.next_written (h : s.next locks (i, a) = some t) {f : Nat}
    {m : LockMetadata} (hf : (t.directory.files f).metadata = some m) :
    (s.directory.files f).metadata = some m ∨ (s.pc i).owner = some (m, f) := by
  rcases LockState.next_file h f with hsame | ⟨-, -, -, g, hnew⟩ | ⟨m', g, v, hpc, hv, hwritten⟩
  · exact .inl (hsame ▸ hf)
  · rw [hnew] at hf
    cases hf
  · rw [hwritten] at hf
    have hv' : v = some m := hf
    rcases hv with rfl | ⟨rfl, -⟩
    · cases hv'
    · cases hv'
      exact .inr (by rw [hpc]; rfl)

theorem LockPc.running_of_owner {pc : LockPc} {p : LockMetadata × Nat} (h : pc.owner = some p) :
    pc.running = true := by
  cases pc with
  | idle e => cases h
  | _ => rfl

omit [DecidableEq ι] in
/-- An `unlink` leaves the files of the other instances at the path. -/
theorem LockState.Exclusive.unlink_owner (hs : s.Exclusive locks)
    (hrecover : RecoversSnapshot s (i, .unlink)) (hpc : (s.pc i).unlinks = true) {j : ι}
    {m : LockMetadata} {f : Nat} (hj : (s.pc j).owner = some (m, f)) : j = i := by
  have hentry := hs.entry j m f hj
  have hown {m' : LockMetadata} {f' : Nat} (hi : (s.pc i).owner = some (m', f')) : j = i := by
    have hf := hs.entry i m' f' hi
    rw [hentry] at hf
    cases hf
    exact hs.created.unique hj hi
  cases hi : s.pc i with
  | discarding m' f' => exact hown (by rw [hi]; rfl)
  | releaseUnlinking m' f' => exact hown (by rw [hi]; rfl)
  | recovering r =>
    -- The snapshot is of the file at the path, and its metadata was found stale.
    have hsnap : (s.pc i).snapshot = some r := by rw [hi]; rfl
    have hf := hrecover r hsnap rfl f hentry
    have hread := hs.snapshot i r hsnap
    subst hf
    obtain ⟨-, -, -, hm⟩ := hs.created.owner j m _ hj
    rw [hread] at hm
    rcases hm with hm | hm
    · cases hm
    · have hne := hs.stale i r.metadata (LockPc.stale_of_snapshot hsnap) j m _ hj
      cases hm
      exact absurd rfl hne
  | _ => rw [hi] at hpc; cases hpc

theorem LockState.Exclusive.step (hs : s.Exclusive locks) (halive : ProcessesAlive locks s (i, a))
    (hrecover : RecoversSnapshot s (i, a)) (h : s.next locks (i, a) = some t) :
    t.Exclusive locks := by
  constructor
  · exact hs.created.step h
  · intro j m f hj
    rcases LockState.next_owner h hj with ho | ⟨-, rfl, -, hc, -⟩
    · have hentry := hs.entry j m f ho
      rcases LockState.next_entry h with ⟨he, -⟩ | ⟨he, -, -⟩ | ⟨hpc, rfl, hnone, -, -⟩
      · rw [he, hentry]
      · rw [hentry] at he
        cases he
      · have hji := hs.unlink_owner hrecover hpc ho
        subst hji
        rw [hnone] at hj
        cases hj
    · rcases LockState.next_entry h with ⟨-, hc'⟩ | ⟨-, he, -⟩ | ⟨-, -, -, -, hc'⟩
      · omega
      · exact he
      · omega
  · intro k m hk j m' f hj
    rcases LockState.next_stale h hk with hk' | ⟨hpc, rfl, hd⟩
    · rcases LockState.next_owner h hj with ho | ⟨-, -, -, -, -, hfresh, -, -⟩
      · exact hs.stale k m hk' j m' f ho
      · rintro rfl
        exact hfresh (hs.judgedTokens k m' (LockPc.judged_of_stale hk'))
    · rcases LockState.next_owner h hj with ho | ⟨-, -, -, hc, -⟩
      · rintro rfl
        have hpid := (hs.created.owner j m' f ho).2.2.1
        exact halive m' (by rw [hpc]; rfl) rfl j (LockPc.running_of_owner ho) hpid.symm
      · rw [hd] at hc
        omega
  · intro k r hk
    rcases LockState.next_snapshot h hk with hk | hread
    · exact LockState.next_metadata hs.created h (hs.snapshot k r hk)
    · exact LockState.next_metadata hs.created h hread
  · intro f m hf
    rcases LockState.next_written h hf with hf | ho
    · exact LockState.next_tokens h (hs.fileTokens f m hf)
    · exact LockState.next_tokens h (hs.ownerTokens i m f ho)
  · intro j m f hj
    rcases LockState.next_owner h hj with ho | ⟨-, -, -, -, -, -, hk, -⟩
    · exact LockState.next_tokens h (hs.ownerTokens j m f ho)
    · exact hk
  · intro k m hk
    rcases LockState.next_judged h hk with hk | ⟨f, hf⟩
    · exact LockState.next_tokens h (hs.judgedTokens k m hk)
    · exact LockState.next_tokens h (hs.fileTokens f m hf)

theorem LockState.Exclusive.reachable
    (h : ((lockSystem locks).guard RecoversSnapshot).Reachable s) : s.Exclusive locks := by
  have hinv : ((lockSystem locks).guard RecoversSnapshot).Invariant (Exclusive locks) := {
    init := fun s hs => LockState.Initial.exclusive hs
    step := fun s l t hs ⟨hrecover, halive, hst⟩ => hs.step halive hrecover hst }
  exact hinv.reachable h

theorem LockPc.owner_of_holds {pc : LockPc} (h : pc.holds = true) :
    ∃ m f, pc.owner = some (m, f) := by
  cases pc with
  | held m f | releaseReading m f | releaseComparing m f | releaseUnlinking m f => exact ⟨m, f, rfl⟩
  | _ => cases h

/-- As long as every recovery removes the file that its snapshot was read from, no two instances
hold the lock of one project. -/
theorem mutual_exclusion (h : ((lockSystem locks).guard RecoversSnapshot).Reachable s) :
    s.holders.Subsingleton := by
  intro i hi j hj
  have hs := LockState.Exclusive.reachable h
  obtain ⟨m, f, hi⟩ := LockPc.owner_of_holds hi
  obtain ⟨m', f', hj⟩ := LockPc.owner_of_holds hj
  have hf := hs.entry i m f hi
  rw [hs.entry j m' f' hj] at hf
  cases hf
  exact hs.created.unique hi hj

end

/-! ## Runs -/

namespace Sample

/-- Two instances, in two processes. -/
def twoLocks : Bool → ProjectFileLock
  | false => firstLock
  | true => secondLock

/-- The file of a process that has ended. -/
def staleLock : LockMetadata := ⟨"website", "TASK-0", "2026-01-01T00:00:00.000000Z", 10, "k0"⟩

def lockRoot : LockState Bool where
  directory := {
    files := fun
      | 0 => ⟨true, ⟨1, 1, 150, 0⟩, some staleLock, none⟩
      | _ => ⟨false, ⟨0, 0, 0, 0⟩, none, none⟩
    count := 1
    entry := some 0 }
  pc := fun _ => .idle none
  tokens := ["k0"]

theorem lockRoot_initial : lockRoot.Initial where
  idle _ := rfl
  entry f hf := by
    cases hf
    decide
  unused f hf := by
    cases f with
    | zero => cases hf
    | succ f => rfl
  creator f := by cases f <;> rfl
  tokens f m hm := by
    cases f with
    | zero =>
      cases hm
      decide
    | succ f => cases hm

/-- The file exists, is stale, and is read again and compared. -/
def findsStale (token : String) : List LockStep :=
  [.acquire, .prepare, .create "2026-02-01T00:00:00.000000Z" token ⟨1, 0, 0, 0⟩, .lookup,
    .read, .read, .read, .read, .judge true false, .read, .read, .read, .read, .compare]

/-- The file is removed, and a new one is made. -/
def recovers (token : String) : List LockStep :=
  [.unlink, .create "2026-02-01T00:00:01.000000Z" token ⟨1, 2, 0, 1⟩,
    .write .complete ⟨1, 2, 150, 2⟩]

def steps (i : Bool) (as : List LockStep) : List (Bool × LockStep) := as.map fun a => (i, a)

end Sample

open Sample in
/-- One instance recovers the stale file and holds the lock. -/
theorem mutual_exclusion_sample :
    let next := System.guardNext RecoversSnapshot
      (System.guardNext (ProcessesAlive twoLocks) (LockState.next twoLocks))
    let s := System.execD next lockRoot (steps false (findsStale "k1" ++ recovers "k2"))
    s.holders.Subsingleton := by
  intro next s
  have hM : (lockSystem twoLocks).guard RecoversSnapshot =
      System.ofNext LockState.Initial next := by
    rw [lockSystem, System.ofNext_guard, System.ofNext_guard]
  have hr : ((lockSystem twoLocks).guard RecoversSnapshot).Reachable s := by
    rw [hM]
    exact ⟨lockRoot, _, lockRoot_initial, System.run_execD (by decide +kernel)⟩
  exact mutual_exclusion hr

open Sample in
/-- Both instances compare the stale file with the path. Then one removes it and makes its own,
and the other removes that. -/
theorem both_hold : ¬ ∀ (locks : Bool → ProjectFileLock) (s : LockState Bool),
    (lockSystem locks).Reachable s → s.holders.Subsingleton := by
  intro h
  let next := System.guardNext (ProcessesAlive twoLocks) (LockState.next twoLocks)
  let s := System.execD next lockRoot
    (steps false (findsStale "k1") ++ steps true (findsStale "k2" ++ recovers "k3") ++
      steps false (recovers "k4"))
  have hM : lockSystem twoLocks = System.ofNext LockState.Initial next := by
    rw [lockSystem, System.ofNext_guard]
  have hr : (lockSystem twoLocks).Reachable s := by
    rw [hM]
    exact ⟨lockRoot, _, lockRoot_initial, System.run_execD (by decide +kernel)⟩
  have hfalse : (s.pc false).holds = true := by decide +kernel
  have htrue : (s.pc true).holds = true := by decide +kernel
  exact Bool.false_ne_true (h twoLocks s hr hfalse htrue)

end AIHub
