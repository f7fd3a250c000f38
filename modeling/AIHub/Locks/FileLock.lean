import AIHub.Domain.Json
import AIHub.Domain.Tasks
import AIHub.Lib.Transition
import Mathlib.Logic.Function.Basic

/-!
# Project lock files

`ProjectFileLock.acquire` and `release` as a program that stops between any two of its file
system calls, so that several instances can be interleaved on one lock path.

**The directory** (`LockDirectory`). Every file that is ever created at the path has a number of
its own, and the path names one of them or none. A file that is no longer at the path can still
be read through a descriptor.

**The program** (`lockNext`). One step is one call: the exclusive create, a write, `lstat`,
`open`, `fstat`, the read, `unlink`, or the check that a process is alive.

* `lockNext_cases`: a step looks and changes nothing, or creates a file, or writes to the file
  that the instance has created, or unlinks what is at the path.
* `LockState.Created`: an instance owns only files that it has created.
-/

namespace AIHub

open Transition

/-! ## Metadata -/

/-- `[A-Za-z0-9][A-Za-z0-9._-]{0,127}`. -/
def lockIdPattern (cs : List Char) : Bool :=
  Text.headThen Text.isAlnum
    (fun c => Text.isAlnum c || c == '.' || c == '_' || c == '-') cs && cs.length ≤ 128

structure LockMetadata where
  project : String
  task : String
  createdAt : String
  pid : Nat
  ownerToken : String
  deriving DecidableEq, Repr

namespace LockMetadata

def expectedFields : List String := ["project", "task", "created_at", "pid", "owner_token"]

/-- `_parse_timestamp`, of which only the errors matter; `fromisoformat` gives the UTC offset of
the time, if it has one. -/
def parseTimestamp (fromisoformat : String → Except HubError (Option Int)) (value : String) :
    Except HubError Unit := do
  let text := String.ofList <|
    value.toList.flatMap fun c => if c = 'Z' then "+00:00".toList else [c]
  match ← fromisoformat text with
  | some _ => return ()
  | none => throw (.value "lock created_at must include a timezone")

/-- The checks of the fields of a mapping, which have the right types. -/
def checkFields (fromisoformat : String → Except HubError (Option Int))
    (project task createdAt : String) (pid : Int) (ownerToken : String) :
    Except HubError LockMetadata :=
  if pid ≤ 0 then .error (.value "lock metadata pid is invalid")
  else if ¬ (lockIdPattern project.toList ∧ lockIdPattern task.toList) then
    .error (.value "lock metadata identifiers are invalid")
  else if ownerToken = "" ∨ 64 < ownerToken.length then
    .error (.value "lock metadata owner token is invalid")
  else (parseTimestamp fromisoformat createdAt).map fun _ =>
    { project, task, createdAt, pid := pid.toNat, ownerToken }

/-- `from_mapping`. -/
def fromMapping (fromisoformat : String → Except HubError (Option Int)) :
    JsonValue → Except HubError LockMetadata
  | .object value =>
    if ¬ (value.all (fun m => expectedFields.contains m.1) ∧
        expectedFields.all fun field => value.any fun m => m.1 = field) then
      .error (.value "lock metadata fields are invalid")
    else
      let field := JsonObject.get? value
      match field "project", field "task", field "created_at", field "owner_token" with
      | some (.string project), some (.string task), some (.string createdAt),
          some (.string ownerToken) =>
        match field "pid" with
        | some (.int pid) => checkFields fromisoformat project task createdAt pid ownerToken
        | _ => .error (.value "lock metadata pid is invalid")
      | _, _, _, _ => .error (.value "lock metadata string fields are invalid")
  | _ => .error (.value "lock metadata must be an object")

/-- The document of a lock file, as `asdict` makes it, in key order. -/
def asDict (m : LockMetadata) : JsonValue :=
  .object [("created_at", .string m.createdAt), ("owner_token", .string m.ownerToken),
    ("pid", .int m.pid), ("project", .string m.project), ("task", .string m.task)]

/-- Metadata is read back as it was written if each of its fields passes its check. -/
theorem fromMapping_asDict {fromisoformat : String → Except HubError (Option Int)}
    {m : LockMetadata} (hpid : 0 < m.pid) (hproject : lockIdPattern m.project.toList = true)
    (htask : lockIdPattern m.task.toList = true) (htoken : m.ownerToken ≠ "")
    (htoken' : m.ownerToken.length ≤ 64)
    (htime : parseTimestamp fromisoformat m.createdAt = .ok ()) :
    fromMapping fromisoformat m.asDict = .ok m := by
  have hread : fromMapping fromisoformat m.asDict =
      checkFields fromisoformat m.project m.task m.createdAt m.pid m.ownerToken := rfl
  rw [hread, checkFields, if_neg (by omega), if_neg (not_not.2 ⟨hproject, htask⟩),
    if_neg (by simp [htoken, htoken']), htime]
  rfl

end LockMetadata

/-- An instance for one task, in the process `pid`. -/
structure ProjectFileLock where
  projectId : String
  taskId : String
  pid : Nat
  project_ok : lockIdPattern projectId.toList = true
  task_ok : lockIdPattern taskId.toList = true

namespace Sample

def firstLock : ProjectFileLock := ⟨"website", "TASK-1", 11, by decide, by decide⟩

/-- Of another process. -/
def secondLock : ProjectFileLock := ⟨"website", "TASK-2", 12, by decide, by decide⟩

end Sample

def ProjectFileLock.metadata (L : ProjectFileLock) (createdAt ownerToken : String) :
    LockMetadata where
  project := L.projectId
  task := L.taskId
  createdAt := createdAt
  pid := L.pid
  ownerToken := ownerToken

@[simp] theorem ProjectFileLock.metadata_ownerToken (L : ProjectFileLock)
    (createdAt ownerToken : String) : (L.metadata createdAt ownerToken).ownerToken = ownerToken :=
  rfl

inductive LockError where
  | timeout (message : String)
  | invalid (message : String)
  | ownership (message : String)
  /-- An `OSError` from a file operation. -/
  | os
  deriving DecidableEq, Repr

/-! ## Files at the lock path -/

/-- What `_stat_signature` keeps of a stat result. -/
structure StatSignature where
  dev : Nat
  ino : Nat
  size : Nat
  mtimeNs : Nat
  deriving DecidableEq, Repr

structure LockFile (ι : Type) where
  regular : Bool
  signature : StatSignature
  /-- What `json.load` and `LockMetadata.from_mapping` make of the text, unless one raises. -/
  metadata : Option LockMetadata
  /-- The instance that created it, if one did. No step reads it. -/
  creator : Option ι

/-- The lock path, and the files that are or were at it. -/
structure LockDirectory (ι : Type) where
  files : Nat → LockFile ι
  /-- The number of the next file. -/
  count : Nat
  entry : Option Nat

structure LockSnapshot where
  metadata : LockMetadata
  signature : StatSignature
  /-- The file that was read. No step reads it. -/
  file : Nat
  deriving DecidableEq

/-- Where a `_read_snapshot` call stands. -/
inductive Reading where
  | starting
  | statted (signature : StatSignature)
  | opened (signature : StatSignature) (file : Nat)
  | checked (signature : StatSignature) (file : Nat)
  deriving DecidableEq

inductive ReadResult where
  | ongoing (r : Reading)
  | absent
  /-- An `OSError` or a `ValueError`. -/
  | raised
  | snapshot (s : LockSnapshot)

namespace LockDirectory

variable {ι : Type} (d : LockDirectory ι)

def create (i : ι) (signature : StatSignature) : LockDirectory ι where
  files := Function.update d.files d.count ⟨true, signature, none, some i⟩
  count := d.count + 1
  entry := some d.count

def write (f : Nat) (signature : StatSignature) (metadata : Option LockMetadata) :
    LockDirectory ι :=
  let file := { d.files f with signature := signature, metadata := metadata }
  { d with files := Function.update d.files f file }

def unlink : LockDirectory ι := { d with entry := none }

theorem write_creator (f g : Nat) (signature : StatSignature) (metadata : Option LockMetadata) :
    ((d.write f signature metadata).files g).creator = (d.files g).creator := by
  by_cases hg : g = f
  · subst hg
    simp [write]
  · simp [write, hg]

/-- Take `_read_snapshot` past one call. -/
def readSnapshot : Reading → ReadResult
  | .starting =>
    match d.entry with
    | none => .absent
    | some f => if (d.files f).regular then .ongoing (.statted (d.files f).signature) else .raised
  | .statted signature =>
    match d.entry with
    | none => .raised
    | some f => .ongoing (.opened signature f)
  | .opened signature f =>
    -- "lock file changed while it was opened"
    if (d.files f).signature = signature then .ongoing (.checked signature f) else .raised
  | .checked signature f =>
    match (d.files f).metadata with
    | none => .raised
    | some m => .snapshot ⟨m, signature, f⟩

/-- The comparison of `_remove_unchanged`. -/
def unchanged (s : LockSnapshot) : Bool :=
  d.entry.any fun f => (d.files f).signature = s.signature

end LockDirectory

/-! ## The program -/

/-- Where an instance stands. -/
inductive LockPc where
  /-- `_metadata` is `None` and no call runs; the exception of the last call, if any. -/
  | idle (raised : Option LockError)
  /-- `acquire` makes and checks the lock root. -/
  | preparing
  | looping
  /-- Between the exclusive create and the end of the write. -/
  | writing (m : LockMetadata) (f : Nat)
  /-- The write has failed, and `_create_exclusive` is about to unlink. -/
  | discarding (m : LockMetadata) (f : Nat)
  | inspecting
  | reading (r : Reading)
  | judging (m : LockMetadata)
  /-- The inspected metadata was stale, and `acquire` reads again. -/
  | rereading (m : LockMetadata) (r : Reading)
  | comparing (s : LockSnapshot)
  | recovering (s : LockSnapshot)
  | waiting (owner : String)
  /-- `_metadata` is set and no call runs. -/
  | held (m : LockMetadata) (f : Nat) (raised : Option LockError)
  | releaseReading (m : LockMetadata) (f : Nat) (r : Reading)
  | releaseComparing (m : LockMetadata) (f : Nat) (s : LockSnapshot)
  | releaseUnlinking (m : LockMetadata) (f : Nat)
  deriving DecidableEq

inductive WriteOutcome where
  | part | complete | failed
  deriving DecidableEq

/-- One step of an instance, with what the environment answers. -/
inductive LockStep where
  | acquire
  | prepare
  /-- The call that comes next raises. -/
  | fail (e : LockError)
  | create (createdAt ownerToken : String) (signature : StatSignature)
  | write (outcome : WriteOutcome) (signature : StatSignature)
  | lookup
  | read
  /-- `_is_stale`: the age test, and the answer of `process_alive`. -/
  | judge (aged alive : Bool)
  /-- The `lstat` of `_remove_unchanged`. -/
  | compare
  | unlink
  | sleep
  | expire
  | release
  /-- The process of the instance ends. -/
  | crash
  deriving DecidableEq

/-- Take an instance past one step. -/
def lockNext {ι : Type} (i : ι) (L : ProjectFileLock) (a : LockStep) (pc : LockPc)
    (d : LockDirectory ι) : Option (LockPc × LockDirectory ι) :=
  match pc, a with
  | .idle _, .acquire => some (.preparing, d)
  | .held m f _, .acquire =>
    some (.held m f (some (.ownership "lock instance is already acquired")), d)
  | .preparing, .prepare => some (.looping, d)
  | .preparing, .fail e => some (.idle (some e), d)
  | .looping, .fail e => some (.idle (some e), d)
  | .looping, .create createdAt ownerToken signature =>
    match d.entry with
    | none => some (.writing (L.metadata createdAt ownerToken) d.count, d.create i signature)
    | some _ => some (.inspecting, d)
  | .writing m f, .write .part signature => some (.writing m f, d.write f signature none)
  | .writing m f, .write .complete signature =>
    some (.held m f none, d.write f signature (some m))
  | .writing m f, .write .failed signature => some (.discarding m f, d.write f signature none)
  | .discarding _ _, .unlink => some (.idle (some .os), d.unlink)
  | .inspecting, .lookup =>
    some (if d.entry = none then .waiting "unknown" else .reading .starting, d)
  | .reading r, .read =>
    match d.readSnapshot r with
    | .ongoing r => some (.reading r, d)
    | .absent | .raised => some (.waiting "unknown", d)
    | .snapshot s => some (.judging s.metadata, d)
  | .judging m, .judge aged alive =>
    some (if aged && !alive then .rereading m .starting else .waiting m.task, d)
  | .rereading m r, .read =>
    match d.readSnapshot r with
    | .ongoing r => some (.rereading m r, d)
    | .absent | .raised => some (.waiting m.task, d)
    | .snapshot s => some (if s.metadata = m then .comparing s else .waiting m.task, d)
  | .comparing s, .compare =>
    some (if d.unchanged s then .recovering s else .waiting s.metadata.task, d)
  | .recovering s, .unlink =>
    match d.entry with
    | none => some (.waiting s.metadata.task, d)
    | some _ => some (.looping, d.unlink)
  | .waiting _, .sleep => some (.looping, d)
  | .waiting owner, .expire =>
    some (.idle (some (.timeout s!"project '{L.projectId}' is locked by task '{owner}'")), d)
  | .idle _, .release => some (.idle none, d)
  | .held m f _, .release => some (.releaseReading m f .starting, d)
  | .releaseReading m f r, .read =>
    match d.readSnapshot r with
    | .ongoing r => some (.releaseReading m f r, d)
    | .raised =>
      some (.held m f (some (.ownership "lock file is invalid and was not removed")), d)
    | .absent =>
      some (.held m f
        (some (.ownership "lock file is missing, invalid, or owned by another task")), d)
    | .snapshot s =>
      some (if s.metadata.ownerToken = m.ownerToken then .releaseComparing m f s else
        .held m f
          (some (.ownership "lock file is missing, invalid, or owned by another task")), d)
  | .releaseComparing m f s, .compare =>
    some (if d.unchanged s then .releaseUnlinking m f else
      .held m f (some (.ownership "lock file changed before release")), d)
  | .releaseUnlinking m f, .unlink =>
    match d.entry with
    | none => some (.held m f (some (.ownership "lock file changed before release")), d)
    | some _ => some (.idle none, d.unlink)
  | _, .crash => some (.idle none, d)
  | _, _ => none

namespace LockPc

/-- The metadata of an instance that has created a file and not removed it, and the file. -/
def owner : LockPc → Option (LockMetadata × Nat)
  | writing m f | discarding m f | held m f _ | releaseReading m f _ | releaseComparing m f _
  | releaseUnlinking m f => some (m, f)
  | idle _ | preparing | looping | inspecting | reading _ | judging _ | rereading _ _
  | comparing _ | recovering _ | waiting _ => none

/-- `acquire` has returned, and `release` has not. -/
def holds : LockPc → Bool
  | held _ _ _ | releaseReading _ _ _ | releaseComparing _ _ _ | releaseUnlinking _ _ => true
  | writing _ _ | discarding _ _ | idle _ | preparing | looping | inspecting | reading _
  | judging _ | rereading _ _ | comparing _ | recovering _ | waiting _ => false

/-- The process runs an acquirer or a holder. -/
def running : LockPc → Bool
  | idle _ => false
  | _ => true

/-- The snapshot that a recovery compares with the path. -/
def snapshot : LockPc → Option LockSnapshot
  | comparing s | recovering s => some s
  | _ => none

/-- The metadata that was found stale. -/
def stale : LockPc → Option LockMetadata
  | rereading m _ => some m
  | comparing s | recovering s => some s.metadata
  | _ => none

/-- The metadata that is or was judged. -/
def judged : LockPc → Option LockMetadata
  | judging m => some m
  | pc => pc.stale

/-- The next `unlink` of the instance, if there is an entry, removes it. -/
def unlinks : LockPc → Bool
  | discarding _ _ | recovering _ | releaseUnlinking _ _ => true
  | _ => false

end LockPc

/-! ## What a step does -/

/-- A step that leaves the directory as it is: the instance owns no more files than before, and
what it knows comes from where it stood or from a file. -/
structure Looks {ι : Type} (d : LockDirectory ι) (a : LockStep) (pc pc' : LockPc) : Prop where
  owner : pc'.owner = pc.owner ∨ pc'.owner = none
  writing : ∀ m f, pc' = .writing m f → pc = .writing m f
  judged : ∀ m, pc'.judged = some m → pc.judged = some m ∨ ∃ f, (d.files f).metadata = some m
  stale : ∀ m, pc'.stale = some m →
    pc.stale = some m ∨ (pc = .judging m ∧ a = .judge true false)
  snapshot : ∀ s, pc'.snapshot = some s →
    pc.snapshot = some s ∨ (d.files s.file).metadata = some s.metadata

theorem readSnapshot_snapshot {ι : Type} {d : LockDirectory ι} {r : Reading} {s : LockSnapshot}
    (h : d.readSnapshot r = .snapshot s) : (d.files s.file).metadata = some s.metadata := by
  cases r with
  | starting | statted | opened =>
    simp only [LockDirectory.readSnapshot] at h
    split at h <;> (try split at h) <;> cases h
  | checked signature f =>
    simp only [LockDirectory.readSnapshot] at h
    split at h
    · cases h
    · rename_i m hm
      cases h
      exact hm

theorem LockPc.judged_of_stale {pc : LockPc} {m : LockMetadata} (h : pc.stale = some m) :
    pc.judged = some m := by
  cases pc with
  | judging m => cases h
  | _ => exact h

theorem LockPc.stale_of_snapshot {pc : LockPc} {s : LockSnapshot} (h : pc.snapshot = some s) :
    pc.stale = some s.metadata := by
  cases pc with
  | comparing | recovering =>
    cases h
    rfl
  | _ => cases h

theorem LockPc.judged_of_snapshot {pc : LockPc} {s : LockSnapshot} (h : pc.snapshot = some s) :
    pc.judged = some s.metadata :=
  judged_of_stale (stale_of_snapshot h)

/-- A step after which the instance judges nothing. -/
theorem Looks.of_judged_none {ι : Type} {d : LockDirectory ι} {a : LockStep} {pc pc' : LockPc}
    (howner : pc'.owner = pc.owner ∨ pc'.owner = none)
    (hwriting : ∀ m f, pc' = .writing m f → pc = .writing m f) (hjudged : pc'.judged = none) :
    Looks d a pc pc' where
  owner := howner
  writing := hwriting
  judged m hm := by rw [hjudged] at hm; cases hm
  stale m hm := by rw [LockPc.judged_of_stale hm] at hjudged; cases hjudged
  snapshot s hs := by rw [LockPc.judged_of_snapshot hs] at hjudged; cases hjudged

theorem lockNext_cases {ι : Type} {i : ι} {L : ProjectFileLock} {a : LockStep} {pc pc' : LockPc}
    {d d' : LockDirectory ι} (h : lockNext i L a pc d = some (pc', d')) :
    (Looks d a pc pc' ∧ d' = d) ∨
    (∃ createdAt ownerToken signature, a = .create createdAt ownerToken signature ∧
      pc = .looping ∧ d.entry = none ∧
      pc' = .writing (L.metadata createdAt ownerToken) d.count ∧ d' = d.create i signature) ∨
    (∃ m f signature v, pc = .writing m f ∧ pc'.owner = some (m, f) ∧
      pc'.judged = none ∧ (v = none ∨ v = some m ∧ pc'.holds = true) ∧
      d' = d.write f signature v) ∨
    (pc.unlinks = true ∧ a = .unlink ∧ pc'.owner = none ∧ pc'.judged = none ∧
      d' = d.unlink) := by
  revert h
  fun_cases lockNext i L a pc d
  all_goals
    intro h
    simp only [Option.some.injEq, Prod.mk.injEq, reduceCtorEq] at h
    try obtain ⟨rfl, rfl⟩ := h
  case case6 =>
    -- The exclusive create succeeds.
    exact .inr (.inl ⟨_, _, _, rfl, rfl, ‹_›, rfl, rfl⟩)
  case case8 | case9 | case10 =>
    exact .inr (.inr (.inl ⟨_, _, _, _, rfl, rfl, rfl, by simp [LockPc.holds], rfl⟩))
  case case11 | case24 | case35 =>
    exact .inr (.inr (.inr ⟨rfl, rfl, rfl, rfl, rfl⟩))
  case case16 =>
    -- `inspect` has read the file.
    refine .inl ⟨⟨.inl rfl, ?_, ?_, ?_, ?_⟩, rfl⟩
    · simp
    · intro m hm
      cases hm
      exact .inr ⟨_, readSnapshot_snapshot ‹_›⟩
    · simp [LockPc.stale]
    · simp [LockPc.snapshot]
  case case17 m aged alive =>
    by_cases hstale : (aged && !alive) = true
    · rw [if_pos hstale]
      simp only [Bool.and_eq_true, Bool.not_eq_true'] at hstale
      obtain ⟨rfl, rfl⟩ := hstale
      refine .inl ⟨⟨.inl rfl, by simp, fun m hm => .inl hm, ?_, by simp [LockPc.snapshot]⟩, rfl⟩
      intro m hm
      cases hm
      exact .inr ⟨rfl, rfl⟩
    · rw [if_neg hstale]
      exact .inl ⟨.of_judged_none (.inl rfl) (by simp) rfl, rfl⟩
  case case18 =>
    exact .inl ⟨⟨.inl rfl, by simp, fun m hm => .inl hm, fun m hm => .inl hm,
      by simp [LockPc.snapshot]⟩, rfl⟩
  case case21 m r s hs =>
    by_cases hm : s.metadata = m
    · rw [if_pos hm]
      subst hm
      refine .inl ⟨⟨.inl rfl, by simp, fun m hm => .inl hm, fun m hm => .inl hm, ?_⟩, rfl⟩
      intro s' hs'
      cases hs'
      exact .inr (readSnapshot_snapshot hs)
    · rw [if_neg hm]
      exact .inl ⟨.of_judged_none (.inl rfl) (by simp) rfl, rfl⟩
  case case22 s =>
    split
    · exact .inl ⟨⟨.inl rfl, by simp, fun m hm => .inl hm, fun m hm => .inl hm,
        fun s hs => .inl hs⟩, rfl⟩
    · exact .inl ⟨.of_judged_none (.inl rfl) (by simp) rfl, rfl⟩
  case case12 | case32 | case33 =>
    split <;> exact .inl ⟨.of_judged_none (.inl rfl) (by simp) rfl, rfl⟩
  case case36 => exact .inl ⟨.of_judged_none (.inr rfl) (by simp) rfl, rfl⟩
  all_goals exact .inl ⟨.of_judged_none (.inl rfl) (by simp) rfl, rfl⟩

/-! ## Interleavings -/

/-- The directory, and where each instance stands. -/
structure LockState (ι : Type) where
  directory : LockDirectory ι
  pc : ι → LockPc
  /-- The owner tokens that exist: those of the files, and those that were generated. -/
  tokens : List String

/-- `uuid4` gives a token that does not exist yet. -/
def freshToken (tokens : List String) : LockStep → Bool
  | .create _ ownerToken _ => ownerToken ∉ tokens
  | _ => true

/-- The tokens after a step. -/
def LockStep.issue (tokens : List String) : LockStep → List String
  | .create _ ownerToken _ => ownerToken :: tokens
  | _ => tokens

section

variable {ι : Type} [DecidableEq ι]

/-- Take the instance `i` past one step. -/
def LockState.next (locks : ι → ProjectFileLock) (s : LockState ι) (l : ι × LockStep) :
    Option (LockState ι) :=
  if freshToken s.tokens l.2 then
    (lockNext l.1 (locks l.1) l.2 (s.pc l.1) s.directory).map fun r =>
      ⟨r.2, Function.update s.pc l.1 r.1, l.2.issue s.tokens⟩
  else none

/-- No call runs, and the path names a file that no instance has created, or none. -/
structure LockState.Initial (s : LockState ι) : Prop where
  idle : ∀ i, s.pc i = .idle none
  entry : ∀ f, s.directory.entry = some f → f < s.directory.count
  unused : ∀ f, s.directory.count ≤ f → (s.directory.files f).metadata = none
  creator : ∀ f, (s.directory.files f).creator = none
  tokens : ∀ f m, (s.directory.files f).metadata = some m → m.ownerToken ∈ s.tokens

variable {locks : ι → ProjectFileLock} {s t : LockState ι} {i : ι} {a : LockStep}

theorem LockState.next_ok (h : s.next locks (i, a) = some t) :
    freshToken s.tokens a = true ∧
      ∃ pc d, lockNext i (locks i) a (s.pc i) s.directory = some (pc, d) ∧
        t = ⟨d, Function.update s.pc i pc, a.issue s.tokens⟩ := by
  unfold LockState.next at h
  split_ifs at h with hfresh
  obtain ⟨⟨pc, d⟩, hnext, rfl⟩ := Option.map_eq_some_iff.1 h
  exact ⟨hfresh, pc, d, hnext, rfl⟩

/-! ### One step of an interleaving -/

theorem LockState.next_pc_of_ne (h : s.next locks (i, a) = some t) {j : ι} (hj : j ≠ i) :
    t.pc j = s.pc j := by
  obtain ⟨-, pc, d, -, rfl⟩ := LockState.next_ok h
  exact Function.update_of_ne hj _ _

/-- The path is left as it is, or takes a new file where there was none, or loses its entry. -/
theorem LockState.next_entry (h : s.next locks (i, a) = some t) :
    (t.directory.entry = s.directory.entry ∧ t.directory.count = s.directory.count) ∨
    (s.directory.entry = none ∧ t.directory.entry = some s.directory.count ∧
      t.directory.count = s.directory.count + 1 ∧
      ∃ signature, t.directory.files s.directory.count = ⟨true, signature, none, some i⟩) ∨
    ((s.pc i).unlinks = true ∧ a = .unlink ∧ (t.pc i).owner = none ∧ t.directory.entry = none ∧
      t.directory.count = s.directory.count) := by
  obtain ⟨-, pc, d, hnext, rfl⟩ := LockState.next_ok h
  obtain ⟨-, rfl⟩ | ⟨_, _, g, -, -, hnone, -, rfl⟩ | ⟨_, _, _, _, -, -, -, -, rfl⟩ |
    ⟨hpc, rfl, howner, -, rfl⟩ := lockNext_cases hnext
  · exact .inl ⟨rfl, rfl⟩
  · exact .inr (.inl ⟨hnone, rfl, rfl, g, by simp [LockDirectory.create]⟩)
  · exact .inl ⟨rfl, rfl⟩
  · exact .inr (.inr ⟨hpc, rfl, by simpa using howner, rfl, rfl⟩)

/-- A file is left as it is, or is the new one, or is written by the instance that writes it. -/
theorem LockState.next_file (h : s.next locks (i, a) = some t) (f : Nat) :
    t.directory.files f = s.directory.files f ∨
    (f = s.directory.count ∧ s.pc i = .looping ∧ s.directory.entry = none ∧
      ∃ signature, t.directory.files f = ⟨true, signature, none, some i⟩) ∨
    (∃ m signature v, s.pc i = .writing m f ∧ (v = none ∨ v = some m ∧ (t.pc i).holds = true) ∧
      t.directory.files f =
        { s.directory.files f with signature := signature, metadata := v }) := by
  obtain ⟨-, pc, d, hnext, rfl⟩ := LockState.next_ok h
  obtain ⟨-, rfl⟩ | ⟨_, _, g, -, hpc, hnone, -, rfl⟩ | ⟨m, f', g, v, hpc, -, -, hv, rfl⟩ |
    ⟨-, -, -, -, rfl⟩ := lockNext_cases hnext
  · exact .inl rfl
  · by_cases hf : f = s.directory.count
    · subst hf
      exact .inr (.inl ⟨rfl, hpc, hnone, g, by simp [LockDirectory.create]⟩)
    · exact .inl (by simp [LockDirectory.create, hf])
  · by_cases hf : f = f'
    · subst hf
      exact .inr (.inr ⟨m, g, v, hpc, by simpa using hv, by simp [LockDirectory.write]⟩)
    · exact .inl (by simp [LockDirectory.write, hf])
  · exact .inl rfl

/-- An instance comes to own a file only by creating it. -/
theorem LockState.next_owner (h : s.next locks (i, a) = some t) {j : ι} {m : LockMetadata}
    {f : Nat} (hj : (t.pc j).owner = some (m, f)) :
    (s.pc j).owner = some (m, f) ∨
    (j = i ∧ f = s.directory.count ∧ s.directory.entry = none ∧
      t.directory.count = s.directory.count + 1 ∧ m.pid = (locks i).pid ∧
      m.ownerToken ∉ s.tokens ∧ m.ownerToken ∈ t.tokens ∧
      ∃ signature, t.directory.files f = ⟨true, signature, none, some i⟩) := by
  by_cases hji : j = i
  · subst hji
    obtain ⟨hfresh, pc, d, hnext, rfl⟩ := LockState.next_ok h
    simp only [Function.update_self] at hj
    obtain ⟨hlook, rfl⟩ | ⟨c, k, g, rfl, hpc, hnone, rfl, rfl⟩ |
      ⟨m', f', _, _, hpc, howner, -, -, rfl⟩ | ⟨-, -, howner, -, -⟩ := lockNext_cases hnext
    · rcases hlook.owner with ho | ho
      · exact .inl (ho ▸ hj)
      · rw [ho] at hj
        cases hj
    · cases hj
      refine .inr ⟨rfl, rfl, hnone, rfl, rfl, by simpa [freshToken] using hfresh, ?_, g, ?_⟩
      · exact List.mem_cons_self
      · simp [LockDirectory.create]
    · rw [howner] at hj
      rw [hpc]
      exact .inl hj
    · rw [howner] at hj
      cases hj
  · rw [LockState.next_pc_of_ne h hji] at hj
    exact .inl hj

/-- The instance that steps has looked, or judges nothing any more. -/
theorem LockState.next_looks (h : s.next locks (i, a) = some t) :
    (Looks s.directory a (s.pc i) (t.pc i) ∧ t.directory = s.directory) ∨
      (t.pc i).judged = none := by
  obtain ⟨-, pc, d, hnext, rfl⟩ := LockState.next_ok h
  simp only [Function.update_self]
  obtain ⟨hlook, rfl⟩ | ⟨_, _, _, -, -, -, rfl, -⟩ | ⟨_, _, _, _, -, -, hnone, -⟩ |
    ⟨-, -, -, hnone, -⟩ := lockNext_cases hnext
  · exact .inl ⟨hlook, rfl⟩
  · exact .inr rfl
  · exact .inr hnone
  · exact .inr hnone

/-- An instance writes only where it wrote before, or in a new file. -/
theorem LockState.next_writing (h : s.next locks (i, a) = some t) {j : ι} {m : LockMetadata}
    {f : Nat} (hj : t.pc j = .writing m f) :
    s.pc j = .writing m f ∨ (j = i ∧ f = s.directory.count) := by
  by_cases hji : j = i
  · subst hji
    obtain ⟨-, pc, d, hnext, rfl⟩ := LockState.next_ok h
    simp only [Function.update_self] at hj
    subst hj
    obtain ⟨hlook, rfl⟩ | ⟨_, _, _, -, -, -, hpc, -⟩ | ⟨m', f', _, _, hpc, howner, -, -, -⟩ |
      ⟨-, -, howner, -, -⟩ := lockNext_cases hnext
    · exact .inl (hlook.writing m f rfl)
    · cases hpc
      exact .inr ⟨rfl, rfl⟩
    · cases howner
      exact .inl hpc
    · cases howner
  · rw [LockState.next_pc_of_ne h hji] at hj
    exact .inl hj

/-- The files are numbered, and an instance owns a file that it has created itself and that has
nobody else's metadata. -/
structure LockState.Created (locks : ι → ProjectFileLock) (s : LockState ι) : Prop where
  entry : ∀ f, s.directory.entry = some f → f < s.directory.count
  unused : ∀ f, s.directory.count ≤ f → (s.directory.files f).metadata = none
  owner : ∀ i m f, (s.pc i).owner = some (m, f) →
    f < s.directory.count ∧ (s.directory.files f).creator = some i ∧ m.pid = (locks i).pid ∧
      ((s.directory.files f).metadata = none ∨ (s.directory.files f).metadata = some m)
  writing : ∀ i m f, s.pc i = .writing m f → (s.directory.files f).metadata = none

omit [DecidableEq ι] in
theorem LockState.Initial.created (h : s.Initial) : s.Created locks where
  entry := h.entry
  unused := h.unused
  owner i m f hi := by rw [h.idle i] at hi; cases hi
  writing i m f hi := by rw [h.idle i] at hi; cases hi

omit [DecidableEq ι] in
/-- Two instances do not own one file. -/
theorem LockState.Created.unique (hs : s.Created locks) {j : ι} {m m' : LockMetadata} {f : Nat}
    (hi : (s.pc i).owner = some (m, f)) (hj : (s.pc j).owner = some (m', f)) : i = j := by
  have hc := (hs.owner i m f hi).2.1
  rw [(hs.owner j m' f hj).2.1] at hc
  exact (Option.some.inj hc).symm

theorem LockState.next_count (h : s.next locks (i, a) = some t) :
    s.directory.count ≤ t.directory.count := by
  rcases LockState.next_entry h with ⟨-, hc⟩ | ⟨-, -, hc, -⟩ | ⟨-, -, -, -, hc⟩ <;> omega

/-- Metadata that was once written stays. -/
theorem LockState.next_metadata (hs : s.Created locks) (h : s.next locks (i, a) = some t) {f : Nat}
    {m : LockMetadata} (hf : (s.directory.files f).metadata = some m) :
    (t.directory.files f).metadata = some m := by
  rcases LockState.next_file h f with hsame | ⟨hnew, -⟩ | ⟨m', _, _, hpc, -⟩
  · rw [hsame, hf]
  · rw [hs.unused f hnew.ge] at hf
    cases hf
  · rw [hs.writing i m' f hpc] at hf
    cases hf

theorem LockState.Created.step (hs : s.Created locks) (h : s.next locks (i, a) = some t) :
    t.Created locks := by
  have hcount := LockState.next_count h
  constructor
  · intro f hf
    rcases LockState.next_entry h with ⟨he, hc⟩ | ⟨-, he, hc, -⟩ | ⟨-, -, -, he, -⟩
    · have := hs.entry f (he ▸ hf)
      omega
    · rw [he] at hf
      cases hf
      omega
    · rw [he] at hf
      cases hf
  · intro f hf
    rcases LockState.next_file h f with hsame | ⟨-, -, -, g, hnew⟩ | ⟨m, _, _, hpc, -⟩
    · rw [hsame]
      exact hs.unused f (hcount.trans hf)
    · rw [hnew]
    · have := (hs.owner i m f (by rw [hpc]; rfl)).1
      omega
  · intro j m f hj
    rcases LockState.next_owner h hj with ho | ⟨rfl, rfl, -, hc, hpid, -, -, g, hnew⟩
    · obtain ⟨hlt, hcreator, hpid, hm⟩ := hs.owner j m f ho
      refine ⟨by omega, ?_⟩
      rcases LockState.next_file h f with hsame | ⟨hnew, -⟩ | ⟨m', g, v, hpc, hv, hwritten⟩
      · rw [hsame]
        exact ⟨hcreator, hpid, hm⟩
      · omega
      · have hown : (s.pc i).owner = some (m', f) := by rw [hpc]; rfl
        have hij := hs.unique hown ho
        subst hij
        rw [hown] at ho
        cases ho
        rw [hwritten]
        exact ⟨hcreator, hpid, hv.imp_right And.left⟩
    · rw [hnew]
      exact ⟨by omega, rfl, hpid, .inl rfl⟩
  · intro j m f hj
    rcases LockState.next_writing h hj with hw | ⟨rfl, rfl⟩
    · rcases LockState.next_file h f with hsame | ⟨-, -, -, g, hnew⟩ | ⟨m', g, v, hpc, hv, hwritten⟩
      · rw [hsame]
        exact hs.writing j m f hw
      · rw [hnew]
      · have hown : (s.pc i).owner = some (m', f) := by rw [hpc]; rfl
        have hij := hs.unique hown (show (s.pc j).owner = some (m, f) by rw [hw]; rfl)
        subst hij
        rw [hwritten]
        rcases hv with rfl | ⟨-, hholds⟩
        · rfl
        · rw [hj] at hholds
          cases hholds
    · rcases LockState.next_file h s.directory.count with hsame | ⟨-, -, -, g, hnew⟩ |
        ⟨m', g, v, hpc, hv, hwritten⟩
      · rw [hsame]
        exact hs.unused _ le_rfl
      · rw [hnew]
      · have := (hs.owner j m' s.directory.count (by rw [hpc]; rfl)).1
        omega

end

end AIHub
