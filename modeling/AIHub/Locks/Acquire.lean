import AIHub.Domain.Fromisoformat
import AIHub.Domain.JsonText
import AIHub.Locks.FileLock
import AIHub.Storage.Store
import Mathlib.Algebra.Order.Group.Int
import Mathlib.Tactic.Abel

/-!
# Acquiring a lock without rivals

One `acquire` call, alone at the lock path, with what its steps leave open in `lockNext`: the texts
of the files, the wall clock, the processes, and the monotonic clock. Durations and readings of the
monotonic clock are elements of an ordered group, so that sums are exact.

* `ofText_text`: what an instance writes is read back.
* `AcquireState.Acquiring`: what holds at every step of the call.
* `acquire_alone`: a file that the call has not created itself is removed only if it is a regular
  file with valid metadata, which has been found old enough, and whose process has been found to be
  gone. The durations that the call asks to sleep add up to the timeout at most. When it returns,
  the file at the path is read as the metadata that it returns.
* `own_file_removed`: the one other file that the call removes is its own, when the write fails.
-/

namespace AIHub

open Transition Timestamp

/-! ## The text of a lock file -/

/-- `str.replace`, of a part that is not empty; first skip what has been replaced. -/
def replaceFrom (old new : List Char) : Nat → List Char → List Char
  | _, [] => []
  | skip + 1, _ :: cs => replaceFrom old new skip cs
  | 0, c :: cs =>
    if old.isPrefixOf (c :: cs) then new ++ replaceFrom old new (old.length - 1) cs
    else c :: replaceFrom old new 0 cs

/-- `_format_timestamp`, of a time in UTC. -/
def formatTimestamp (instant : Int) : String :=
  String.ofList (replaceFrom "+00:00".toList ['Z'] 0 (isoformatMicroseconds ⟨instant, 0⟩).toList)

namespace LockMetadata

/-- What `_create_exclusive` writes. -/
def text (m : LockMetadata) : String := JsonValue.dumps m.asDict ++ "\n"

section

variable (otherFormats : String → Except HubError ParsedTime)

/-- What `_read_snapshot` makes of the text of a file, unless it raises. -/
def ofText (text : String) : Option LockMetadata :=
  (JsonValue.loads text).bind fun value =>
    (fromMapping (fun text => (fromisoformat otherFormats text).map ParsedTime.offset?)
      value).toOption

/-- The instant that `_parse_timestamp` makes of `created_at`. -/
def created (m : LockMetadata) : Option Int :=
  let text := String.ofList <|
    m.createdAt.toList.flatMap fun c => if c = 'Z' then "+00:00".toList else [c]
  match fromisoformat otherFormats text with
  | .ok (.aware t) => some t.instant
  | .ok (.naive _) | .error _ => none

end

end LockMetadata

/-- The text of a time in UTC ends with its offset. -/
theorem isoformatMicroseconds_utc (instant : Int) : ∃ body : List Char,
    (isoformatMicroseconds ⟨instant, 0⟩).toList = body ++ "+00:00".toList ∧
      ∀ c ∈ body, c ≠ '+' ∧ c ≠ 'Z' := by
  have hpadded : ∀ (width n : Nat), ∀ c ∈ (padded width n).toList, c ≠ '+' ∧ c ≠ 'Z' := by
    intro width n c hc
    have hdigit : Text.isDigit c = true := by
      rw [padded, String.toList_ofList, List.mem_append] at hc
      rcases hc with hc | hc
      · rw [List.eq_of_mem_replicate hc]
        rfl
      · exact JsonValue.isDigit_toDigits hc
    refine ⟨?_, ?_⟩ <;> rintro rfl <;> cases hdigit
  have hoffset : (offsetText 0).toList = "+00:00".toList := by decide +kernel
  rw [toList_isoformatMicroseconds, toList_clock, hoffset]
  simp only [← List.append_assoc, ← List.cons_append]
  refine ⟨_, rfl, ?_⟩
  simp only [List.cons_append, List.append_assoc, List.forall_mem_append, List.forall_mem_cons]
  exact ⟨hpadded 4 _, by decide, hpadded 2 _, by decide, hpadded 2 _, by decide, hpadded 2 _,
    by decide, hpadded 2 _, by decide, hpadded 2 _, by decide, hpadded 6 _⟩

theorem replaceFrom_append {old new body : List Char} {c : Char} {cs : List Char}
    (hold : old = c :: cs) (hbody : c ∉ body) :
    replaceFrom old new 0 (body ++ old) = body ++ new := by
  subst hold
  induction body with
  | nil =>
    have hskip : ∀ ds : List Char, replaceFrom (c :: cs) new ds.length ds = [] := by
      intro ds
      induction ds with
      | nil => rfl
      | cons d ds ih => exact ih
    rw [List.nil_append, replaceFrom, if_pos (by simp), List.length_cons, Nat.add_sub_cancel,
      hskip, List.append_nil, List.nil_append]
  | cons b body ih =>
    obtain ⟨hb, hbody⟩ : c ≠ b ∧ c ∉ body := by simpa [not_or] using hbody
    rw [List.cons_append, replaceFrom, if_neg (by simp [hb]), ih hbody, List.cons_append]

theorem toList_formatTimestamp (instant : Int) : ∃ body : List Char,
    (formatTimestamp instant).toList = body ++ ['Z'] ∧
      (isoformatMicroseconds ⟨instant, 0⟩).toList = body ++ "+00:00".toList ∧ 'Z' ∉ body := by
  obtain ⟨body, htext, hbody⟩ := isoformatMicroseconds_utc instant
  refine ⟨body, ?_, htext, fun hmem => (hbody 'Z' hmem).2 rfl⟩
  rw [formatTimestamp, String.toList_ofList, htext]
  exact replaceFrom_append (show "+00:00".toList = '+' :: "00:00".toList from rfl)
    fun hmem => (hbody '+' hmem).1 rfl

/-- `_parse_timestamp` gives `fromisoformat` the text that `isoformat` has written. -/
theorem formatTimestamp_offset (instant : Int) : String.ofList
    ((formatTimestamp instant).toList.flatMap fun c => if c = 'Z' then "+00:00".toList else [c]) =
      isoformatMicroseconds ⟨instant, 0⟩ := by
  obtain ⟨body, hformat, htext, hbody⟩ := toList_formatTimestamp instant
  have hsame : (body.flatMap fun c => if c = 'Z' then "+00:00".toList else [c]) = body := by
    have hchar : ∀ c ∈ body, (if c = 'Z' then "+00:00".toList else [c]) = [c] := by
      intro c hc
      refine if_neg ?_
      rintro rfl
      exact hbody hc
    rw [List.flatMap_congr hchar, List.flatMap_singleton']
  rw [hformat, List.flatMap_append, hsame, ← String.toList_inj, String.toList_ofList, htext]
  rfl

section

variable {otherFormats : String → Except HubError ParsedTime}

/-- Metadata of an instance is read back, whatever its ids are and whenever it is made. -/
theorem ofText_text (L : ProjectFileLock) (hpid : 0 < L.pid ∧ L.pid < 2 ^ 31) {instant : Int}
    (hinstant : (⟨instant, 0⟩ : Timestamp).IsDatetime) (uuid : Uuid) :
    LockMetadata.ofText otherFormats
        (L.metadata (formatTimestamp instant) (String.ofList uuid.hex)).text =
      some (L.metadata (formatTimestamp instant) (String.ofList uuid.hex)) := by
  have hcanonical :
      (L.metadata (formatTimestamp instant) (String.ofList uuid.hex)).asDict.Canonical := by
    refine ⟨?_, trivial, trivial, ?_, trivial, trivial, trivial⟩
    · simp only [List.map_cons, List.map_nil]
      decide
    · have hlt : L.pid < 10 ^ JsonValue.intMaxStrDigits :=
        hpid.2.trans (lt_of_lt_of_le (by decide : 2 ^ 31 < 10 ^ 10)
          (Nat.pow_le_pow_right (by decide) (by decide)))
      exact (Nat.length_toDigits_le_iff (by decide) (by decide)).2 hlt
  have htoken : (String.ofList uuid.hex).length = 32 := by
    rw [String.length_ofList, Uuid.hex, List.length_map, List.length_range]
  have htime : LockMetadata.parseTimestamp
      (fun text => (fromisoformat otherFormats text).map ParsedTime.offset?)
      (formatTimestamp instant) = .ok () := by
    simp only [LockMetadata.parseTimestamp, formatTimestamp_offset,
      fromisoformat_isoformat otherFormats hinstant]
    rfl
  have hmap := LockMetadata.fromMapping_asDict (m := L.metadata (formatTimestamp instant)
    (String.ofList uuid.hex)) hpid.1 L.project_ok L.task_ok (by
      intro hempty
      rw [L.metadata_ownerToken] at hempty
      rw [hempty] at htoken
      cases htoken) (by rw [L.metadata_ownerToken, htoken]; decide) htime
  rw [LockMetadata.ofText, LockMetadata.text, JsonValue.loads_dumps hcanonical (by simp),
    Option.bind_some, hmap]
  rfl

end

/-! ## One call -/

/-- An instance with its limits, as the constructor checks them. -/
structure LockSettings (T : Type) [Zero T] [LE T] [LT T] where
  lock : ProjectFileLock
  waitTimeout : T
  pollInterval : T
  /-- In microseconds. -/
  staleAfter : Int
  waitTimeout_nonneg : 0 ≤ waitTimeout
  pollInterval_pos : 0 < pollInterval
  staleAfter_nonneg : 0 ≤ staleAfter

/-- Where the call stands, the files, and what it has been told. -/
structure AcquireState (T : Type) where
  pc : LockPc
  directory : LockDirectory Unit
  /-- The text of each file, unless reading it raises. -/
  texts : Nat → Option String
  /-- The last reading of the wall clock. -/
  now : Int
  /-- The last process that was looked up, and whether it was alive. -/
  found : Option (Nat × Bool)
  /-- No later reading of the monotonic clock is before this one. -/
  clock : T
  deadline : T
  /-- The durations that the call has asked to sleep. -/
  sleeps : List T

/-- A step of the call, with what the environment answers. -/
inductive AcquireEvent (T : Type) where
  | prepare (reading : T)
  | fail (e : LockError)
  | create (now : Int) (uuid : Uuid) (signature : StatSignature)
  /-- A write that is not complete leaves any text. -/
  | write (outcome : WriteOutcome) (signature : StatSignature) (text : Option String)
  | lookup
  | read
  | judge (now : Int) (alive : Bool)
  | compare
  | unlink
  | poll (reading : T)
  /-- An exception that the call does not catch, or the end of the process. -/
  | abort

section

variable {T : Type} [AddCommGroup T] [LinearOrder T]

/-- The age test of `_is_stale`. -/
def LockSettings.isAged (A : LockSettings T) (otherFormats : String → Except HubError ParsedTime)
    (now : Int) (m : LockMetadata) : Bool :=
  (m.created otherFormats).any fun created => A.staleAfter ≤ now - created

namespace AcquireState

variable (A : LockSettings T) (otherFormats : String → Except HubError ParsedTime)

/-- The step of the instance. -/
def lockStep (s : AcquireState T) : AcquireEvent T → LockStep
  | .prepare _ => .prepare
  | .fail e => .fail e
  | .create now uuid signature => .create (formatTimestamp now) (String.ofList uuid.hex) signature
  | .write outcome signature _ => .write outcome signature
  | .lookup => .lookup
  | .read => .read
  | .judge now alive => .judge (s.pc.judged.any fun m => A.isAged otherFormats now m) alive
  | .compare => .compare
  | .unlink => .unlink
  | .poll reading => if s.deadline - reading ≤ 0 then .expire else .sleep
  | .abort => .crash

/-- What the environment can answer: the monotonic clock does not go back, and the wall clock gives
times of a `datetime`. -/
def Allows (s : AcquireState T) : AcquireEvent T → Prop
  | .prepare reading | .poll reading => s.clock ≤ reading
  | .create now _ _ | .judge now _ => (⟨now, 0⟩ : Timestamp).IsDatetime
  | .abort => s.pc.running = true ∧ s.pc.holds = false
  | .fail _ | .write _ _ _ | .lookup | .read | .compare | .unlink => True

instance (s : AcquireState T) (e : AcquireEvent T) : Decidable (s.Allows e) := by
  unfold Allows
  split <;> infer_instance

/-- What the step leaves, besides the files and where the call stands. -/
def record (s : AcquireState T) : AcquireEvent T → AcquireState T
  | .prepare reading =>
    { s with clock := reading, deadline := reading + A.waitTimeout, sleeps := [] }
  | .create now _ _ =>
    match s.directory.entry with
    | none => { s with now, texts := Function.update s.texts s.directory.count (some "") }
    | some _ => { s with now }
  | .write outcome _ text =>
    match s.pc with
    | .writing m f =>
      let written := if outcome = .complete then some m.text else text
      { s with texts := Function.update s.texts f written }
    | _ => s
  | .judge now alive =>
    match s.pc.judged with
    | some m =>
      -- The process is looked up only if the metadata is old enough.
      if A.isAged otherFormats now m then { s with now, found := some (m.pid, alive) }
      else { s with now }
    | none => s
  | .poll reading =>
    let remaining := s.deadline - reading
    if remaining ≤ 0 then { s with clock := reading }
    else
      let duration := min A.pollInterval remaining
      { s with clock := reading + duration, sleeps := duration :: s.sleeps }
  | .fail _ | .lookup | .read | .compare | .unlink | .abort => s

/-- Take the call past one step. -/
def next (s : AcquireState T) (e : AcquireEvent T) : Option (AcquireState T) :=
  if s.Allows e then
    (lockNext () A.lock (s.lockStep A otherFormats e) s.pc s.directory).map fun r =>
      { s.record A otherFormats e with pc := r.1, directory := r.2 }
  else none

/-- The call has begun. The path names a file with any content, or none. -/
structure Initial (s : AcquireState T) : Prop where
  pc : s.pc = .preparing
  entry : ∀ f, s.directory.entry = some f → f < s.directory.count
  creator : ∀ f, (s.directory.files f).creator = none
  metadata : ∀ f, (s.directory.files f).regular = true →
    (s.directory.files f).metadata = (s.texts f).bind (LockMetadata.ofText otherFormats)
  deadline : s.deadline = s.clock
  sleeps : s.sleeps = []

/-- One `acquire` call, with no other actor at the path. -/
def system : System (AcquireState T) (AcquireEvent T) :=
  .ofNext (Initial otherFormats) (next A otherFormats)

end AcquireState

end

/-! ## What the call has seen -/

namespace LockDirectory

variable {ι : Type}

/-- The path names the regular file `f`. -/
def Names (d : LockDirectory ι) (f : Nat) : Prop :=
  d.entry = some f ∧ (d.files f).regular = true

end LockDirectory

/-- The file that a `_read_snapshot` call has seen is the one at the path. -/
def Reading.At {ι : Type} (d : LockDirectory ι) : Reading → Prop
  | starting => True
  | statted _ => ∃ f, d.Names f
  | opened _ f | checked _ f => d.Names f

/-- So is the file that the call is about to remove, and its metadata is what has been read; and no
`release` call runs. -/
def LockPc.At {ι : Type} (d : LockDirectory ι) : LockPc → Prop
  | reading r | rereading _ r => r.At d
  | comparing r | recovering r =>
    d.Names r.file ∧ (d.files r.file).metadata = some r.metadata
  | writing m f | discarding m f => d.Names f
  | held m f _ => d.Names f ∧ (d.files f).metadata = some m
  | idle _ | preparing | looping | inspecting | judging _ | waiting _ => True
  | releaseReading _ _ _ | releaseComparing _ _ _ | releaseUnlinking _ _ => False

/-- Positions of a call that has not created a file, and of one that has returned. -/
def LockPc.isReader : LockPc → Bool
  | preparing | looping | inspecting | reading _ | judging _ | rereading _ _ | comparing _
  | recovering _ | waiting _ | held _ _ _ => true
  | idle _ | writing _ _ | discarding _ _ | releaseReading _ _ _ | releaseComparing _ _ _
  | releaseUnlinking _ _ => false

section

variable {ι : Type} {i : ι} {L : ProjectFileLock} {a : LockStep} {pc pc' : LockPc}
  {d d' : LockDirectory ι}

theorem Reading.At.read {r : Reading} (h : r.At d) :
    (∀ r', d.readSnapshot r = .ongoing r' → r'.At d) ∧
      ∀ s, d.readSnapshot r = .snapshot s →
        d.Names s.file ∧ (d.files s.file).metadata = some s.metadata := by
  cases r with
  | starting =>
    simp only [LockDirectory.readSnapshot]
    split
    · exact ⟨fun _ hr => (by cases hr), fun _ hs => (by cases hs)⟩
    · split
      · refine ⟨fun _ hr => ?_, fun _ hs => (by cases hs)⟩
        cases hr
        exact ⟨_, ‹_›, ‹_›⟩
      · exact ⟨fun _ hr => (by cases hr), fun _ hs => (by cases hs)⟩
  | statted signature =>
    obtain ⟨f, hentry, hregular⟩ := h
    simp only [LockDirectory.readSnapshot, hentry]
    refine ⟨fun _ hr => ?_, fun _ hs => (by cases hs)⟩
    cases hr
    exact ⟨hentry, hregular⟩
  | opened signature f =>
    simp only [LockDirectory.readSnapshot]
    split
    · refine ⟨fun _ hr => ?_, fun _ hs => (by cases hs)⟩
      cases hr
      exact h
    · exact ⟨fun _ hr => (by cases hr), fun _ hs => (by cases hs)⟩
  | checked signature f =>
    simp only [LockDirectory.readSnapshot]
    split
    · exact ⟨fun _ hr => (by cases hr), fun _ hs => (by cases hs)⟩
    · refine ⟨fun _ hr => (by cases hr), fun _ hs => ?_⟩
      cases hs
      exact ⟨h, ‹_›⟩

/-- Alone at the path, a call sees what is there. -/
theorem lockNext_at (h : lockNext i L a pc d = some (pc', d')) (hpc : pc.At d)
    (hrelease : a ≠ .release) : pc'.At d' := by
  revert h
  fun_cases lockNext i L a pc d
  all_goals
    intro h
    simp only [Option.some.injEq, Prod.mk.injEq, reduceCtorEq] at h
    try obtain ⟨rfl, rfl⟩ := h
  case case6 =>
    -- The exclusive create.
    exact ⟨rfl, by simp [LockDirectory.create]⟩
  case case8 m f g | case10 m f g =>
    exact ⟨hpc.1, by simpa [LockDirectory.write] using hpc.2⟩
  case case9 m f g =>
    exact ⟨⟨hpc.1, by simpa [LockDirectory.write] using hpc.2⟩, by simp [LockDirectory.write]⟩
  case case13 r r' hread => exact hpc.read.1 r' hread
  case case18 m r r' hread => exact hpc.read.1 r' hread
  case case12 | case17 => split <;> trivial
  case case21 m r s hread =>
    split
    · exact hpc.read.2 s hread
    · trivial
  case case22 s =>
    split
    · exact hpc
    · trivial
  case case2 => exact hpc
  case case28 => exact absurd rfl hrelease
  case case29 | case30 | case31 | case32 | case33 | case34 | case35 => exact hpc.elim
  all_goals trivial

/-- A call reads only files that it has read before, or the one that it has completed. -/
theorem lockNext_reader (h : lockNext i L a pc d = some (pc', d')) (hpc : pc.At d)
    (hacquire : a ≠ .acquire) (hreader : pc'.isReader = true) :
    (pc.isReader = true ∧ (d' = d ∨ d'.entry = none)) ∨
      ∃ m f signature, pc = .writing m f ∧ a = .write .complete signature ∧
        pc' = .held m f none ∧ d' = d.write f signature (some m) := by
  revert h
  fun_cases lockNext i L a pc d
  all_goals
    intro h
    simp only [Option.some.injEq, Prod.mk.injEq, reduceCtorEq] at h
    try obtain ⟨rfl, rfl⟩ := h
  case case9 m f signature => exact .inr ⟨m, f, signature, rfl, rfl, rfl, rfl⟩
  case case1 | case2 => exact absurd rfl hacquire
  case case24 => exact .inl ⟨rfl, .inr rfl⟩
  case case29 | case30 | case31 | case32 | case33 | case34 | case35 => exact hpc.elim
  case case4 | case5 | case6 | case8 | case10 | case11 | case26 | case27 | case28 | case36 =>
    cases hreader
  all_goals exact .inl ⟨rfl, .inl rfl⟩

/-- The wall clock is read when a file is created and when metadata is judged. -/
theorem lockNext_create {createdAt ownerToken : String} {signature : StatSignature}
    (h : lockNext i L (.create createdAt ownerToken signature) pc d = some (pc', d')) :
    pc = .looping := by
  cases pc with
  | looping => rfl
  | _ => simp [lockNext] at h

theorem lockNext_judge {aged alive : Bool}
    (h : lockNext i L (.judge aged alive) pc d = some (pc', d')) :
    ∃ m, pc = .judging m ∧
      pc' = if aged && !alive then .rereading m .starting else .waiting m.task := by
  cases pc with
  | judging m =>
    cases h
    exact ⟨m, rfl, rfl⟩
  | _ => simp [lockNext] at h

end

/-! ## The invariant -/

namespace AcquireState

section

variable {T : Type} [AddCommGroup T] [LinearOrder T] {A : LockSettings T}
  {otherFormats : String → Except HubError ParsedTime} {s t : AcquireState T} {e : AcquireEvent T}

theorem next_ok (h : next A otherFormats s e = some t) : s.Allows e ∧ ∃ pc d,
    lockNext () A.lock (s.lockStep A otherFormats e) s.pc s.directory = some (pc, d) ∧
      t = { s.record A otherFormats e with pc, directory := d } := by
  unfold next at h
  split_ifs at h with hallows
  obtain ⟨⟨pc, d⟩, hnext, rfl⟩ := Option.map_eq_some_iff.1 h
  exact ⟨hallows, pc, d, hnext, rfl⟩

theorem lockStep_ne : s.lockStep A otherFormats e ≠ .acquire ∧
    s.lockStep A otherFormats e ≠ .release := by
  cases e with
  | poll reading =>
    simp only [lockStep]
    split_ifs <;> exact ⟨nofun, nofun⟩
  | _ => exact ⟨nofun, nofun⟩

/-- New metadata has a time and a token as the code writes them. -/
theorem lockStep_create {createdAt ownerToken : String} {signature : StatSignature}
    (hallows : s.Allows e)
    (h : s.lockStep A otherFormats e = .create createdAt ownerToken signature) :
    ∃ now uuid, (⟨now, 0⟩ : Timestamp).IsDatetime ∧ createdAt = formatTimestamp now ∧
      ownerToken = String.ofList (Uuid.hex uuid) := by
  cases e with
  | create now uuid signature =>
    simp only [lockStep, LockStep.create.injEq] at h
    exact ⟨now, uuid, hallows, h.1.symm, h.2.1.symm⟩
  | poll reading =>
    simp only [lockStep] at h
    split_ifs at h
  | _ => cases h

/-- A reader changes no text of the file at the path. -/
theorem record_texts (hreader : s.pc.isReader = true) {f : Nat}
    (hf : s.directory.entry = some f) : (s.record A otherFormats e).texts f = s.texts f := by
  cases e with
  | create now uuid signature =>
    simp only [record, hf]
  | write outcome signature text =>
    simp only [record]
    split
    · rename_i hpc
      rw [hpc] at hreader
      cases hreader
    · rfl
  | judge now alive =>
    simp only [record]
    split
    · split_ifs <;> rfl
    · rfl
  | poll reading =>
    simp only [record]
    split_ifs <;> rfl
  | _ => rfl

/-- What holds at every step of the call. -/
structure Acquiring (A : LockSettings T) (otherFormats : String → Except HubError ParsedTime)
    (s : AcquireState T) : Prop where
  sees : s.pc.At s.directory
  text : s.pc.isReader = true → ∀ f, s.directory.Names f →
    (s.directory.files f).metadata = (s.texts f).bind (LockMetadata.ofText otherFormats)
  stale : ∀ m, s.pc.stale = some m →
    A.isAged otherFormats s.now m = true ∧ s.found = some (m.pid, false)
  own : ∀ m f, s.pc.owner = some (m, f) → (s.directory.files f).creator = some () ∧
    LockMetadata.ofText otherFormats m.text = some m
  slept : s.sleeps.sum ≤ A.waitTimeout
  remaining : s.sleeps.sum + (s.deadline - s.clock) ≤ A.waitTimeout

theorem Initial.acquiring (h : Initial otherFormats s) : Acquiring A otherFormats s where
  sees := by rw [h.pc]; trivial
  text _ f hf := h.metadata f hf.2
  stale m hm := by rw [h.pc] at hm; cases hm
  own m f hm := by rw [h.pc] at hm; cases hm
  slept := by
    rw [h.sleeps, List.sum_nil]
    exact A.waitTimeout_nonneg
  remaining := by
    rw [h.sleeps, h.deadline, List.sum_nil, sub_self, add_zero]
    exact A.waitTimeout_nonneg

theorem Acquiring.text_step (hs : Acquiring A otherFormats s)
    (h : next A otherFormats s e = some t) (hreader : t.pc.isReader = true) {f : Nat}
    (hf : t.directory.Names f) : (t.directory.files f).metadata =
      (t.texts f).bind (LockMetadata.ofText otherFormats) := by
  obtain ⟨-, pc, d, hnext, rfl⟩ := next_ok h
  obtain ⟨hpc, rfl | hnone⟩ | ⟨m, g, signature, hpc, hstep, rfl, rfl⟩ :=
    lockNext_reader hnext hs.sees lockStep_ne.1 hreader
  · dsimp only
    rw [record_texts hpc hf.1]
    exact hs.text hpc f hf
  · have hentry : d.entry = some f := hf.1
    rw [hnone] at hentry
    cases hentry
  · -- The instance has written its file, which is the one at the path.
    have hsees := hs.sees
    rw [hpc] at hsees
    obtain rfl : g = f := Option.some.inj (hsees.1.symm.trans hf.1)
    have hown := (hs.own m g (by rw [hpc]; rfl)).2
    cases e with
    | write outcome signature' text =>
      cases hstep
      simp [record, hpc, LockDirectory.write, hown]
    | poll reading =>
      simp only [lockStep] at hstep
      split_ifs at hstep
    | _ => cases hstep

theorem Acquiring.stale_step (hs : Acquiring A otherFormats s)
    (h : next A otherFormats s e = some t) {m : LockMetadata} (hm : t.pc.stale = some m) :
    A.isAged otherFormats t.now m = true ∧ t.found = some (m.pid, false) := by
  obtain ⟨-, pc, d, hnext, rfl⟩ := next_ok h
  have hlooks : Looks s.directory (s.lockStep A otherFormats e) s.pc pc := by
    obtain ⟨hlooks, -⟩ | ⟨_, _, _, -, -, -, rfl, -⟩ | ⟨_, _, _, _, -, -, hnone, -⟩ |
      ⟨-, -, -, hnone, -⟩ := lockNext_cases hnext
    · exact hlooks
    · cases hm
    · rw [LockPc.judged_of_stale hm] at hnone
      cases hnone
    · rw [LockPc.judged_of_stale hm] at hnone
      cases hnone
  rcases hlooks.stale m hm with hstale | ⟨hpc, hstep⟩
  · have hsame : (s.record A otherFormats e).now = s.now ∧
        (s.record A otherFormats e).found = s.found := by
      cases e with
      | create now uuid signature =>
        rw [lockNext_create hnext] at hstale
        cases hstale
      | judge now alive =>
        obtain ⟨m', hpc, -⟩ := lockNext_judge hnext
        rw [hpc] at hstale
        cases hstale
      | write outcome signature text =>
        simp only [record]
        split <;> exact ⟨rfl, rfl⟩
      | poll reading =>
        simp only [record]
        split_ifs <;> exact ⟨rfl, rfl⟩
      | _ => exact ⟨rfl, rfl⟩
    dsimp only
    rw [hsame.1, hsame.2]
    exact hs.stale m hstale
  · cases e with
    | judge now alive =>
      simp only [lockStep, LockStep.judge.injEq] at hstep
      obtain ⟨haged, rfl⟩ := hstep
      have hjudged : s.pc.judged = some m := by
        rw [hpc]
        rfl
      rw [hjudged, Option.any_some] at haged
      simp only [record, hjudged, haged, if_true]
      exact ⟨trivial, trivial⟩
    | poll reading =>
      simp only [lockStep] at hstep
      split_ifs at hstep
    | _ => cases hstep

theorem Acquiring.own_step (hpid : 0 < A.lock.pid ∧ A.lock.pid < 2 ^ 31)
    (hs : Acquiring A otherFormats s) (h : next A otherFormats s e = some t) {m : LockMetadata}
    {f : Nat} (hm : t.pc.owner = some (m, f)) :
    (t.directory.files f).creator = some () ∧
      LockMetadata.ofText otherFormats m.text = some m := by
  obtain ⟨hallows, pc, d, hnext, rfl⟩ := next_ok h
  dsimp only at hm ⊢
  obtain ⟨hlooks, rfl⟩ | ⟨createdAt, ownerToken, g, hstep, -, -, rfl, rfl⟩ |
    ⟨m', f', g, v, hpc, howner, -, -, rfl⟩ | ⟨-, -, howner, -, -⟩ := lockNext_cases hnext
  · rcases hlooks.owner with howner | howner <;> rw [howner] at hm
    · exact hs.own m f hm
    · cases hm
  · obtain ⟨now, uuid, hnow, rfl, rfl⟩ := lockStep_create hallows hstep
    simp only [LockPc.owner, Option.some.injEq, Prod.mk.injEq] at hm
    obtain ⟨rfl, rfl⟩ := hm
    exact ⟨by simp [LockDirectory.create], ofText_text A.lock hpid hnow uuid⟩
  · rw [howner] at hm
    cases hm
    rw [LockDirectory.write_creator]
    exact hs.own m f (by rw [hpc]; rfl)
  · rw [howner] at hm
    cases hm

/-- What is left until the deadline bounds each sleep, and each sleep brings the clock closer to the
deadline. -/
theorem Acquiring.time_step [IsOrderedAddMonoid T] (hs : Acquiring A otherFormats s)
    (hallows : s.Allows e) :
    (s.record A otherFormats e).sleeps.sum ≤ A.waitTimeout ∧
      (s.record A otherFormats e).sleeps.sum + ((s.record A otherFormats e).deadline -
        (s.record A otherFormats e).clock) ≤ A.waitTimeout := by
  have hsame := And.intro hs.slept hs.remaining
  cases e with
  | prepare reading =>
    simp only [record, List.sum_nil, add_sub_cancel_left, zero_add]
    exact ⟨A.waitTimeout_nonneg, le_rfl⟩
  | poll reading =>
    have hreading : s.sleeps.sum + (s.deadline - reading) ≤ A.waitTimeout :=
      (add_le_add_right (sub_le_sub_left hallows s.deadline) s.sleeps.sum).trans hs.remaining
    simp only [record]
    split_ifs with hexpired
    · exact ⟨hs.slept, hreading⟩
    · rw [List.sum_cons]
      refine ⟨?_, ?_⟩
      · have hduration := min_le_right A.pollInterval (s.deadline - reading)
        rw [add_comm]
        exact (add_le_add_right hduration s.sleeps.sum).trans hreading
      · have hcancel : min A.pollInterval (s.deadline - reading) + s.sleeps.sum +
            (s.deadline - (reading + min A.pollInterval (s.deadline - reading))) =
              s.sleeps.sum + (s.deadline - reading) := by
          abel
        rw [hcancel]
        exact hreading
  | create now uuid signature =>
    simp only [record]
    split <;> exact hsame
  | write outcome signature text =>
    simp only [record]
    split <;> exact hsame
  | judge now alive =>
    simp only [record]
    split
    · split_ifs <;> exact hsame
    · exact hsame
  | _ => exact hsame

theorem acquiring_invariant [IsOrderedAddMonoid T]
    (hpid : 0 < A.lock.pid ∧ A.lock.pid < 2 ^ 31) :
    (system A otherFormats).Invariant (Acquiring A otherFormats) where
  init s hs := hs.acquiring
  step s e t hs hst := {
    sees := by
      obtain ⟨-, pc, d, hnext, rfl⟩ := next_ok hst
      exact lockNext_at hnext hs.sees lockStep_ne.2
    text := fun hreader f hf => hs.text_step hst hreader hf
    stale := fun m hm => hs.stale_step hst hm
    own := fun m f hm => hs.own_step hpid hst hm
    slept := by
      obtain ⟨hallows, pc, d, -, rfl⟩ := next_ok hst
      exact (hs.time_step hallows).1
    remaining := by
      obtain ⟨hallows, pc, d, -, rfl⟩ := next_ok hst
      exact (hs.time_step hallows).2 }

/-- The call removes the file `f`. -/
def Removes (s t : AcquireState T) (f : Nat) : Prop :=
  s.directory.entry = some f ∧ t.directory.entry ≠ some f

/-- The file is a regular one, with valid metadata that has been found old enough, and whose process
has been found to be gone. -/
structure Recoverable (A : LockSettings T)
    (otherFormats : String → Except HubError ParsedTime) (s : AcquireState T) (f : Nat) : Prop where
  regular : (s.directory.files f).regular = true
  metadata : ∃ m, (s.texts f).bind (LockMetadata.ofText otherFormats) = some m ∧
    A.isAged otherFormats s.now m = true ∧ s.found = some (m.pid, false)

/-- The call has created the file, its write has failed, and now the call raises. -/
structure Discards (s t : AcquireState T) (f : Nat) : Prop where
  created : (s.directory.files f).creator = some ()
  failed : ∃ m, s.pc = .discarding m f
  raises : t.pc = .idle (some .os)

theorem Acquiring.removes (hs : Acquiring A otherFormats s)
    (h : next A otherFormats s e = some t) {f : Nat} (hf : Removes s t f) :
    Recoverable A otherFormats s f ∨ Discards s t f := by
  obtain ⟨hentry, hgone⟩ := hf
  obtain ⟨-, pc, d, hnext, rfl⟩ := next_ok h
  obtain ⟨-, rfl⟩ | ⟨_, _, _, -, -, hnone, -, -⟩ | ⟨_, _, _, _, -, -, -, -, rfl⟩ |
    ⟨hunlinks, hstep, -, -, -⟩ := lockNext_cases hnext
  · exact absurd hentry hgone
  · rw [hnone] at hentry
    cases hentry
  · exact absurd hentry hgone
  · rw [hstep] at hnext
    have hsees := hs.sees
    cases hpc : s.pc with
    | discarding m g =>
      rw [hpc] at hsees hnext
      obtain rfl : g = f := Option.some.inj (hsees.1.symm.trans hentry)
      cases hnext
      exact .inr ⟨(hs.own m g (by rw [hpc]; rfl)).1, ⟨m, hpc⟩, rfl⟩
    | recovering r =>
      rw [hpc] at hsees
      obtain ⟨hnames, hmetadata⟩ := hsees
      obtain rfl : r.file = f := Option.some.inj (hnames.1.symm.trans hentry)
      have htext := hs.text (by rw [hpc]; rfl) r.file hnames
      exact .inl ⟨hnames.2, r.metadata, htext.symm.trans hmetadata,
        hs.stale r.metadata (by rw [hpc]; rfl)⟩
    | releaseUnlinking m g =>
      rw [hpc] at hsees
      exact hsees.elim
    | _ =>
      rw [hpc] at hunlinks
      cases hunlinks

/-- Alone at the path, an `acquire` call removes only a file that is recoverable, or its own; it
sleeps no longer than its timeout; and when it returns, the file at the path is read as the metadata
that it returns. -/
theorem acquire_alone [IsOrderedAddMonoid T] (hpid : 0 < A.lock.pid ∧ A.lock.pid < 2 ^ 31)
    (h : (system A otherFormats).Reachable s) :
    (∀ e t f, (system A otherFormats).step s e t → Removes s t f →
      Recoverable A otherFormats s f ∨ Discards s t f) ∧
    s.sleeps.sum ≤ A.waitTimeout ∧
    ∀ m f raised, s.pc = .held m f raised → s.directory.Names f ∧
      (s.texts f).bind (LockMetadata.ofText otherFormats) = some m := by
  have hs := (acquiring_invariant hpid).reachable h
  refine ⟨fun e t f hst hf => hs.removes hst hf, hs.slept, fun m f raised hpc => ?_⟩
  have hsees := hs.sees
  rw [hpc] at hsees
  exact ⟨hsees.1, (hs.text (by rw [hpc]; rfl) f hsees.1).symm.trans hsees.2⟩

end

end AcquireState

/-! ## Two calls -/

namespace Sample

/-- Of the formats of a time only the one that is written. -/
def noOtherFormats (_text : String) : Except HubError ParsedTime :=
  .error (.value "Invalid isoformat string")

/-- A timeout of three seconds, a look every two, and locks that are stale after six hours. -/
def patientLock : LockSettings Int where
  lock := firstLock
  waitTimeout := 3000
  pollInterval := 2000
  staleAfter := 21600000000
  waitTimeout_nonneg := by decide
  pollInterval_pos := by decide
  staleAfter_nonneg := by decide

/-- The lock of a process from 2026-01-01. -/
def oldMetadata : LockMetadata where
  project := "website"
  task := "TASK-0"
  createdAt := formatTimestamp 1767225600000000
  pid := 10
  ownerToken := "k0"

/-- The call begins with this text, if any, at the path. -/
def begun (text : Option String) : AcquireState Int where
  pc := .preparing
  directory := {
    files := fun _ =>
      ⟨true, ⟨1, 1, 150, 0⟩, text.bind (LockMetadata.ofText noOtherFormats), none⟩
    count := 1
    entry := text.map fun _ => 0 }
  texts := fun _ => text
  now := 0
  found := none
  clock := 0
  deadline := 0
  sleeps := []

theorem begun_initial (text : Option String) :
    AcquireState.Initial noOtherFormats (begun text) where
  pc := rfl
  entry f hf := by
    obtain ⟨_, _, rfl⟩ := Option.map_eq_some_iff.1 hf
    exact Nat.zero_lt_one
  creator _ := rfl
  metadata _ _ := rfl
  deadline := rfl
  sleeps := rfl

/-- The path is taken, and the file is read and judged on 2026-02-01. -/
def looks (alive : Bool) : List (AcquireEvent Int) :=
  [.create 1769904000000000 0 ⟨1, 0, 0, 0⟩, .lookup, .read, .read, .read, .read,
    .judge 1769904000000000 alive]

/-- The owner is alive at first. When it is gone, its file is removed and a new one is made. -/
def waitsAndRecovers : List (AcquireEvent Int) :=
  .prepare 500 :: (looks true ++ [.poll 600] ++ looks false ++
    [.read, .read, .read, .read, .compare, .unlink, .create 1769904000000000 1 ⟨1, 2, 0, 1⟩,
      .write .complete ⟨1, 2, 150, 2⟩ none])

def afterRecovery : AcquireState Int :=
  System.execD (AcquireState.next patientLock noOtherFormats) (begun (some oldMetadata.text))
    waitsAndRecovers

/-- The file is created, and the write leaves a part of the text. -/
def failsToWrite : List (AcquireEvent Int) :=
  [.prepare 500, .create 1769904000000000 0 ⟨1, 2, 0, 1⟩, .write .failed ⟨1, 2, 1, 2⟩ (some "[")]

def beforeDiscard : AcquireState Int :=
  System.execD (AcquireState.next patientLock noOtherFormats) (begun none) failsToWrite

end Sample

open Sample in
/-- The call waits for two seconds, recovers the lock and returns. -/
theorem acquire_alone_sample : afterRecovery.sleeps.sum ≤ 3000 ∧
    afterRecovery.directory.Names 1 ∧
    (afterRecovery.texts 1).bind (LockMetadata.ofText noOtherFormats) = some
      (firstLock.metadata (formatTimestamp 1769904000000000) (String.ofList (Uuid.hex 1))) := by
  have hr : (AcquireState.system patientLock noOtherFormats).Reachable afterRecovery :=
    ⟨_, waitsAndRecovers, begun_initial _, System.run_execD (by decide +kernel)⟩
  obtain ⟨-, hslept, hread⟩ := AcquireState.acquire_alone ⟨by decide, by decide⟩ hr
  exact ⟨hslept, hread _ 1 none (by decide +kernel)⟩

open Sample in
/-- The write of a new lock fails, and the call removes its own file, which holds a part of a
text. -/
theorem own_file_removed : ¬ ∀ (A : LockSettings Int)
    (otherFormats : String → Except HubError ParsedTime) (s t : AcquireState Int)
    (e : AcquireEvent Int) (f : Nat), (AcquireState.system A otherFormats).Reachable s →
    (AcquireState.system A otherFormats).step s e t → AcquireState.Removes s t f →
    ∃ m, (s.texts f).bind (LockMetadata.ofText otherFormats) = some m := by
  intro h
  obtain ⟨m, hm⟩ := h patientLock noOtherFormats beforeDiscard
    (System.execD (AcquireState.next patientLock noOtherFormats) beforeDiscard [.unlink])
    .unlink 1 ⟨_, failsToWrite, begun_initial _, System.run_execD (by decide +kernel)⟩
    (System.step_execD (by decide +kernel)) ⟨by decide +kernel, by decide +kernel⟩
  have hnone : (beforeDiscard.texts 1).bind (LockMetadata.ofText noOtherFormats) = none := by
    decide +kernel
  rw [hnone] at hm
  cases hm

end AIHub
