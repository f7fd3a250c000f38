import AIHub.Locks.FileLock

/-!
# Releasing a project lock

Whatever the other instances do at the lock path, a file that an instance has created and that
is still there is the one it knows of (`LockState.Tidy`): while it acquires nothing twice and its
process lives, it has no file at the path before `acquire` has made one, nor after `release` has
returned or raised (`Tidy.absent`).

A file leaves the path once and for all, since a new one has a new number. So when `release`
finds a file of its own instance, it has found it at each of its calls, with the signature and
the metadata it was left with, and removes it.
-/

namespace AIHub

/-- What a `_read_snapshot` call that began on the file `f` has seen of it. -/
def Reading.Fits {ι : Type} (d : LockDirectory ι) (f : Nat) : Reading → Prop
  | starting => True
  | statted signature => signature = (d.files f).signature
  | opened signature f' | checked signature f' => f' = f ∧ signature = (d.files f).signature

/-- Where an instance can stand while its file `f` is at the path. -/
def LockPc.Fits {ι : Type} (d : LockDirectory ι) (f : Nat) : LockPc → Prop
  | writing _ f' | discarding _ f' => f' = f ∧ (d.files f).regular = true
  | held m f' none =>
    f' = f ∧ (d.files f).regular = true ∧ (d.files f).metadata = some m
  | releaseReading m f' r =>
    f' = f ∧ (d.files f).regular = true ∧ (d.files f).metadata = some m ∧ r.Fits d f
  | releaseComparing _ f' r => f' = f ∧ r.signature = (d.files f).signature
  | releaseUnlinking _ f' => f' = f
  | held _ _ (some _) | idle _ | preparing | looping | inspecting | reading _ | judging _
  | rereading _ _ | comparing _ | recovering _ | waiting _ => False

section

variable {ι : Type} {i : ι} {L : ProjectFileLock} {a : LockStep} {pc pc' : LockPc}
  {d d' : LockDirectory ι} {f : Nat} {m : LockMetadata}

/-- Reading the file at the path does not fail, and gives its metadata and its signature. -/
theorem Reading.Fits.read {r : Reading} (hr : r.Fits d f) (hentry : d.entry = some f)
    (hregular : (d.files f).regular = true) (hm : (d.files f).metadata = some m) :
    (∃ r', d.readSnapshot r = .ongoing r' ∧ r'.Fits d f) ∨
      d.readSnapshot r = .snapshot ⟨m, (d.files f).signature, f⟩ := by
  cases r with
  | starting =>
    refine .inl ⟨.statted (d.files f).signature, ?_, rfl⟩
    simp [LockDirectory.readSnapshot, hentry, hregular]
  | statted g =>
    refine .inl ⟨.opened g f, ?_, rfl, hr⟩
    simp [LockDirectory.readSnapshot, hentry]
  | opened g f' =>
    obtain ⟨rfl, rfl⟩ := hr
    refine .inl ⟨.checked (d.files f').signature f', ?_, rfl, rfl⟩
    simp [LockDirectory.readSnapshot]
  | checked g f' =>
    obtain ⟨rfl, rfl⟩ := hr
    exact .inr (by simp [LockDirectory.readSnapshot, hm])

/-- The step of an instance keeps it where it can stand while its file is at the path. -/
theorem lockNext_fits (h : lockNext i L a pc d = some (pc', d')) (hcrash : a ≠ .crash)
    (hacquire : a = .acquire → pc.running = false)
    (hpc : ∀ f, d.entry = some f → (d.files f).creator = some i → pc.Fits d f)
    (hentry : d'.entry = some f) (hcreator : (d'.files f).creator = some i) :
    pc'.Fits d' f := by
  revert h
  fun_cases lockNext i L a pc d
  all_goals
    intro h
    simp only [Option.some.injEq, Prod.mk.injEq, reduceCtorEq] at h
    try obtain ⟨rfl, rfl⟩ := h
  case case2 => cases hacquire rfl
  case case6 =>
    -- The exclusive create.
    cases hentry
    exact ⟨rfl, by simp [LockDirectory.create]⟩
  case case8 m f' g | case10 m f' g =>
    have hfits := hpc f hentry (by simpa [LockDirectory.write_creator] using hcreator)
    obtain ⟨rfl, hregular⟩ := hfits
    exact ⟨rfl, by simpa [LockDirectory.write] using hregular⟩
  case case9 m f' g =>
    have hfits := hpc f hentry (by simpa [LockDirectory.write_creator] using hcreator)
    obtain ⟨rfl, hregular⟩ := hfits
    exact ⟨rfl, by simpa [LockDirectory.write] using hregular, by simp [LockDirectory.write]⟩
  case case11 | case24 | case35 => cases hentry
  case case28 m f' raised =>
    have hfits := hpc f hentry hcreator
    cases raised with
    | none => exact ⟨hfits.1, hfits.2.1, hfits.2.2, trivial⟩
    | some e => exact False.elim hfits
  case case29 m f' r r' hread =>
    obtain ⟨rfl, hregular, hm, hr⟩ := hpc f hentry hcreator
    rcases hr.read hentry hregular hm with ⟨r'', h, hr'⟩ | h
    · rw [hread] at h
      cases h
      exact ⟨rfl, hregular, hm, hr'⟩
    · rw [hread] at h
      cases h
  case case30 m f' r hread | case31 m f' r hread =>
    obtain ⟨rfl, hregular, hm, hr⟩ := hpc f hentry hcreator
    rcases hr.read hentry hregular hm with ⟨_, h, -⟩ | h <;> rw [hread] at h <;> cases h
  case case32 m f' r s hread =>
    obtain ⟨rfl, hregular, hm, hr⟩ := hpc f hentry hcreator
    rcases hr.read hentry hregular hm with ⟨r'', h, -⟩ | h
    · rw [hread] at h
      cases h
    · rw [hread] at h
      cases h
      rw [if_pos rfl]
      exact ⟨rfl, rfl⟩
  case case33 m f' s =>
    obtain ⟨rfl, hs⟩ := hpc f hentry hcreator
    rw [if_pos (by simp [LockDirectory.unchanged, hentry, hs])]
    rfl
  case case34 hnone =>
    rw [hnone] at hentry
    cases hentry
  case case36 => exact absurd rfl hcrash
  all_goals exact absurd (hpc f hentry hcreator) (by simp [LockPc.Fits])

end

section

variable {ι : Type} [DecidableEq ι] {locks : ι → ProjectFileLock} {s t : LockState ι} {i j : ι}
  {a : LockStep}

/-- A file of the instance at the path is the one that it knows of. -/
def LockState.Tidy (i : ι) (s : LockState ι) : Prop :=
  ∀ f, s.directory.entry = some f → (s.directory.files f).creator = some i →
    (s.pc i).Fits s.directory f

omit [DecidableEq ι] in
theorem LockState.Initial.tidy (h : s.Initial) : s.Tidy i := by
  intro f _ hcreator
  rw [h.creator f] at hcreator
  cases hcreator

/-- A step of another instance leaves the file as it is, or removes it from the path. -/
theorem LockState.next_other (hs : s.Created locks) (h : s.next locks (j, a) = some t)
    (hne : i ≠ j) {f : Nat} (hentry : t.directory.entry = some f)
    (hcreator : (t.directory.files f).creator = some i) :
    s.directory.entry = some f ∧ t.directory.files f = s.directory.files f := by
  have hkeeps : t.directory.files f = s.directory.files f := by
    rcases LockState.next_file h f with hsame | ⟨-, -, -, g, hnew⟩ | ⟨m, g, v, hpc, -, hwritten⟩
    · exact hsame
    · rw [hnew] at hcreator
      exact absurd (Option.some.inj hcreator).symm hne
    · have hown := (hs.owner j m f (by rw [hpc]; rfl)).2.1
      rw [hwritten] at hcreator
      exact absurd (Option.some.inj (hcreator.symm.trans hown)) hne
  refine ⟨?_, hkeeps⟩
  rcases LockState.next_entry h with ⟨he, -⟩ | ⟨-, he, -, g, hnew⟩ | ⟨-, -, -, he, -⟩
  · rw [← he, hentry]
  · rw [he] at hentry
    cases hentry
    rw [hnew] at hcreator
    exact absurd (Option.some.inj hcreator).symm hne
  · rw [he] at hentry
    cases hentry

omit [DecidableEq ι] in
theorem Reading.fits_congr {d d' : LockDirectory ι} {f : Nat} {r : Reading}
    (hf : d'.files f = d.files f) : r.Fits d' f ↔ r.Fits d f := by
  cases r <;> simp [Reading.Fits, hf]

omit [DecidableEq ι] in
theorem LockPc.fits_congr {d d' : LockDirectory ι} {f : Nat} {pc : LockPc}
    (hf : d'.files f = d.files f) : pc.Fits d' f ↔ pc.Fits d f := by
  cases pc with
  | held m f' raised => cases raised <;> simp [LockPc.Fits, hf]
  | _ => simp [LockPc.Fits, hf, Reading.fits_congr hf]

theorem LockState.Tidy.step (hs : s.Created locks) (ht : s.Tidy i)
    (h : s.next locks (j, a) = some t) (hcrash : j = i → a ≠ .crash)
    (hacquire : j = i → a = .acquire → (s.pc i).running = false) : t.Tidy i := by
  intro f hentry hcreator
  by_cases hij : i = j
  · subst hij
    obtain ⟨-, pc, d, hnext, rfl⟩ := LockState.next_ok h
    have hfits := lockNext_fits hnext (hcrash rfl) (hacquire rfl) ht hentry hcreator
    simpa using hfits
  · obtain ⟨he, hf⟩ := LockState.next_other hs h hij hentry hcreator
    rw [hf] at hcreator
    rw [LockState.next_pc_of_ne h hij]
    exact (LockPc.fits_congr hf).2 (ht f he hcreator)

omit [DecidableEq ι] in
/-- Before `acquire` has made a file, and after `release` has returned or raised, the instance has
no file at the path. -/
theorem LockState.Tidy.absent (ht : s.Tidy i)
    (hpc : (s.pc i).running = false ∨ ∃ m f e, s.pc i = .held m f (some e)) {f : Nat}
    (hentry : s.directory.entry = some f) : (s.directory.files f).creator ≠ some i := by
  intro hcreator
  have hfits := ht f hentry hcreator
  rcases hpc with hpc | ⟨m, f', e, hpc⟩
  · cases hi : s.pc i with
    | idle e =>
      rw [hi] at hfits
      exact hfits
    | _ => rw [hi] at hpc; cases hpc
  · rw [hpc] at hfits
    exact hfits

end

end AIHub
