import AIHub.Gateway.Dedup

/-!
# Expiry in memory

What `InMemoryRequestDeduplicator` promises to any sequence of calls: a lookup returns the response
that was remembered last, if it is young enough, a reservation is not refused because of an old
response, and there are never too many responses.

Responses are kept in the order of their last use, and a lookup is a use. The pruning stops at the
first response that is young enough, so it does not reach an old one that a lookup has moved behind
it.

* `recorded_after`: every response that is kept is the one remembered last for its key.
* `mem_dropWhile_of_kept`, `not_mem_of_expired`: what the pruning leaves.
* `promises_iff`: the promises are kept exactly if no expired response is hidden.
-/

namespace AIHub

/-- A call, and the reading of the monotonic clock at it. -/
structure TimedCall where
  now : Int
  call : DedupCall
  deriving DecidableEq

/-- The responses remembered for a key, with the times, in order. -/
def rememberedFor (key : String) (past : List TimedCall) : List (Int × GatewayResponse) :=
  past.filterMap fun c =>
    match c.call with
    | .remember key' response => if key' = key then some (c.now, response) else none
    | .get _ | .reserve _ | .release _ => none

/-- The response remembered last for a key. -/
def lastRemembered (key : String) (past : List TimedCall) : Option (Int × GatewayResponse) :=
  (rememberedFor key past).getLast?

namespace InMemoryRequestDeduplicator

variable (d : InMemoryRequestDeduplicator)

/-- The memory after a sequence of calls. -/
def after (past : List TimedCall) : DedupMemory :=
  past.foldl (fun s c => (d.run c.now s c.call).2) {}

/-- What is promised about a call that follows others. -/
def Promised (past : List TimedCall) (c : TimedCall) : Prop :=
  (match c.call with
    | .get key => ∀ response, (d.run c.now (d.after past) c.call).1 = .found (some response) →
        ∃ time, lastRemembered key past = some (time, response) ∧ c.now - d.ttlSeconds ≤ time
    | .reserve key => (d.run c.now (d.after past) c.call).1 = .reserved false →
        key ∈ (d.after past).inFlight ∨ ∃ time response,
          lastRemembered key past = some (time, response) ∧ c.now - d.ttlSeconds ≤ time
    | .remember _ _ | .release _ => True) ∧
  (d.run c.now (d.after past) c.call).2.completed.length ≤ d.maxEntries

/-- The promises are kept at every call of a sequence. -/
def Promises (calls : List TimedCall) : Prop :=
  ∀ past c later, calls = past ++ c :: later → d.Promised past c

/-- The response for a key has expired, and one that has not stands before it. -/
def Hidden (now : Int) (key : String) (completed : List CompletedEntry) : Prop :=
  ∃ front entry back, completed = front ++ entry :: back ∧ entry.key = key ∧
    entry.storedAt < now - d.ttlSeconds ∧ ∃ young ∈ front, now - d.ttlSeconds ≤ young.storedAt

/-- No call of the sequence asks for a key whose response is hidden. -/
def NoneHidden (calls : List TimedCall) : Prop :=
  ∀ past c later, calls = past ++ c :: later →
    match c.call with
    | .get key | .reserve key => ¬ d.Hidden c.now key (d.after past).completed
    | .remember _ _ | .release _ => True

/-! ## What the pruning leaves -/

theorem mem_dropWhile_of_kept {α : Type*} {p : α → Bool} {front back : List α} {a kept : α}
    (hkept : kept ∈ front) (hp : p kept = false) : a ∈ (front ++ a :: back).dropWhile p := by
  have hne : front.dropWhile p ≠ [] := fun hnil => by
    have hall := List.dropWhile_eq_nil_iff.1 hnil kept hkept
    rw [hp] at hall
    cases hall
  rw [List.dropWhile_append, if_neg (by simpa using hne)]
  simp

/-- What is behind nothing that is kept is dropped if it is not kept itself. -/
theorem exists_kept_of_mem_dropWhile {α : Type*} {p : α → Bool} {l : List α} {a : α}
    (h : a ∈ l.dropWhile p) (ha : p a = true) :
    ∃ front back, l = front ++ a :: back ∧ ∃ kept ∈ front, p kept = false := by
  induction l with
  | nil => cases h
  | cons b l ih =>
    rw [List.dropWhile_cons] at h
    split_ifs at h with hb
    · obtain ⟨front, back, rfl, kept, hkept, hp⟩ := ih h
      exact ⟨b :: front, back, rfl, kept, List.mem_cons_of_mem _ hkept, hp⟩
    · rcases List.mem_cons.1 h with rfl | h
      · exact absurd ha hb
      · obtain ⟨front, back, rfl⟩ := List.append_of_mem h
        exact ⟨b :: front, back, rfl, b, List.mem_cons_self, Bool.not_eq_true _ ▸ hb⟩

variable {d : InMemoryRequestDeduplicator} {now : Int} {key : String} {past : List TimedCall}
  {c : TimedCall} {s : DedupMemory} {completed : List CompletedEntry}

/-- A hidden response is one that has expired and survives the pruning. -/
theorem entry_hidden_iff :
    d.Hidden now key completed ↔ ∃ entry ∈ d.prune now completed, entry.key = key ∧
      entry.storedAt < now - d.ttlSeconds := by
  constructor
  · intro h
    obtain ⟨front, entry, back, rfl, hkey, hexpired, young, hyoung, hfresh⟩ := h
    refine ⟨entry, mem_dropWhile_of_kept hyoung ?_, hkey, hexpired⟩
    rw [decide_eq_false_iff_not]
    omega
  · intro h
    obtain ⟨entry, hmem, hkey, hexpired⟩ := h
    obtain ⟨front, back, hcompleted, young, hyoung, hfresh⟩ :=
      exists_kept_of_mem_dropWhile hmem (by simpa using hexpired)
    rw [decide_eq_false_iff_not, Int.not_lt] at hfresh
    exact ⟨front, entry, back, hcompleted, hkey, hexpired, young, hyoung, hfresh⟩

/-! ## What is kept -/

/-- What is kept for a key is the response remembered last for it, the key is not in flight, and
there is room. -/
structure Recorded (d : InMemoryRequestDeduplicator) (past : List TimedCall) (s : DedupMemory) :
    Prop where
  last : ∀ entry ∈ s.completed,
    lastRemembered entry.key past = some (entry.storedAt, entry.response)
  apart : ∀ entry ∈ s.completed, entry.key ∉ s.inFlight
  room : s.completed.length ≤ d.maxEntries

theorem lastRemembered_append :
    lastRemembered key (past ++ [c]) =
      match c.call with
      | .remember key' response =>
        if key' = key then some (c.now, response) else lastRemembered key past
      | .get _ | .reserve _ | .release _ => lastRemembered key past := by
  unfold lastRemembered rememberedFor
  rw [List.filterMap_append]
  cases hcall : c.call with
  | remember key' response =>
    by_cases hkey : key' = key
    · simp [hcall, hkey]
    · simp [hcall, hkey]
  | get _ | reserve _ | release _ => simp [hcall]

/-- A call that is not a response to remember leaves or drops what is kept. -/
theorem Recorded.of_subset {s' : DedupMemory} (hs : d.Recorded past s)
    (hcall : ∀ key response, c.call ≠ .remember key response)
    (hsub : ∀ entry ∈ s'.completed, entry ∈ s.completed)
    (hapart : ∀ entry ∈ s'.completed, entry.key ∉ s'.inFlight)
    (hlength : s'.completed.length ≤ s.completed.length) : d.Recorded (past ++ [c]) s' where
  last entry hentry := by
    rw [lastRemembered_append]
    cases h : c.call with
    | remember key response => exact absurd h (hcall key response)
    | get _ | reserve _ | release _ => exact hs.last entry (hsub entry hentry)
  apart := hapart
  room := hlength.trans hs.room

theorem prune_sublist (d : InMemoryRequestDeduplicator) (now : Int)
    (completed : List CompletedEntry) : (d.prune now completed).Sublist completed :=
  List.dropWhile_sublist _

theorem length_moveToEnd (key : String) (completed : List CompletedEntry) :
    (moveToEnd key completed).length = completed.length := by
  have hperm := List.filter_append_perm (fun entry => decide (entry.key ≠ key)) completed
  simpa [moveToEnd] using hperm.length_eq

theorem recorded_get (hs : d.Recorded past s) (hcall : c.call = .get key) :
    d.Recorded (past ++ [c]) (d.run c.now s c.call).2 := by
  have hprune := d.prune_sublist c.now s.completed
  rw [hcall]
  unfold run
  dsimp only
  split
  · exact hs.of_subset (by simp [hcall]) (fun entry h => hprune.subset h)
      (fun entry h => hs.apart entry (hprune.subset h)) hprune.length_le
  · refine hs.of_subset (by simp [hcall]) (fun entry h => hprune.subset (mem_moveToEnd.1 h))
      (fun entry h => hs.apart entry (hprune.subset (mem_moveToEnd.1 h))) ?_
    rw [length_moveToEnd]
    exact hprune.length_le

theorem recorded_reserve (hs : d.Recorded past s) (hcall : c.call = .reserve key) :
    d.Recorded (past ++ [c]) (d.run c.now s c.call).2 := by
  have hprune := d.prune_sublist c.now s.completed
  rw [hcall]
  unfold run
  dsimp only
  split_ifs with hkept
  · exact hs.of_subset (by simp [hcall]) (fun entry h => hprune.subset h)
      (fun entry h => hs.apart entry (hprune.subset h)) hprune.length_le
  · refine hs.of_subset (by simp [hcall]) (fun entry h => hprune.subset h) ?_ hprune.length_le
    intro entry hentry
    simp only [List.any_eq_true, decide_eq_true_eq, not_or, not_exists, not_and] at hkept
    rw [List.mem_cons, not_or]
    exact ⟨hkept.2 entry hentry, hs.apart entry (hprune.subset hentry)⟩

theorem recorded_remember {response : GatewayResponse} (hs : d.Recorded past s)
    (hcall : c.call = .remember key response) :
    d.Recorded (past ++ [c]) (d.run c.now s c.call).2 := by
  have hmem : ∀ entry ∈ d.evict (setAtEnd ⟨key, c.now, response⟩ s.completed),
      entry ∈ s.completed ∧ entry.key ≠ key ∨ entry = ⟨key, c.now, response⟩ := by
    intro entry hentry
    have hset := (List.drop_sublist _ _).subset hentry
    simpa [setAtEnd] using hset
  rw [hcall]
  constructor
  · intro entry hentry
    rw [lastRemembered_append, hcall]
    rcases hmem entry hentry with ⟨hentry, hne⟩ | rfl
    · simp only [if_neg (Ne.symm hne)]
      exact hs.last entry hentry
    · simp
  · intro entry hentry hflight
    have hflight := List.mem_filter.1 hflight
    rcases hmem entry hentry with ⟨hentry, _⟩ | rfl
    · exact hs.apart entry hentry hflight.1
    · simp at hflight
  · have hlength : (d.evict (setAtEnd ⟨key, c.now, response⟩ s.completed)).length ≤
        d.maxEntries := by
      rw [evict, List.length_drop]
      omega
    exact hlength

theorem recorded_run (hs : d.Recorded past s) :
    d.Recorded (past ++ [c]) (d.run c.now s c.call).2 := by
  cases hcall : c.call with
  | get key => exact hcall ▸ recorded_get hs hcall
  | reserve key => exact hcall ▸ recorded_reserve hs hcall
  | remember key response => exact hcall ▸ recorded_remember hs hcall
  | release key =>
    exact hs.of_subset (by simp [hcall]) (fun _ h => h)
      (fun entry h hflight => hs.apart entry h (List.mem_of_mem_filter hflight)) le_rfl

theorem recorded_after (d : InMemoryRequestDeduplicator) (past : List TimedCall) :
    d.Recorded past (d.after past) := by
  induction past using List.reverseRecOn with
  | nil => exact ⟨by simp [after], by simp [after], Nat.zero_le _⟩
  | append_singleton past c ih =>
    have hafter : d.after (past ++ [c]) = (d.run c.now (d.after past) c.call).2 := by
      simp [after]
    rw [hafter]
    exact recorded_run ih

/-! ## One call -/

/-- The only response that survives the pruning for a key is the one remembered last. -/
theorem kept_iff (hs : d.Recorded past s) {time : Int} {response : GatewayResponse}
    (hlast : lastRemembered key past = some (time, response)) :
    d.Hidden now key s.completed ↔
      (∃ entry ∈ d.prune now s.completed, entry.key = key) ∧ time < now - d.ttlSeconds := by
  have htime : ∀ entry ∈ d.prune now s.completed, entry.key = key → entry.storedAt = time := by
    intro entry hentry hkey
    have hentry := hs.last entry ((d.prune_sublist now s.completed).subset hentry)
    rw [hkey, hlast] at hentry
    exact (Prod.ext_iff.1 (Option.some.inj hentry)).1.symm
  rw [entry_hidden_iff]
  constructor
  · intro h
    obtain ⟨entry, hentry, hkey, hexpired⟩ := h
    exact ⟨⟨entry, hentry, hkey⟩, htime entry hentry hkey ▸ hexpired⟩
  · intro h
    obtain ⟨⟨entry, hentry, hkey⟩, hexpired⟩ := h
    exact ⟨entry, hentry, hkey, (htime entry hentry hkey).symm ▸ hexpired⟩

/-- A lookup finds nothing but the response remembered last. It finds no old one exactly if none is
hidden. -/
theorem get_promised (hs : d.Recorded past s) :
    (∀ response, (d.run now s (.get key)).1 = .found (some response) →
        ∃ time, lastRemembered key past = some (time, response) ∧ now - d.ttlSeconds ≤ time) ↔
      ¬ d.Hidden now key s.completed := by
  have hrun : (d.run now s (.get key)).1 = .found
      (((d.prune now s.completed).find? fun entry => entry.key = key).map (·.response)) := by
    unfold run
    dsimp only
    split <;> rename_i h <;> rw [h] <;> rfl
  rw [hrun]
  cases hfind : (d.prune now s.completed).find? fun entry => entry.key = key with
  | none =>
    refine iff_of_true (by simp) fun h => ?_
    obtain ⟨entry, hentry, hkey, _⟩ := entry_hidden_iff.1 h
    exact absurd hkey (by simpa using List.find?_eq_none.1 hfind entry hentry)
  | some entry =>
    have hentry := List.mem_of_find?_eq_some hfind
    have hkey : entry.key = key := by simpa using List.find?_some hfind
    have hlast := hs.last entry ((d.prune_sublist now s.completed).subset hentry)
    rw [hkey] at hlast
    rw [kept_iff hs hlast, not_and, Int.not_lt, hlast]
    constructor
    · intro h _
      obtain ⟨time, htime, hfresh⟩ := h entry.response rfl
      cases htime
      exact hfresh
    · intro h response hresponse
      cases hresponse
      exact ⟨entry.storedAt, rfl, h ⟨entry, hentry, hkey⟩⟩

/-- A reservation is refused because of a young response, or because the key is in flight, exactly
if no old one is hidden. -/
theorem reserve_promised (hs : d.Recorded past s) :
    ((d.run now s (.reserve key)).1 = .reserved false → key ∈ s.inFlight ∨ ∃ time response,
        lastRemembered key past = some (time, response) ∧ now - d.ttlSeconds ≤ time) ↔
      ¬ d.Hidden now key s.completed := by
  have hrun : (d.run now s (.reserve key)).1 = .reserved false ↔
      key ∈ s.inFlight ∨ ∃ entry ∈ d.prune now s.completed, entry.key = key := by
    unfold run
    dsimp only
    split_ifs with hkept <;> simpa using hkept
  rw [hrun]
  constructor
  · intro h hhidden
    obtain ⟨entry, hentry, hkey, hexpired⟩ := entry_hidden_iff.1 hhidden
    have hmem := (d.prune_sublist now s.completed).subset hentry
    rcases h (.inr ⟨entry, hentry, hkey⟩) with hflight | ⟨time, response, hlast, hfresh⟩
    · exact hs.apart entry hmem (hkey ▸ hflight)
    · have hlast' := hs.last entry hmem
      rw [hkey, hlast] at hlast'
      cases hlast'
      omega
  · intro h hrefused
    rcases hrefused with hflight | ⟨entry, hentry, hkey⟩
    · exact .inl hflight
    · have hlast := hs.last entry ((d.prune_sublist now s.completed).subset hentry)
      rw [hkey] at hlast
      rw [kept_iff hs hlast, not_and, Int.not_lt] at h
      exact .inr ⟨entry.storedAt, entry.response, hlast, h ⟨entry, hentry, hkey⟩⟩

/-- The promises about one call are kept exactly if it does not ask for a hidden response. -/
theorem promised_iff (d : InMemoryRequestDeduplicator) (past : List TimedCall) (c : TimedCall) :
    d.Promised past c ↔
      match c.call with
      | .get key | .reserve key => ¬ d.Hidden c.now key (d.after past).completed
      | .remember _ _ | .release _ => True := by
  have hs := d.recorded_after past
  have hroom := (recorded_run (c := c) hs).room
  unfold Promised
  rw [and_iff_left hroom]
  cases hcall : c.call with
  | get key => exact get_promised hs
  | reserve key => exact reserve_promised hs
  | remember _ _ | release _ => exact Iff.rfl

/-- Over any sequence of calls, lookups return only the response remembered last and within its
time, reservations are not refused because of an older one, and there is room, exactly if no call
asks for an expired response that stands behind an unexpired one. -/
theorem promises_iff (d : InMemoryRequestDeduplicator) (calls : List TimedCall) :
    d.Promises calls ↔ d.NoneHidden calls := by
  unfold Promises NoneHidden
  simp only [promised_iff]

end InMemoryRequestDeduplicator

namespace Sample

def accepted : GatewayResponse :=
  { GatewayResponse.alreadyProcessed with
    code := .accepted
    message := ⟨"Task TASK-34 was accepted.", by decide +kernel⟩
    replayed := false }

/-- The first response is looked up after the second one has been remembered, and again when it has
expired. -/
def lookedUpLate : List TimedCall :=
  [⟨0, .remember "slack:Ev1" accepted⟩, ⟨50, .remember "slack:Ev2" accepted⟩,
    ⟨50, .get "slack:Ev1"⟩, ⟨61, .get "slack:Ev1"⟩]

end Sample

open Sample in
/-- A lookup moves a response behind a younger one, and the next one finds it when it has
expired. -/
theorem expired_response_found : ¬ ∀ (d : InMemoryRequestDeduplicator) (calls : List TimedCall),
    calls.Pairwise (fun a b => a.now ≤ b.now) → d.Promises calls := by
  intro h
  let d : InMemoryRequestDeduplicator := ⟨10, 60, by decide⟩
  have hpromised := (h d lookedUpLate (by decide) (lookedUpLate.take 3) ⟨61, .get "slack:Ev1"⟩ []
    rfl).1
  obtain ⟨time, hlast, hfresh⟩ := hpromised accepted (by decide +kernel)
  have hfirst : lastRemembered "slack:Ev1" (lookedUpLate.take 3) = some (0, accepted) := by
    decide +kernel
  rw [hfirst] at hlast
  cases hlast
  exact absurd hfresh (by decide)

end AIHub
