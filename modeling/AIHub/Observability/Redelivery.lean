import AIHub.Observability.Projections
import Mathlib.Data.List.Dedup

/-!
# Redelivered events

A stream may bring an event again. `TaskProjector.consume` keeps every event it has taken in
`_seen_events` and answers a second one with the projection it has.

**The code** (`offer`, `replay`). Here a call of `consume` ends in a result or an exception
together with the projector as its statements have left it, so that an assignment made before an
exception would stay. What `==` compares of two envelopes is the parameter `compared`: Python
takes `1` and `True`, or one instant written with two offsets, for equal. `offer_eq` says that
this is `TaskProjector.consume` where all of the envelope is compared.

**The invariant** (`Remembers`). The seen events are those of the stream up to `==`, each once,
and the projection counts them.

Main result: `redelivery_unnoticed`.
-/

namespace AIHub

namespace TaskProjector

/-- The projection with a new event. -/
def extended (self : TaskProjector) (event : EventEnvelope) : Except HubError TaskProjection :=
  match self.projection with
  | none => create event
  | some projection => apply projection event

section

variable {κ : Type} [DecidableEq κ] (compared : EventEnvelope → κ)

/-- `consume`: what it returns or raises, and the projector then. -/
def offer (event : EventEnvelope) (self : TaskProjector) :
    Except HubError TaskProjection × TaskProjector :=
  match self.seenEvents.lookup event.eventId with
  | some previous =>
    if compared previous ≠ compared event then
      (.error (.projection "event_id was reused with different content"), self)
    else match self.projection with
      | none => (.error (.projection "duplicate event encountered before task creation"), self)
      | some projection => (.ok projection, self)
  | none =>
    match self.extended event with
    | .error e => (.error e, self)
    | .ok projection =>
      let self := { self with seenEvents := (event.eventId, event) :: self.seenEvents }
      let self := { self with projection := some projection }
      (.ok projection, self)

/-- The loop of `replay_task`. -/
def offerAll : List EventEnvelope → TaskProjector → Except HubError TaskProjector
  | [], self => .ok self
  | event :: events, self =>
    match offer compared event self with
    | (.error e, _) => .error e
    | (.ok _, self) => offerAll events self

/-- `replay_task`. -/
def replay (events : List EventEnvelope) : Except HubError TaskProjection := do
  let projector ← offerAll compared events {}
  match projector.projection with
  | some projection => return projection
  | none => throw (.projection "cannot replay an empty event stream")

/-- What a caller sees who goes on after exceptions: what each call returns or raises, and the
projection after it. -/
def outcomes : List EventEnvelope → TaskProjector →
    List (Except HubError TaskProjection × Option TaskProjection)
  | [], _ => []
  | event :: events, self =>
    let (result, self) := offer compared event self
    (result, self.projection) :: outcomes events self

end

end TaskProjector

/-- `es'` is `es` with further copies of its events, each after the first one. -/
inductive Redelivers (es : List EventEnvelope) : List EventEnvelope → Prop
  | refl : Redelivers es es
  | insert {earlier later : List EventEnvelope} {event : EventEnvelope}
      (h : Redelivers es (earlier ++ later)) (seen : event ∈ earlier) :
      Redelivers es (earlier ++ event :: later)

namespace TaskProjector

variable {κ : Type} [DecidableEq κ] {compared : EventEnvelope → κ}
variable {p p' : TaskProjector} {q : TaskProjection} {event : EventEnvelope}

/-! ## One call -/

/-- With all of the envelope compared, a call is `consume`. -/
theorem consume_eq_offer (event : EventEnvelope) (p : TaskProjector) :
    consume event p = (offer id event p).1.map fun q => (q, (offer id event p).2) := by
  unfold offer consume extended
  cases p.seenEvents.lookup event.eventId with
  | some previous =>
    by_cases hsame : previous = event
    · cases p.projection <;> simp [hsame, Except.map]
    · simp [hsame, Except.map]
  | none =>
    cases p.projection with
    | none => cases hcreate : create event <;> rfl
    | some projection => cases happly : apply projection event <;> simp only [happly] <;> rfl

theorem replay_id (events : List EventEnvelope) : replay id events = replayTask events := by
  have hall : ∀ p, offerAll id events p = consumeAll events p := by
    induction events with
    | nil => exact fun _ => rfl
    | cons event events ih =>
      intro p
      rw [offerAll, consumeAll, consume_eq_offer]
      rcases offer id event p with ⟨result, p'⟩
      cases result with
      | error e => rfl
      | ok q => exact ih p'
  unfold replay
  rw [hall {}]
  rfl

/-- A call that raises changes nothing. -/
theorem offer_error {e : HubError} (h : offer compared event p = (.error e, p')) : p' = p := by
  unfold offer at h
  split at h
  · split_ifs at h
    · cases h
      rfl
    · split at h <;> cases h
      rfl
  · split at h <;> cases h
    rfl

/-- A call on an event that has been seen changes nothing. -/
theorem offer_seen {previous : EventEnvelope}
    (hseen : p.seenEvents.lookup event.eventId = some previous)
    (hsame : compared previous = compared event) (hq : p.projection = some q) :
    offer compared event p = (.ok q, p) := by
  simp [offer, hseen, hsame, hq]

/-- A call that returns has seen the event, or takes it in. -/
theorem offer_ok (h : offer compared event p = (.ok q, p')) :
    (∃ previous, p.seenEvents.lookup event.eventId = some previous ∧
      compared previous = compared event ∧ p.projection = some q ∧ p' = p) ∨
    (p.seenEvents.lookup event.eventId = none ∧ p.extended event = .ok q ∧
      p' = ⟨some q, (event.eventId, event) :: p.seenEvents⟩) := by
  unfold offer at h
  split at h
  · rename_i previous hseen
    split_ifs at h with hsame
    · cases h
    · split at h
      · cases h
      · rename_i hq
        cases h
        exact .inl ⟨previous, hseen, not_not.1 hsame, hq, rfl⟩
  · rename_i hnew
    split at h
    · cases h
    · rename_i hq
      cases h
      exact .inr ⟨hnew, hq, rfl⟩

/-! ## What the projector remembers -/

theorem create_eventCount (h : create event = .ok q) : q.eventCount = 1 := by
  unfold create at h
  simp only [bind_eq_ok] at h
  obtain ⟨_, _, h⟩ := h
  split at h
  · simp only [bind_eq_ok, pure_eq_ok] at h
    obtain ⟨_, _, rfl⟩ := h
    rfl
  · cases h

theorem apply_eventCount {q' : TaskProjection} (h : apply q event = .ok q') :
    q'.eventCount = q.eventCount + 1 := by
  simp only [apply, bind_eq_ok] at h
  obtain ⟨_, _, _, _, _, _, _, _, _, _, status, _, h⟩ := h
  split at h <;> simp only [bind_eq_ok, pure_eq_ok] at h
  · obtain ⟨_, _, _, _, rfl⟩ := h
    rfl
  · obtain ⟨_, _, rfl⟩ := h
    rfl

/-- The seen events are those of the stream up to `==`, each once. -/
structure Remembers (compared : EventEnvelope → κ) (events : List EventEnvelope)
    (p : TaskProjector) : Prop where
  seen : ∀ e ∈ events, ∃ previous, p.seenEvents.lookup e.eventId = some previous ∧
    compared previous = compared e
  stored : ∀ m ∈ p.seenEvents, m.1 = m.2.eventId ∧ m.2 ∈ events
  once : (p.seenEvents.map fun m => compared m.2).Nodup
  counted : ∀ q ∈ p.projection, q.eventCount = p.seenEvents.length
  created : events ≠ [] → p.projection.isSome

variable {events : List EventEnvelope}

omit [DecidableEq κ] in
theorem Remembers.empty : Remembers compared [] {} where
  seen e he := by cases he
  stored m hm := by cases hm
  once := List.nodup_nil
  counted q hq := by cases hq
  created h := absurd rfl h

theorem extended_eventCount (h : p.extended event = .ok q)
    (hp : ∀ q ∈ p.projection, q.eventCount = p.seenEvents.length)
    (hnone : p.projection = none → p.seenEvents = []) :
    q.eventCount = p.seenEvents.length + 1 := by
  unfold extended at h
  split at h
  · rename_i hprojection
    rw [create_eventCount h, hnone hprojection, List.length_nil]
  · rename_i projection hprojection
    rw [apply_eventCount h, hp projection hprojection]

/-- **One call.** What the projector remembers grows by the event. -/
theorem Remembers.offer (hid : ∀ a b, compared a = compared b → a.eventId = b.eventId)
    (hp : Remembers compared events p) (h : offer compared event p = (.ok q, p')) :
    Remembers compared (events ++ [event]) p' := by
  rcases offer_ok h with ⟨previous, hseen, hsame, hq, rfl⟩ | ⟨hnew, hq, rfl⟩
  · refine ⟨?_, fun m hm => ?_, hp.once, hp.counted, fun _ => by simp [hq]⟩
    · intro e he
      rcases List.mem_append.1 he with he | he
      · exact hp.seen e he
      · rw [List.mem_singleton.1 he]
        exact ⟨previous, hseen, hsame⟩
    · exact ⟨(hp.stored m hm).1, List.mem_append_left _ (hp.stored m hm).2⟩
  · have hne : ∀ m ∈ p.seenEvents, event.eventId ≠ m.1 := by
      intro m hm heq
      simpa [heq] using List.lookup_eq_none_iff.1 hnew m hm
    have hnone : p.projection = none → p.seenEvents = [] := by
      intro hnone
      refine List.eq_nil_iff_forall_not_mem.2 fun m hm => ?_
      have hsome := hp.created (List.ne_nil_of_mem (hp.stored m hm).2)
      simp [hnone] at hsome
    refine ⟨fun e he => ?_, fun m hm => ?_, ?_, ?_, fun _ => rfl⟩
    · by_cases heq : e.eventId = event.eventId
      · rcases List.mem_append.1 he with he | he
        · obtain ⟨previous, hseen, _⟩ := hp.seen e he
          rw [heq, hnew] at hseen
          cases hseen
        · rw [List.mem_singleton.1 he]
          exact ⟨event, by simp, rfl⟩
      · rcases List.mem_append.1 he with he | he
        · obtain ⟨previous, hseen, hsame⟩ := hp.seen e he
          refine ⟨previous, ?_, hsame⟩
          simpa [List.lookup_cons, beq_eq_false_iff_ne.2 heq] using hseen
        · exact absurd (congrArg (·.eventId) (List.mem_singleton.1 he)) heq
    · rcases List.mem_cons.1 hm with rfl | hm
      · exact ⟨rfl, List.mem_append_right _ (List.mem_singleton_self _)⟩
      · exact ⟨(hp.stored m hm).1, List.mem_append_left _ (hp.stored m hm).2⟩
    · rw [List.map_cons, List.nodup_cons]
      refine ⟨?_, hp.once⟩
      intro hmem
      obtain ⟨m, hm, hsame⟩ := List.mem_map.1 hmem
      exact hne m hm ((hid _ _ hsame.symm).trans (hp.stored m hm).1.symm)
    · intro q' hq'
      cases hq'
      exact extended_eventCount hq hp.counted hnone

/-- **A stream.** What the projector remembers grows by the stream. -/
theorem Remembers.offerAll (hid : ∀ a b, compared a = compared b → a.eventId = b.eventId)
    {es : List EventEnvelope} (hp : Remembers compared events p)
    (h : offerAll compared es p = .ok p') : Remembers compared (events ++ es) p' := by
  induction es generalizing events p with
  | nil =>
    cases h
    rwa [List.append_nil]
  | cons event es ih =>
    unfold TaskProjector.offerAll at h
    split at h
    · cases h
    · rename_i q p₁ hoffer
      simpa using ih (hp.offer hid hoffer) h

theorem offerAll_append (es es' : List EventEnvelope) (p : TaskProjector) :
    offerAll compared (es ++ es') p =
      offerAll compared es p >>= fun p => offerAll compared es' p := by
  induction es generalizing p with
  | nil => rfl
  | cons event es ih =>
    simp only [List.cons_append, offerAll]
    rcases offer compared event p with ⟨result, p'⟩
    cases result with
    | error e => rfl
    | ok q => exact ih p'

/-! ## Redelivery -/

/-- A redelivered stream leaves the projector as the stream does. -/
theorem offerAll_redelivers (hid : ∀ a b, compared a = compared b → a.eventId = b.eventId)
    {es es' : List EventEnvelope} (hes : offerAll compared es {} = .ok p)
    (h : Redelivers es es') : offerAll compared es' {} = .ok p := by
  induction h with
  | refl => exact hes
  | @insert earlier later event _ hmem ih =>
    rw [offerAll_append, bind_eq_ok] at ih
    obtain ⟨p₁, hearlier, hlater⟩ := ih
    have hp : Remembers compared earlier p₁ := by
      simpa using Remembers.empty.offerAll hid hearlier
    obtain ⟨previous, hseen, hsame⟩ := hp.seen event hmem
    obtain ⟨q, hq⟩ := Option.isSome_iff_exists.1 (hp.created (List.ne_nil_of_mem hmem))
    have hoffer := offer_seen hseen hsame hq
    rw [offerAll_append, bind_eq_ok]
    refine ⟨p₁, hearlier, ?_⟩
    rw [offerAll, hoffer]
    exact hlater

/-- The projection counts the events of the stream up to `==`. -/
theorem Remembers.count (hp : Remembers compared events p) (hq : p.projection = some q) :
    q.eventCount = (events.map compared).dedup.length := by
  have hperm : (p.seenEvents.map fun m => compared m.2).Perm (events.map compared).dedup := by
    refine (List.perm_ext_iff_of_nodup hp.once (List.nodup_dedup _)).2 fun x => ?_
    rw [List.mem_dedup, List.mem_map, List.mem_map]
    constructor
    · intro h
      obtain ⟨m, hm, rfl⟩ := h
      exact ⟨m.2, (hp.stored m hm).2, rfl⟩
    · intro h
      obtain ⟨e, he, rfl⟩ := h
      obtain ⟨previous, hseen, hsame⟩ := hp.seen e he
      obtain ⟨l₁, l₂, hl, _⟩ := List.lookup_eq_some_iff.1 hseen
      exact ⟨(e.eventId, previous), by simp [hl], hsame⟩
  rw [hp.counted q hq, ← hperm.length_eq, List.length_map]

theorem replay_ok {es : List EventEnvelope} :
    replay compared es = .ok q ↔ ∃ p, offerAll compared es {} = .ok p ∧ p.projection = some q := by
  simp only [replay, bind_eq_ok]
  refine exists_congr fun p => and_congr_right fun _ => ?_
  cases p.projection with
  | none => simp
  | some projection => simp [pure_eq_ok]

end TaskProjector

open TaskProjector

/-- A stream that replays also replays, to the same projection, with events delivered again, and
the projection counts the distinct events. Offering a projector an event that it refuses makes no
difference to what any later calls return, raise and leave. -/
theorem redelivery_unnoticed {κ : Type} [DecidableEq κ] (compared : EventEnvelope → κ)
    (hid : ∀ a b, compared a = compared b → a.eventId = b.eventId) :
    (∀ es es' q, replay compared es = .ok q → Redelivers es es' →
      replay compared es' = .ok q ∧ q.eventCount = (es'.map compared).dedup.length) ∧
    ∀ p event e p', offer compared event p = (.error e, p') →
      p'.projection = p.projection ∧
        ∀ later, outcomes compared later p' = outcomes compared later p := by
  constructor
  · intro es es' q hq h
    obtain ⟨p, hes, hp⟩ := replay_ok.1 hq
    have hes' := offerAll_redelivers hid hes h
    refine ⟨replay_ok.2 ⟨p, hes', hp⟩, ?_⟩
    have hremembers : Remembers compared es' p := by
      simpa using Remembers.empty.offerAll hid hes'
    exact hremembers.count hp
  · intro p event e p' h
    rw [offer_error h]
    exact ⟨rfl, fun _ => rfl⟩

open Sample in
theorem redelivery_unnoticed_sample :
    (∃ q, replay id [created, created, queued, created, queued] = .ok q ∧ q.eventCount = 2) ∧
      ∀ later, outcomes id later (offer id queued {}).2 = outcomes id later {} := by
  have h := redelivery_unnoticed id (fun a b hab => congrArg (·.eventId) hab)
  constructor
  · have hcopies : Redelivers [created, queued] [created, created, queued, created, queued] :=
      @Redelivers.insert _ [created, created, queued, created] [] _
        (@Redelivers.insert _ [created, created, queued] [] _
          (@Redelivers.insert _ [created] [queued] _ .refl (by simp)) (by simp)) (by simp)
    exact ⟨_, h.1 [created, queued] _ _ rfl hcopies⟩
  · exact (h.2 {} queued _ _ rfl).2

end AIHub
