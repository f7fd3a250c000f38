import AIHub.Gateway.Dedup
import AIHub.Lib.Transition

/-!
# Replayed responses

Any number of executions of `AgentGateway.handle` over a `DurableRequestDeduplicator` and one store,
interleaved at their awaits. A call to the deduplicator runs in a worker thread: it may fail, before
or after it has taken effect, and where its handler is interrupted meanwhile it is left behind, to
run later or never.

**The invariant** (`DurableGateway.Safe`). Who holds a key, the handler itself or a call that it has
left behind, holds a reserved one, and holds it alone.

* `safe_step`: no step breaks it, and none changes a response that has been remembered.
* `dispatched_once`: at most one handler holds a key; and once a response has been remembered, the
  command is not dispatched again, and every lookup finds that response.
* `answered_step`: where the responses of the handlers come from.
-/

namespace AIHub

open Transition Reservation Store

/-- What becomes of a call to the deduplicator. -/
inductive DedupFate where
  | replies
  /-- It raises, without effect. -/
  | raises
  /-- It has its effect, and raises all the same. -/
  | raisesAfter
  deriving DecidableEq

/-- The handlers of a gateway, the handler `i` with the request `requests i`. -/
structure DurableGateway (ι : Type) where
  sensitive : String → Bool
  requests : ι → GatewayRequest

namespace DurableGateway

variable {ι : Type} [DecidableEq ι]

structure State (ι : Type) where
  stages : ι → HandleStage
  /-- The call that an interrupted handler has left to its worker thread. -/
  left : ι → Option DedupCall
  store : Store

inductive Event (ι : Type) where
  /-- The authorizer answers, or raises. -/
  | authorized (i : ι) (answer : Option Bool)
  /-- The next call of the handler. -/
  | called (i : ι) (time : Timestamp) (fate : DedupFate)
  | dispatched (i : ι) (outcome : DispatchOutcome)
  | interrupted (i : ι)
  /-- The call that a handler has left behind. -/
  | ranLeft (i : ι) (time : Timestamp) (fate : DedupFate)
  /-- A write to the store that is not about gateway requests. -/
  | wrote (op : WriteOp)

/-- The reply to a call, and the store after it. -/
def callStore (fate : DedupFate) (time : Timestamp) (call : DedupCall) (s : Store) :
    DedupReply × Store :=
  match fate with
  | .replies => DurableRequestDeduplicator.run time s call
  | .raises => (.raised, s)
  | .raisesAfter => (.raised, (DurableRequestDeduplicator.run time s call).2)

variable (G : DurableGateway ι)

/-- The key of the request of a handler. -/
def key (i : ι) : String := (G.requests i).idempotencyKey

def State.move (s : State ι) (i : ι) (stage : HandleStage) : State ι :=
  { s with stages := Function.update s.stages i stage }

def next (s : State ι) : Event ι → Option (State ι)
  | .authorized i answer =>
    if s.stages i = .authorizing then
      some (s.move i (HandleStage.authorized G.sensitive (G.requests i) answer))
    else none
  | .called i time fate =>
    ((s.stages i).call (G.key i)).bind fun call =>
      let (reply, store) := callStore fate time call s.store
      ((s.stages i).resume reply).map fun stage => { s.move i stage with store }
  | .dispatched i outcome =>
    if s.stages i = .dispatching then some (s.move i (HandleStage.dispatched outcome)) else none
  | .interrupted i => (s.stages i).interrupt.map fun stage =>
    { s.move i stage with left := Function.update s.left i ((s.stages i).call (G.key i)) }
  | .ranLeft i time fate => (s.left i).map fun call =>
    { s with
      left := Function.update s.left i none
      store := (callStore fate time call s.store).2 }
  | .wrote op => if op.requestCall.isNone then some { s with store := op.after s.store } else none

/-- At first no handler has done anything; the table may have reservations and responses. -/
def system : System (State ι) (Event ι) :=
  .ofNext (fun s => (∀ i, s.stages i = .authorizing) ∧ (∀ i, s.left i = none) ∧
    ∃ c, DurableRequestDeduplicator.Shows s.store c) G.next

/-- The handler has reserved its key, and neither remembered a response nor released the key; what
it has left to a worker thread is not done before the thread has done it. -/
def State.Holds (s : State ι) (i : ι) : Prop :=
  (s.stages i).holds = true ∨ ∃ call, s.left i = some call ∧ call.ends = true

/-- The response has been remembered for the key. -/
def State.Remembered (s : State ι) (key : IdempotencyKey) (response : GatewayResponse) : Prop :=
  s.store.requests key = .settled response.modelDump

/-! ## The invariant -/

/-- The table shows the cells; who holds a key holds a reserved one, alone; and only an interrupted
handler has left a call behind, which is about its key. -/
structure Safe (G : DurableGateway ι) (s : State ι) (c : Cells String GatewayResponse) : Prop where
  shown : DurableRequestDeduplicator.Shows s.store c
  held : KeysHeld G.key s.Holds c
  left : ∀ i call, s.left i = some call → call.key = G.key i ∧ s.stages i = .interrupted

/-- The call that a step makes, unless it raises without effect. -/
def performs (s : State ι) : Event ι → Option DedupCall
  | .called i _ fate => if fate = .raises then none else (s.stages i).call (G.key i)
  | .ranLeft i _ fate => if fate = .raises then none else s.left i
  | .authorized _ _ | .dispatched _ _ | .interrupted _ | .wrote _ => none

/-- The cells after a step. -/
def cellsAfter (s : State ι) (a : Event ι) (c : Cells String GatewayResponse) :
    Cells String GatewayResponse :=
  (G.performs s a).elim c fun call => (call.apply c).2

variable {G} {s s' : State ι} {c : Cells String GatewayResponse} {i : ι} {call : DedupCall}
  {time : Timestamp} {fate : DedupFate}

/-! ## One step -/

/-- A call that is held does to the table what it does to the cells, and replies as they do, unless
it raises. -/
theorem callStore_shows (time : Timestamp) (fate : DedupFate) {s : Store} {key : IdempotencyKey}
    (hs : DurableRequestDeduplicator.Shows s c) (hkey : call.key = key.val)
    (hheld : call.Held c) :
    DurableRequestDeduplicator.Shows (callStore fate time call s).2
        (if fate = .raises then c else (call.apply c).2) ∧
      ((callStore fate time call s).1 = .raised ∨
        fate = .replies ∧ (callStore fate time call s).1 = (call.apply c).1) := by
  have hserves : DurableRequestDeduplicator.Serves c call
      (DurableRequestDeduplicator.run time s call) :=
    DurableRequestDeduplicator.serves_run hs hkey hheld
  cases fate with
  | replies => exact ⟨hserves.2, .inr ⟨rfl, hserves.1⟩⟩
  | raises => exact ⟨hs, .inl rfl⟩
  | raisesAfter => exact ⟨hserves.2, .inl rfl⟩

omit [DecidableEq ι] in
/-- A handler that makes a call has not left one behind. -/
theorem Safe.left_eq_none (hs : G.Safe s c) (hstage : s.stages i ≠ .interrupted) :
    s.left i = none := by
  cases hleft : s.left i with
  | none => rfl
  | some call => exact absurd (hs.left i call hleft).2 hstage

/-- A handler moves without a call, to a stage in which it does not hold what it did not hold. -/
theorem Safe.move (hs : G.Safe s c) {stage : HandleStage} (hstage : s.stages i ≠ .interrupted)
    (hholds : stage.holds = true → (s.stages i).holds = true) : G.Safe (s.move i stage) c where
  shown := hs.shown
  held := by
    refine hs.held.mono fun j hj => ?_
    rcases hj with hj | hj
    · by_cases hji : j = i
      · subst hji
        exact .inl (hholds (by simpa [State.move] using hj))
      · exact .inl (by simpa [State.move, hji] using hj)
    · exact .inr hj
  left j call hj := by
    have hne : j ≠ i := by
      rintro rfl
      exact hstage (hs.left j call hj).2
    obtain ⟨hkey, hj⟩ := hs.left j call hj
    exact ⟨hkey, by simpa [State.move, hne] using hj⟩

/-- A handler is interrupted, and leaves the call that it awaits behind. -/
theorem Safe.interrupt (hs : G.Safe s c) {stage : HandleStage}
    (hinterrupt : (s.stages i).interrupt = some stage) :
    G.Safe { s.move i stage with
      left := Function.update s.left i ((s.stages i).call (G.key i)) } c where
  shown := hs.shown
  held := by
    refine hs.held.mono fun j hj => ?_
    by_cases hji : j = i
    · subst hji
      rcases hj with hj | ⟨call, hcall, hends⟩
      · exact .inl (HandleStage.holds_interrupt hinterrupt (by simpa [State.move] using hj))
      · have hcall : (s.stages j).call (G.key j) = some call := by simpa using hcall
        exact .inl (HandleStage.ends_of_call hcall ▸ hends)
    · simpa [State.Holds, State.move, hji] using hj
  left j call hj := by
    by_cases hji : j = i
    · subst hji
      have hcall : (s.stages j).call (G.key j) = some call := by simpa using hj
      have hstage := HandleStage.interrupt_of_call hcall hinterrupt
      exact ⟨HandleStage.key_of_call hcall, by simp [State.move, hstage]⟩
    · simpa [State.move, hji] using hs.left j call (by simpa [hji] using hj)

omit [DecidableEq ι] in
theorem exists_key (G : DurableGateway ι) (i : ι) : ∃ key : IdempotencyKey, key.val = G.key i :=
  (G.requests i).idempotencyKey_accepted

/-- A handler makes its next call and goes on. -/
theorem Safe.called (hs : G.Safe s c) {stage : HandleStage}
    (hcall : (s.stages i).call (G.key i) = some call)
    (hresume : (s.stages i).resume (callStore fate time call s.store).1 = some stage) :
    call.Held c ∧ G.Safe { s.move i stage with store := (callStore fate time call s.store).2 }
      (if fate = .raises then c else (call.apply c).2) := by
  obtain ⟨key, hkey⟩ := G.exists_key i
  have hself : (s.stages i).holds = true → c (G.key i) = .reserved :=
    fun h => hs.held.reserved i (.inl h)
  have hheld : call.Held c := HandleStage.held_of_call hcall hself
  have hcallKey := HandleStage.key_of_call hcall
  obtain ⟨hshown, hreply⟩ := callStore_shows time fate hs.shown
    (hcallKey.trans hkey.symm) hheld
  have hstage : s.stages i ≠ .interrupted := by
    intro h
    rw [h] at hcall
    cases hcall
  have hleft := hs.left_eq_none hstage
  -- afterwards the handler holds its key only if it has just taken it
  have htaken : stage.holds = true →
      (fate = .replies ∧ c (G.key i) = .free ∧ (call.apply c).2 (G.key i) = .reserved) := by
    intro hholds
    rcases hreply with hreply | ⟨hfate, hreply⟩
    · rw [hreply] at hresume
      rw [HandleStage.holds_resume_raised hresume] at hholds
      cases hholds
    · rw [hreply] at hresume
      rcases HandleStage.resume_cases hcall hresume with ⟨_, hgone⟩ | ⟨_, hstays, _⟩ | ⟨_, hfree⟩
      · rw [hgone] at hholds
        cases hholds
      · rw [hstays] at hholds
        cases hholds
      · exact ⟨hfate, hfree⟩
  have hafter : ∀ t : Store, State.Holds { s.move i stage with store := t } i →
      stage.holds = true := by
    rintro t (h | ⟨_, h, _⟩)
    · simpa [State.move] using h
    · exact absurd (hleft.symm.trans h) (by simp)
  have hothers : ∀ (t : Store) (j : ι), j ≠ i →
      State.Holds { s.move i stage with store := t } j → s.Holds j := by
    intro t j hji h
    simpa [State.Holds, State.move, hji] using h
  refine ⟨hheld, hshown, ?_, fun j call hj => ?_⟩
  · split_ifs with hfate
    · refine hs.held.mono fun j hj => ?_
      by_cases hji : j = i
      · subst hji
        obtain ⟨hreplies, _⟩ := htaken (hafter _ hj)
        rw [hfate] at hreplies
        cases hreplies
      · exact hothers _ j hji hj
    · refine hs.held.step hcallKey (fun j => hothers _ j) ?_
      cases hends : call.ends with
      | true =>
        have hholds : (s.stages i).holds = true := HandleStage.ends_of_call hcall ▸ hends
        refine .inl ⟨.inl hholds, fun h => ?_⟩
        obtain ⟨_, hfree, _⟩ := htaken (hafter _ h)
        rw [hself hholds] at hfree
        cases hfree
      | false =>
        rcases DedupCall.apply_cases hends with hsame | hfree
        · refine .inr (.inl ⟨hsame, fun h => ?_⟩)
          obtain ⟨_, hfree, hreserved⟩ := htaken (hafter _ h)
          rw [hsame, hfree] at hreserved
          cases hreserved
        · exact .inr (.inr (hcallKey ▸ hfree))
  · have hne : j ≠ i := by
      rintro rfl
      exact absurd (hleft.symm.trans hj) (by simp)
    simpa [State.move, hne] using hs.left j call hj

/-- The thread makes a call that was left behind. -/
theorem Safe.ranLeft (hs : G.Safe s c) (time : Timestamp) (fate : DedupFate)
    (hcall : s.left i = some call) :
    call.Held c ∧ G.Safe { s with
        left := Function.update s.left i none
        store := (callStore fate time call s.store).2 }
      (if fate = .raises then c else (call.apply c).2) := by
  obtain ⟨key, hkey⟩ := G.exists_key i
  obtain ⟨hcallKey, hstage⟩ := hs.left i call hcall
  have hself : call.ends = true → c (G.key i) = .reserved :=
    fun hends => hs.held.reserved i (.inr ⟨call, hcall, hends⟩)
  have hheld : call.Held c := by
    cases call with
    | get _ | reserve _ => trivial
    | remember _ _ | release _ =>
      cases hcallKey
      exact hself rfl
  obtain ⟨hshown, _⟩ := callStore_shows time fate hs.shown
    (hcallKey.trans hkey.symm) hheld
  have hothers : ∀ t : Store, ∀ j, State.Holds { s with
      left := Function.update s.left i none, store := t } j → j ≠ i ∧ s.Holds j := by
    intro t j hj
    have hne : j ≠ i := by
      rintro rfl
      simp [State.Holds, hstage, HandleStage.holds] at hj
    exact ⟨hne, by simpa [State.Holds, hne] using hj⟩
  refine ⟨hheld, hshown, ?_, fun j call hj => ?_⟩
  · split_ifs with hfate
    · exact hs.held.mono fun j hj => (hothers _ j hj).2
    · refine hs.held.step hcallKey (fun j _ hj => (hothers _ j hj).2) ?_
      cases hends : call.ends with
      | true => exact .inl ⟨.inr ⟨call, hcall, hends⟩, fun h => (hothers _ i h).1 rfl⟩
      | false =>
        rcases DedupCall.apply_cases hends with hsame | hfree
        · exact .inr (.inl ⟨hsame, fun h => absurd rfl (hothers _ i h).1⟩)
        · exact .inr (.inr (hcallKey ▸ hfree))
  · by_cases hji : j = i
    · simp [hji] at hj
    · exact hs.left j call (by simpa [hji] using hj)

/-- A step keeps the invariant, and does to the cells what its call does. -/
theorem safe_step {a : Event ι} (hs : G.Safe s c) (hstep : G.next s a = some s') :
    (∀ call, G.performs s a = some call → call.Held c) ∧ G.Safe s' (G.cellsAfter s a c) := by
  cases a with
  | authorized i answer =>
    simp only [next] at hstep
    split_ifs at hstep with hstage
    cases hstep
    refine ⟨by simp [performs], hs.move (by simp [hstage]) fun hholds => ?_⟩
    rw [HandleStage.holds_authorized] at hholds
    cases hholds
  | called i time fate =>
    simp only [next, Option.bind_eq_some_iff, Option.map_eq_some_iff] at hstep
    obtain ⟨call, hcall, stage, hresume, rfl⟩ := hstep
    obtain ⟨hheld, hsafe⟩ := hs.called hcall hresume
    rw [cellsAfter, performs, hcall]
    split_ifs at hsafe ⊢ with hfate
    · exact ⟨by simp, hsafe⟩
    · refine ⟨fun _ h => ?_, hsafe⟩
      cases h
      exact hheld
  | dispatched i outcome =>
    simp only [next] at hstep
    split_ifs at hstep with hstage
    cases hstep
    refine ⟨by simp [performs], hs.move (by simp [hstage]) fun _ => ?_⟩
    rw [hstage]
    rfl
  | interrupted i =>
    simp only [next, Option.map_eq_some_iff] at hstep
    obtain ⟨stage, hinterrupt, rfl⟩ := hstep
    exact ⟨by simp [performs], hs.interrupt hinterrupt⟩
  | ranLeft i time fate =>
    simp only [next, Option.map_eq_some_iff] at hstep
    obtain ⟨call, hcall, rfl⟩ := hstep
    obtain ⟨hheld, hsafe⟩ := hs.ranLeft time fate hcall
    rw [cellsAfter, performs, hcall]
    split_ifs at hsafe ⊢ with hfate
    · exact ⟨by simp, hsafe⟩
    · refine ⟨fun _ h => ?_, hsafe⟩
      cases h
      exact hheld
  | wrote op =>
    simp only [next, Option.isNone_iff_eq_none] at hstep
    split_ifs at hstep with hop
    cases hstep
    exact ⟨by simp [performs], ⟨hs.shown.wrote hop, hs.held, hs.left⟩⟩

theorem safe_init (hs : G.system.init s) : ∃ c, G.Safe s c := by
  obtain ⟨hstages, hleft, c, hshown⟩ := hs
  have hnobody : ∀ i, ¬ s.Holds i := by
    rintro i (hi | ⟨call, hcall, _⟩)
    · rw [hstages i] at hi
      cases hi
    · rw [hleft i] at hcall
      cases hcall
  refine ⟨c, hshown, ⟨fun i hi => absurd hi (hnobody i), fun i _ hi => absurd hi (hnobody i)⟩, ?_⟩
  intro i call hcall
  rw [hleft i] at hcall
  cases hcall

theorem safe_reachable (hs : G.system.Reachable s) : ∃ c, G.Safe s c := by
  have hI : G.system.Invariant fun s => ∃ c, G.Safe s c := {
    init := fun _ hs => safe_init hs
    step := fun _ _ _ hs hstep => by
      obtain ⟨c, hs⟩ := hs
      exact ⟨_, (safe_step hs hstep).2⟩ }
  exact hI.reachable hs

/-! ## Responses -/

variable {key : IdempotencyKey} {response : GatewayResponse}

omit [DecidableEq ι] in
theorem Safe.remembered_iff (hs : G.Safe s c) :
    s.Remembered key response ↔ c key.val = .settled response := by
  rw [State.Remembered, hs.shown.2 key]
  cases hcell : c key.val with
  | free | reserved => simp [Cell.map]
  | settled response' =>
    rw [Cell.map, Cell.settled.injEq, Cell.settled.injEq]
    constructor
    · intro hdump
      have hread := GatewayResponse.modelValidate_modelDump response'
      rw [hdump, GatewayResponse.modelValidate_modelDump] at hread
      exact (Except.ok.inj hread).symm
    · exact congrArg GatewayResponse.modelDump

/-- After a step a key is settled with a response exactly if it was before, or the step has
remembered the response. -/
theorem safe_step_settled {a : Event ι} (hs : G.Safe s c) (hstep : G.next s a = some s') :
    G.cellsAfter s a c key.val = .settled response ↔
      G.performs s a = some (.remember key.val response) ∨ c key.val = .settled response := by
  have hheld := (safe_step hs hstep).1
  rw [cellsAfter]
  cases hperforms : G.performs s a with
  | none => simp
  | some call =>
    rw [Option.elim_some, DedupCall.apply_settled (hheld call hperforms), Option.some.injEq]

/-- A response that has been remembered stays. -/
theorem run_settled {as : List (Event ι)} {t : State ι} (hs : G.Safe s c)
    (hr : G.system.Run s as t) (hc : c key.val = .settled response) :
    ∃ c', G.Safe t c' ∧ c' key.val = .settled response := by
  refine hr.keeps (I := fun s => ∃ c, G.Safe s c ∧ c key.val = .settled response) ?_ ⟨c, hs, hc⟩
  rintro s a t ⟨c, hs, hc⟩ hstep
  exact ⟨_, (safe_step hs hstep).2, (safe_step_settled hs hstep).2 (.inr hc)⟩

/-- A lookup that succeeds finds the response. -/
theorem Safe.looked (hs : G.Safe s c) (hc : c key.val = .settled response)
    (hkey : G.key i = key.val) (hstage : s.stages i = .looking)
    (hstep : G.next s (.called i time .replies) = some s') :
    s'.stages i = .returned response.replay := by
  simp only [next, Option.bind_eq_some_iff, Option.map_eq_some_iff, hstage, hkey] at hstep
  obtain ⟨call, hcall, stage, hresume, rfl⟩ := hstep
  cases hcall
  have hserves : DurableRequestDeduplicator.Serves c (.get key.val)
      (DurableRequestDeduplicator.run time s.store (.get key.val)) :=
    DurableRequestDeduplicator.serves_run hs.shown rfl trivial
  have hreply : (callStore .replies time (.get key.val) s.store).1 = .found (some response) :=
    hserves.1.trans (DedupCall.apply_found.2 hc)
  rw [hreply] at hresume
  cases hresume
  simp [State.move]

/-- However the handlers are interleaved, however their dispatches end and whichever of their calls
fail: at most one handler holds a key; and once a response has been remembered for a key, it stays,
no handler dispatches a request with the key again, and every lookup that succeeds finds it. -/
theorem dispatched_once (G : DurableGateway ι) (s : State ι) (hs : G.system.Reachable s) :
    (∀ i j, s.Holds i → s.Holds j → G.key i = G.key j → i = j) ∧
    (∀ a t key response, G.system.step s a t →
      G.performs s a = some (.remember key.val response) → t.Remembered key response) ∧
    ∀ key response, s.Remembered key response → ∀ as t, G.system.Run s as t →
      t.Remembered key response ∧ ∀ i, G.key i = key.val → t.stages i ≠ .dispatching ∧
        ∀ time u, t.stages i = .looking → G.system.step t (.called i time .replies) u →
          u.stages i = .returned response.replay ∧ response.replay.replayed = true := by
  obtain ⟨c, hsafe⟩ := safe_reachable hs
  refine ⟨hsafe.held.unique, ?_, ?_⟩
  · intro a t key response hstep hremembers
    rw [(safe_step hsafe hstep).2.remembered_iff]
    exact (safe_step_settled hsafe hstep).2 (.inl hremembers)
  · intro key response hremembered as t hr
    obtain ⟨c', hsafe', hc'⟩ := run_settled hsafe hr (hsafe.remembered_iff.1 hremembered)
    refine ⟨hsafe'.remembered_iff.2 hc', fun i hkey => ⟨fun hdispatching => ?_, ?_⟩⟩
    · have hreserved := hsafe'.held.reserved i (.inl (by rw [hdispatching]; rfl))
      rw [hkey, hc'] at hreserved
      cases hreserved
    · intro time u hlooking hstep
      exact ⟨hsafe'.looked hc' hkey hlooking hstep, rfl⟩

/-- Only a write of somebody else can change the receipts. -/
theorem step_receipts {a : Event ι} (hstep : G.next s a = some s') :
    (∃ op, a = .wrote op ∧ s'.store = op.after s.store) ∨
      s'.store.deliveryReceipts = s.store.deliveryReceipts := by
  have hcall : ∀ time fate call,
      (callStore fate time call s.store).2.deliveryReceipts = s.store.deliveryReceipts := by
    intro time fate call
    cases fate with
    | raises => rfl
    | replies | raisesAfter => exact DurableRequestDeduplicator.run_receipts time s.store call
  cases a with
  | authorized i answer =>
    simp only [next] at hstep
    split_ifs at hstep
    cases hstep
    exact .inr rfl
  | called i time fate =>
    simp only [next, Option.bind_eq_some_iff, Option.map_eq_some_iff] at hstep
    obtain ⟨call, _, stage, _, rfl⟩ := hstep
    exact .inr (hcall time fate call)
  | dispatched i outcome =>
    simp only [next] at hstep
    split_ifs at hstep
    cases hstep
    exact .inr rfl
  | interrupted i =>
    simp only [next, Option.map_eq_some_iff] at hstep
    obtain ⟨stage, _, rfl⟩ := hstep
    exact .inr rfl
  | ranLeft i time fate =>
    simp only [next, Option.map_eq_some_iff] at hstep
    obtain ⟨call, _, rfl⟩ := hstep
    exact .inr (hcall time fate call)
  | wrote op =>
    simp only [next] at hstep
    split_ifs at hstep
    cases hstep
    exact .inl ⟨op, rfl, rfl⟩

/-- A handler that has returned takes no further step. -/
theorem returned_stays {a : Event ι} {response : GatewayResponse} (hstep : G.next s a = some s')
    (hi : s.stages i = .returned response) : s'.stages i = .returned response := by
  have hmove : ∀ (j : ι) (stage : HandleStage) (store : Store) (left : ι → Option DedupCall),
      s.stages j ≠ .returned response →
        (⟨Function.update s.stages j stage, left, store⟩ : State ι).stages i =
          .returned response := by
    intro j stage store left hj
    have hne : i ≠ j := fun h => hj (h ▸ hi)
    simpa [hne] using hi
  cases a with
  | authorized j answer =>
    simp only [next] at hstep
    split_ifs at hstep with hstage
    cases hstep
    exact hmove j _ _ _ (by simp [hstage])
  | called j time fate =>
    simp only [next, Option.bind_eq_some_iff, Option.map_eq_some_iff] at hstep
    obtain ⟨call, hcall, stage, _, rfl⟩ := hstep
    refine hmove j stage _ _ fun hj => ?_
    rw [hj] at hcall
    cases hcall
  | dispatched j outcome =>
    simp only [next] at hstep
    split_ifs at hstep with hstage
    cases hstep
    exact hmove j _ _ _ (by simp [hstage])
  | interrupted j =>
    simp only [next, Option.map_eq_some_iff] at hstep
    obtain ⟨stage, hinterrupt, rfl⟩ := hstep
    refine hmove j stage _ _ fun hj => ?_
    rw [hj] at hinterrupt
    cases hinterrupt
  | ranLeft j time fate =>
    simp only [next, Option.map_eq_some_iff] at hstep
    obtain ⟨call, _, rfl⟩ := hstep
    exact hi
  | wrote op =>
    simp only [next] at hstep
    split_ifs at hstep
    cases hstep
    exact hi

/-! ## Where responses come from -/

/-- The instruction has credential material in it. -/
def refuses (G : DurableGateway ι) (i : ι) : Bool :=
  (G.requests i).instruction.any fun instruction => G.sensitive instruction.val

/-- Where the responses of the handlers come from. A request with credential material is not looked
up, a response is returned after a release only if it is transient, and a response that is not
interim is the one that has been remembered. -/
structure Answered (G : DurableGateway ι) (s : State ι) (c : Cells String GatewayResponse) :
    Prop where
  refused : ∀ i, G.refuses i = true → (s.stages i).call (G.key i) = none ∧
    s.stages i ≠ .dispatching ∧ s.left i = none
  releasing : ∀ i r, s.stages i = .releasing (some r) → r.isTransient = true
  returned : ∀ i r, s.stages i = .returned r → G.refuses i = false → r.isInterim = false →
    ∃ response, c (G.key i) = .settled response ∧ r.message = response.message

variable {c' : Cells String GatewayResponse}

/-- The handler `i` moves, and no response is forgotten. -/
theorem Answered.move (h : G.Answered s c) {stage : HandleStage}
    (hkept : ∀ j response, c (G.key j) = .settled response → c' (G.key j) = .settled response)
    (hstages : s'.stages = Function.update s.stages i stage)
    (hleft : ∀ j, j ≠ i → s'.left j = s.left j)
    (hrefused : G.refuses i = true → stage.call (G.key i) = none ∧ stage ≠ .dispatching ∧
      s'.left i = none)
    (hreleasing : ∀ r, stage = .releasing (some r) → r.isTransient = true)
    (hreturned : ∀ r, stage = .returned r → G.refuses i = false → r.isInterim = false →
      ∃ response, c' (G.key i) = .settled response ∧ r.message = response.message) :
    G.Answered s' c' := by
  have hothers : ∀ j, j ≠ i → s'.stages j = s.stages j := fun j hji => by
    rw [hstages, Function.update_of_ne hji]
  have hself : s'.stages i = stage := by rw [hstages, Function.update_self]
  refine ⟨fun j => ?_, fun j => ?_, fun j r hr hrefuses hinterim => ?_⟩ <;> by_cases hji : j = i
  · subst hji
    rwa [hself]
  · rw [hothers j hji, hleft j hji]
    exact h.refused j
  · subst hji
    rwa [hself]
  · rw [hothers j hji]
    exact h.releasing j
  · subst hji
    exact hreturned r (hself ▸ hr) hrefuses hinterim
  · obtain ⟨response, hcell, hmessage⟩ := h.returned j r (hothers j hji ▸ hr) hrefuses hinterim
    exact ⟨response, hkept j response hcell, hmessage⟩

/-- A step at which no actor is turned away. -/
theorem answered_step {a : Event ι} (hs : G.Safe s c) (h : G.Answered s c)
    (hauth : ∀ i, a ≠ .authorized i (some false)) (hstep : G.next s a = some s') :
    G.Answered s' (G.cellsAfter s a c) := by
  have hkept : ∀ j response, c (G.key j) = .settled response →
      G.cellsAfter s a c (G.key j) = .settled response := by
    intro j response hcell
    obtain ⟨key, hkey⟩ := G.exists_key j
    rw [← hkey] at hcell ⊢
    exact (safe_step_settled hs hstep).2 (.inr hcell)
  have hsettled : ∀ (key : IdempotencyKey) (response : GatewayResponse),
      G.performs s a = some (.remember key.val response) →
        G.cellsAfter s a c key.val = .settled response :=
    fun _ _ hremembers => (safe_step_settled hs hstep).2 (.inl hremembers)
  cases a with
  | authorized i answer =>
    simp only [next] at hstep
    split_ifs at hstep with hstage
    cases hstep
    refine h.move (i := i) hkept rfl (fun _ _ => rfl) ?_ ?_ ?_
    · intro hrefuses
      refine ⟨?_, ?_, (h.refused i hrefuses).2.2⟩
      all_goals
        rcases answer with _ | _ | _
        · simp [HandleStage.authorized, HandleStage.call]
        · exact absurd rfl (hauth i)
        · have hany : (G.requests i).instruction.any (fun v => G.sensitive v.val) = true := hrefuses
          simp [HandleStage.authorized, HandleStage.call, hany]
    · intro r hr
      rcases answer with _ | _ | _
      · cases hr
      · cases hr
      · unfold HandleStage.authorized at hr
        split_ifs at hr
    · intro r hr hrefuses hinterim
      rcases answer with _ | _ | _
      · cases hr
        cases hinterim
      · exact absurd rfl (hauth i)
      · have hany : (G.requests i).instruction.any (fun v => G.sensitive v.val) = false := hrefuses
        simp [HandleStage.authorized, hany] at hr
  | called i time fate =>
    simp only [next, Option.bind_eq_some_iff, Option.map_eq_some_iff] at hstep
    obtain ⟨call, hcall, stage, hresume, rfl⟩ := hstep
    have hrefuses : G.refuses i ≠ true := fun hrefuses =>
      absurd ((h.refused i hrefuses).1.symm.trans hcall) (by simp)
    obtain ⟨key, hkey⟩ := G.exists_key i
    obtain ⟨hheld, _⟩ := hs.called hcall hresume
    have hreply := (callStore_shows time fate hs.shown
      ((HandleStage.key_of_call hcall).trans hkey.symm) hheld).2
    refine h.move (i := i) hkept rfl (fun _ _ => rfl) (fun hr => absurd hr hrefuses) ?_ ?_
    · rintro r rfl
      exact absurd hresume HandleStage.resume_ne_releasing
    · rintro r rfl _ hinterim
      rcases HandleStage.resume_returned hcall (hreply.imp id fun h => h.2) hresume with
        hr | hr | ⟨cached, hcell, rfl⟩ | ⟨hdone, rfl⟩
      · rw [hinterim] at hr
        cases hr
      · rw [GatewayResponse.isInterim, h.releasing i r hr, Bool.or_true] at hinterim
        cases hinterim
      · exact ⟨cached, hkept i cached hcell, rfl⟩
      · have hfate : fate = .replies := hreply.elim (fun h => by cases hdone.symm.trans h) And.left
        have hperforms : G.performs s (.called i time fate) = some (.remember key.val r) := by
          rw [performs, hfate, if_neg (by simp), hcall, hkey]
        exact ⟨r, hkey ▸ hsettled key r hperforms, rfl⟩
  | dispatched i outcome =>
    simp only [next] at hstep
    split_ifs at hstep with hstage
    cases hstep
    refine h.move (i := i) hkept rfl (fun _ _ => rfl) ?_ ?_ ?_
    · intro hrefuses
      exact absurd hstage (h.refused i hrefuses).2.1
    · intro r hr
      rcases HandleStage.dispatched_cases outcome with hd | ⟨_, hd, htransient⟩ | ⟨_, hd⟩ <;>
        rw [hd] at hr <;> cases hr
      exact htransient
    · intro r hr
      rcases HandleStage.dispatched_cases outcome with hd | ⟨_, hd, _⟩ | ⟨_, hd⟩ <;>
        rw [hd] at hr <;> cases hr
  | interrupted i =>
    simp only [next, Option.map_eq_some_iff] at hstep
    obtain ⟨stage, hinterrupt, rfl⟩ := hstep
    refine h.move (i := i) hkept rfl (fun j hji => Function.update_of_ne hji _ _) ?_ ?_ ?_
    · intro hrefuses
      obtain ⟨hnone, hdispatching, _⟩ := h.refused i hrefuses
      rcases HandleStage.interrupt_cases hinterrupt with rfl | ⟨hstage, _⟩
      · exact ⟨rfl, by simp, by simp [hnone]⟩
      · exact absurd hstage hdispatching
    all_goals
      rintro r rfl
      rcases HandleStage.interrupt_cases hinterrupt with hr | ⟨_, hr⟩ <;> cases hr
  | ranLeft i time fate =>
    simp only [next, Option.map_eq_some_iff] at hstep
    obtain ⟨call, hcall, rfl⟩ := hstep
    refine h.move (i := i) hkept (Function.update_eq_self i s.stages).symm
      (fun j hji => Function.update_of_ne hji _ _) ?_ ?_ ?_
    · intro hrefuses
      exact absurd ((h.refused i hrefuses).2.2.symm.trans hcall) (by simp)
    all_goals
      intro r hr
      rw [(hs.left i call hcall).2] at hr
      cases hr
  | wrote op =>
    simp only [next] at hstep
    split_ifs at hstep
    cases hstep
    exact ⟨h.refused, h.releasing, h.returned⟩

omit [DecidableEq ι] in
/-- Who makes a call has a request that is not refused. -/
theorem Answered.accepts (h : G.Answered s c) {a : Event ι}
    (hperforms : G.performs s a = some call) : ∃ i, G.refuses i = false := by
  cases a with
  | authorized _ _ | dispatched _ _ | interrupted _ | wrote _ => cases hperforms
  | called i time fate =>
    refine ⟨i, Bool.eq_false_iff.2 fun hrefuses => ?_⟩
    simp [performs, (h.refused i hrefuses).1] at hperforms
  | ranLeft i time fate =>
    refine ⟨i, Bool.eq_false_iff.2 fun hrefuses => ?_⟩
    simp [performs, (h.refused i hrefuses).2.2] at hperforms

end DurableGateway

namespace Sample

/-- The status is asked for. -/
def statusRequest : GatewayRequest :=
  ⟨{ source := taskFields.source, sourceEventId := ⟨"Ev4", by decide⟩
     actorId := ⟨"U4", by decide⟩, command := .status }, rfl⟩

def statusKey : IdempotencyKey := ⟨"slack:Ev4", by decide⟩

def statusResponse : GatewayResponse where
  success := true
  code := .ok
  message := ⟨"Tasks: none.", by decide +kernel⟩
  bounded := GatewayResponse.bounded_nil

/-- The same request again and again. -/
def statusRequests : DurableGateway Nat := ⟨fun _ => false, fun _ => statusRequest⟩

def noneHandled : DurableGateway.State Nat := ⟨fun _ => .authorizing, fun _ => none, .empty⟩

def calls (i n : Nat) : DurableGateway.Event Nat := .called i ⟨n, 0⟩ .replies

/-- The first handler is interrupted before its response is remembered. -/
def interruptedFirst : List (DurableGateway.Event Nat) :=
  [.authorized 0 (some true), calls 0 1, calls 0 2, .dispatched 0 (.response statusResponse),
    .interrupted 0]

def thenRemembered : DurableGateway.Event Nat := .ranLeft 0 ⟨3, 0⟩ .replies

end Sample

open Sample in
/-- The second handler finds the response that the thread of the first one has remembered. -/
theorem dispatched_once_sample :
    let s := System.execD statusRequests.next noneHandled interruptedFirst
    let t := System.execD statusRequests.next s [thenRemembered]
    let u := System.execD statusRequests.next t [.authorized 1 (some true)]
    ∀ v, statusRequests.system.step u (calls 1 4) v →
      v.stages 1 = .returned statusResponse.replay := by
  intro s t u v hlooked
  have hinit : statusRequests.system.init noneHandled := by
    refine ⟨fun _ => rfl, fun _ => rfl, fun _ => .free, ?_, fun _ => rfl⟩
    intro row hrow
    exact absurd hrow (Table.not_mem_empty _)
  have hs : statusRequests.system.Reachable s :=
    ⟨noneHandled, interruptedFirst, hinit, System.run_execD (by decide +kernel)⟩
  have ht : statusRequests.system.step s thenRemembered t := System.step_execD (by decide +kernel)
  have hremembered : t.Remembered statusKey statusResponse :=
    (DurableGateway.dispatched_once statusRequests s hs).2.1 thenRemembered t statusKey
      statusResponse ht (by decide +kernel)
  have hu : statusRequests.system.Run t [.authorized 1 (some true)] u :=
    System.run_execD (by decide +kernel)
  have hafter := (DurableGateway.dispatched_once statusRequests t (hs.step ht)).2.2 statusKey
    statusResponse hremembered _ u hu
  exact ((hafter.2 1 (by decide)).2 ⟨4, 0⟩ v (by decide +kernel) hlooked).1

end AIHub
