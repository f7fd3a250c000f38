import AIHub.Gateway.Dedup
import AIHub.Lib.Transition

/-!
# One gateway, two deduplicators

Any number of executions of `AgentGateway.handle`, interleaved at their awaits. Each of their calls
is made to an `InMemoryRequestDeduplicator` and to a `DurableRequestDeduplicator` over a store, and
the execution goes on with the reply of one of them. Other writers of the store come in between.
The exchanges are written down, the last one first.

The handlers hold at most one reservation of a key, which is why the calls on which the two
implementations differ (a response that is remembered twice, the release of a completed key) are
never made (`Comparable.held`).

Main result: `deduplicators_agree`, for every run in which there is room in memory and no entry
expires.
-/

namespace AIHub

open Transition Reservation Store

/-- A call, and the replies of the two deduplicators. -/
structure Exchange where
  call : DedupCall
  fromMemory : DedupReply
  fromStore : DedupReply
  deriving DecidableEq

/-- What both deduplicators are used with. -/
structure GatewayComparison (ι : Type) where
  deduplicator : InMemoryRequestDeduplicator
  /-- The reading of the monotonic clock at the beginning. -/
  start : Int
  followStore : Bool
  sensitive : String → Bool
  requests : ι → GatewayRequest

namespace GatewayComparison

variable {ι : Type} [DecidableEq ι]

structure State (ι : Type) where
  stages : ι → HandleStage
  memory : DedupMemory
  store : Store
  history : List Exchange

inductive Event (ι : Type) where
  /-- The authorizer answers, or raises. -/
  | authorized (i : ι) (answer : Option Bool)
  /-- The next call of the handler, at a reading of the monotonic clock and a time of the store.
  When the handler is interrupted meanwhile, the call still has its effect. -/
  | exchanged (i : ι) (now : Int) (time : Timestamp) (interrupted : Bool)
  | dispatched (i : ι) (outcome : DispatchOutcome)
  | interrupted (i : ι)
  /-- A write to the store that is not about gateway requests. -/
  | wrote (op : WriteOp)

variable (G : GatewayComparison ι)

/-- The key of the request of a handler. -/
def key (i : ι) : String := (G.requests i).idempotencyKey

def State.move (s : State ι) (i : ι) (stage : HandleStage) : State ι :=
  { s with stages := Function.update s.stages i stage }

/-- A call to both deduplicators. -/
def exchange (s : State ι) (call : DedupCall) (now : Int) (time : Timestamp) :
    Exchange × State ι :=
  let inMemory := G.deduplicator.run now s.memory call
  let durable := DurableRequestDeduplicator.run time s.store call
  let exchange : Exchange := ⟨call, inMemory.1, durable.1⟩
  (exchange, { s with
    memory := inMemory.2, store := durable.2, history := exchange :: s.history })

def next (s : State ι) : Event ι → Option (State ι)
  | .authorized i answer =>
    if s.stages i = .authorizing then
      some (s.move i (HandleStage.authorized G.sensitive (G.requests i) answer))
    else none
  | .exchanged i now time interrupted =>
    ((s.stages i).call (G.key i)).bind fun call =>
      let (exchange, s') := G.exchange s call now time
      let reply := if G.followStore then exchange.fromStore else exchange.fromMemory
      ((s.stages i).resume reply).map fun stage =>
        s'.move i (if interrupted then .interrupted else stage)
  | .dispatched i outcome =>
    if s.stages i = .dispatching then some (s.move i (HandleStage.dispatched outcome)) else none
  | .interrupted i => (s.stages i).interrupt.map (s.move i)
  | .wrote op => if op.requestCall.isNone then some { s with store := op.after s.store } else none

/-- At first nothing has been asked for, remembered or stored. -/
def system : System (State ι) (Event ι) :=
  .ofNext (fun s => (∀ i, s.stages i = .authorizing) ∧ s.memory = {} ∧
    s.store.gatewayRequests = .empty _ ∧ s.history = []) G.next

/-- At a call, fewer than `max_entries` keys have completed, and less than `ttl_seconds` have
passed. -/
def WithinLimits (s : State ι) : Event ι → Prop
  | .exchanged _ now _ _ => s.memory.completed.length < G.deduplicator.maxEntries ∧
      G.start ≤ now ∧ now < G.start + G.deduplicator.ttlSeconds
  | _ => True

instance (s : State ι) : ∀ a, Decidable (G.WithinLimits s a)
  | .exchanged .. => inferInstanceAs (Decidable (_ ∧ _ ∧ _))
  | .authorized .. | .dispatched .. | .interrupted _ | .wrote _ => .isTrue trivial

/-- At every call the replies are the same; and a lookup finds exactly the response that has been
remembered, if one has. -/
def Agree (history : List Exchange) : Prop :=
  ∀ later e earlier, history = later ++ e :: earlier → e.fromMemory = e.fromStore ∧
    ∀ key response, e.call = .get key →
      (e.fromMemory = .found (some response) ↔ ∃ e' ∈ earlier, e'.call = .remember key response)

end GatewayComparison

/-! ## The invariant -/

namespace GatewayComparison

variable {ι : Type} [DecidableEq ι] {G : GatewayComparison ι} {s s' : State ι}

/-- The two deduplicators stand for the same cells, a handler holds only a reserved key, and no two
handlers hold one key. -/
structure Comparable (G : GatewayComparison ι) (s : State ι) : Prop where
  tidy : s.memory.Tidy G.start
  shown : DurableRequestDeduplicator.Shows s.store s.memory.cell
  held : ∀ i, (s.stages i).holds = true → s.memory.cell (G.key i) = .reserved
  unique : ∀ i j, (s.stages i).holds = true → (s.stages j).holds = true → G.key i = G.key j → i = j
  agree : Agree s.history
  remembered : ∀ key response, s.memory.cell key = .settled response ↔
    ∃ e ∈ s.history, e.call = .remember key response

theorem comparable_init (hs : G.system.init s) : G.Comparable s := by
  obtain ⟨hstages, hmemory, hstore, hhistory⟩ := hs
  have hcell : s.memory.cell = fun _ => .free := by
    rw [hmemory]
    rfl
  constructor
  · rw [hmemory]
    constructor <;> simp
  · constructor
    · intro row hrow
      rw [hstore] at hrow
      exact absurd hrow (Table.not_mem_empty _)
    · intro key
      rw [Store.requests, hstore, hcell]
      rfl
  · intro i hi
    rw [hstages i] at hi
    cases hi
  · intro i j hi
    rw [hstages i] at hi
    cases hi
  · intro later e earlier h
    rw [hhistory] at h
    simp at h
  · intro key response
    simp [hcell, hhistory]

/-- A handler moves without a call, to a stage in which it does not hold what it did not hold. -/
theorem Comparable.move (hs : G.Comparable s) {i : ι} {stage : HandleStage}
    (hholds : stage.holds = true → (s.stages i).holds = true) : G.Comparable (s.move i stage) := by
  have hkept : ∀ j, ((s.move i stage).stages j).holds = true → (s.stages j).holds = true := by
    intro j hj
    by_cases hji : j = i
    · subst hji
      exact hholds (by simpa [State.move] using hj)
    · simpa [State.move, hji] using hj
  exact {
    tidy := hs.tidy
    shown := hs.shown
    held := fun j hj => hs.held j (hkept j hj)
    unique := fun j k hj hk => hs.unique j k (hkept j hj) (hkept k hk)
    agree := hs.agree
    remembered := hs.remembered }

omit [DecidableEq ι] in
/-- A call to both deduplicators, as it is made to the cells. -/
theorem exchange_serves (hs : G.Comparable s) {i : ι} {call : DedupCall} {now : Int}
    (time : Timestamp) (hcall : (s.stages i).call (G.key i) = some call)
    (hlimits : s.memory.completed.length < G.deduplicator.maxEntries ∧ G.start ≤ now ∧
      now < G.start + G.deduplicator.ttlSeconds) :
    InMemoryRequestDeduplicator.Serves G.start s.memory call
        (G.deduplicator.run now s.memory call) ∧
      DurableRequestDeduplicator.Serves s.memory.cell call
        (DurableRequestDeduplicator.run time s.store call) := by
  obtain ⟨hroom, hstart, hnow⟩ := hlimits
  have hheld : call.Held s.memory.cell := HandleStage.held_of_call hcall (hs.held i)
  obtain ⟨key, hkey⟩ := (G.requests i).idempotencyKey_accepted
  have hkey' : call.key = key.val := (HandleStage.key_of_call hcall).trans hkey.symm
  exact ⟨InMemoryRequestDeduplicator.serves_run hs.tidy hstart hnow hroom hheld,
    DurableRequestDeduplicator.serves_run hs.shown hkey' hheld⟩

/-- The history goes on with an exchange in which the replies are those of the cells. -/
theorem agree_cons {history : List Exchange} {c : Cells String GatewayResponse} {e : Exchange}
    (hagree : Agree history) (hremembered : ∀ key response, c key = .settled response ↔
      ∃ e ∈ history, e.call = .remember key response)
    (hmemory : e.fromMemory = (e.call.apply c).1) (hstore : e.fromStore = (e.call.apply c).1) :
    Agree (e :: history) := by
  intro later e' earlier h
  cases later with
  | nil =>
    cases h
    refine ⟨hmemory.trans hstore.symm, fun key response hget => ?_⟩
    rw [hmemory, hget, DedupCall.apply_found]
    exact hremembered key response
  | cons _ later =>
    cases h
    exact hagree later e' earlier rfl

omit [DecidableEq ι] in
theorem Comparable.keysHeld (hs : G.Comparable s) :
    KeysHeld G.key (fun i => (s.stages i).holds = true) s.memory.cell :=
  ⟨hs.held, hs.unique⟩

/-- A handler makes a call, after which it is interrupted or goes on. -/
theorem Comparable.exchanged (hs : G.Comparable s) {i : ι} {call : DedupCall} {now : Int}
    {time : Timestamp} {stage stage' : HandleStage}
    (hcall : (s.stages i).call (G.key i) = some call)
    (hmemory : InMemoryRequestDeduplicator.Serves G.start s.memory call
      (G.deduplicator.run now s.memory call))
    (hstore : DurableRequestDeduplicator.Serves s.memory.cell call
      (DurableRequestDeduplicator.run time s.store call))
    (hresume : (s.stages i).resume (call.apply s.memory.cell).1 = some stage)
    (hstage : stage'.holds = true → stage.holds = true) :
    G.Comparable ((G.exchange s call now time).2.move i stage') := by
  have hheld : call.Held s.memory.cell := HandleStage.held_of_call hcall (hs.held i)
  have hself : (((G.exchange s call now time).2.move i stage').stages i) = stage' := by
    simp [State.move]
  have hother : ∀ j, j ≠ i →
      ((G.exchange s call now time).2.move i stage').stages j = s.stages j := by
    intro j hji
    simp [State.move, exchange, hji]
  have hcell : ((G.exchange s call now time).2.move i stage').memory.cell =
      (call.apply s.memory.cell).2 := hmemory.2.1
  have hkeys : KeysHeld G.key
      (fun j => (((G.exchange s call now time).2.move i stage').stages j).holds = true)
      (call.apply s.memory.cell).2 := by
    refine hs.keysHeld.step (HandleStage.key_of_call hcall) (fun j hji hj => ?_) ?_
    · rwa [hother j hji] at hj
    · rw [hself]
      rcases HandleStage.resume_cases hcall hresume with ⟨hi, hgone⟩ | ⟨_, hstays, hcells⟩ | hfree
      · exact .inl ⟨hi, fun hholds => absurd (hstage hholds) (by simp [hgone])⟩
      · exact .inr (.inl ⟨hcells, fun hholds => absurd (hstage hholds) (by simp [hstays])⟩)
      · exact .inr (.inr hfree.2)
  constructor
  · exact hmemory.2.2
  · rw [hcell]
    exact hstore.2
  · rw [hcell]
    exact hkeys.reserved
  · exact hkeys.unique
  · exact agree_cons hs.agree hs.remembered hmemory.1 hstore.1
  · intro key response
    rw [hcell, DedupCall.apply_settled hheld, hs.remembered]
    exact (List.exists_mem_cons_iff (fun e : Exchange => e.call = .remember key response)
      (G.exchange s call now time).1 s.history).symm

omit [DecidableEq ι] in
/-- A write that is not about gateway requests leaves their table as it is. -/
theorem Comparable.wrote (hs : G.Comparable s) {op : WriteOp} (hop : op.requestCall = none) :
    G.Comparable { s with store := op.after s.store } :=
  { hs with shown := hs.shown.wrote hop }

theorem comparable_step {a : Event ι} (hs : G.Comparable s)
    (hstep : (G.system.guard G.WithinLimits).step s a s') : G.Comparable s' := by
  obtain ⟨hlimits, hnext⟩ := hstep
  replace hnext : G.next s a = some s' := hnext
  cases a with
  | authorized i answer =>
    simp only [next] at hnext
    split_ifs at hnext with hstage
    cases hnext
    exact hs.move fun hholds => absurd hholds (by simp [HandleStage.holds_authorized])
  | exchanged i now time interrupted =>
    simp only [next, Option.bind_eq_some_iff, Option.map_eq_some_iff] at hnext
    obtain ⟨call, hcall, stage, hresume, rfl⟩ := hnext
    obtain ⟨hmemory, hstore⟩ := exchange_serves hs time hcall hlimits
    have hreply : (if G.followStore then (G.exchange s call now time).1.fromStore
        else (G.exchange s call now time).1.fromMemory) = (call.apply s.memory.cell).1 := by
      split_ifs
      · exact hstore.1
      · exact hmemory.1
    rw [hreply] at hresume
    refine hs.exchanged hcall hmemory hstore hresume fun hholds => ?_
    cases interrupted with
    | true => cases hholds
    | false => exact hholds
  | dispatched i outcome =>
    simp only [next] at hnext
    split_ifs at hnext with hstage
    cases hnext
    exact hs.move fun _ => by rw [hstage]; rfl
  | interrupted i =>
    obtain ⟨stage, hinterrupt, rfl⟩ := Option.map_eq_some_iff.1 hnext
    exact hs.move (HandleStage.holds_interrupt hinterrupt)
  | wrote op =>
    simp only [next, Option.isNone_iff_eq_none] at hnext
    split_ifs at hnext with hop
    cases hnext
    exact hs.wrote hop

theorem comparable_reachable (hs : (G.system.guard G.WithinLimits).Reachable s) :
    G.Comparable s := by
  have hI : (G.system.guard G.WithinLimits).Invariant G.Comparable := {
    init := fun _ hs => comparable_init hs
    step := fun _ _ _ hs hstep => comparable_step hs hstep }
  exact hI.reachable hs

end GatewayComparison

open GatewayComparison

/-- However the handlers are interleaved, and whichever deduplicator they listen to: while fewer
than `max_entries` keys have completed and less than `ttl_seconds` have passed, both deduplicators
give the same reply to every call, and a lookup finds exactly the response that was remembered. -/
theorem deduplicators_agree {ι : Type} [DecidableEq ι] (G : GatewayComparison ι) (s : State ι)
    (hs : (G.system.guard G.WithinLimits).Reachable s) : Agree s.history :=
  (comparable_reachable hs).agree

namespace Sample

/-- The commands are asked for. -/
def helpRequest : GatewayRequest :=
  ⟨{ source := taskFields.source, sourceEventId := ⟨"Ev26", by decide⟩
     actorId := ⟨"U26", by decide⟩, command := .help }, rfl⟩

def helpResponse : GatewayResponse where
  success := true
  code := .ok
  message := ⟨"/ai dev, /ai status, /ai task", by decide +kernel⟩
  bounded := GatewayResponse.bounded_nil

/-- The same request again and again. -/
def helpRequests : GatewayComparison Nat :=
  ⟨⟨10, 60, by decide⟩, 0, true, fun _ => false, fun _ => helpRequest⟩

def noRequests : GatewayComparison.State Nat := ⟨fun _ => .authorizing, {}, .empty, []⟩

def asks (i n : Nat) : Event Nat := .exchanged i n ⟨n, 0⟩ false

/-- The second request comes while the first one is handled, and the third one afterwards. -/
def threeRequests : List (Event Nat) :=
  [.authorized 0 (some true), asks 0 1, asks 0 2, .authorized 1 (some true), asks 1 3, asks 1 4,
    .dispatched 0 (.response helpResponse), asks 0 5, .authorized 2 (some true), asks 2 6]

end Sample

open Sample in
theorem deduplicators_agree_sample :
    let next := System.guardNext helpRequests.WithinLimits helpRequests.next
    Agree (System.execD next noRequests threeRequests).history ∧
      (System.execD next noRequests threeRequests).stages 2 = .returned helpResponse.replay := by
  intro next
  have hM : helpRequests.system.guard helpRequests.WithinLimits = System.ofNext _ next :=
    System.ofNext_guard
  refine ⟨deduplicators_agree helpRequests _ ?_, by decide +kernel⟩
  rw [hM]
  exact ⟨noRequests, _, ⟨fun _ => rfl, rfl, rfl, rfl⟩, System.run_execD (by decide +kernel)⟩

end AIHub
