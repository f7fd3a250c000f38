import AIHub.Gateway.Handle
import AIHub.Storage.GatewayRequests

/-!
# Request deduplicators

`InMemoryRequestDeduplicator`, with its completed responses in the order of their use and its set
of keys in flight, and `DurableRequestDeduplicator` over the table of gateway requests.

Both stand for one map, from keys to cells that are free, reserved or settled with a response
(`DedupCall.apply`), as long as a response is remembered, and a key released, only while the key is
reserved (`DedupCall.Held`).

* `InMemoryRequestDeduplicator.serves_run`: the memory, while no entry is pruned or evicted.
* `DurableRequestDeduplicator.serves_run`: the store, in which a response is its document.
-/

namespace AIHub

open Reservation Store

/-! ## Cells of keys -/

namespace DedupCall

def key : DedupCall → String
  | get key | reserve key | remember key _ | release key => key

/-- What a call does to the cells of the keys, and the reply. -/
def apply : DedupCall → Cells String GatewayResponse →
    DedupReply × Cells String GatewayResponse
  | get key, c =>
    match c key with
    | .settled response => (.found (some response), c)
    | .free | .reserved => (.found none, c)
  | reserve key, c =>
    match c key with
    | .free => (.reserved true, Function.update c key .reserved)
    | .reserved | .settled _ => (.reserved false, c)
  | remember key response, c => (.done, Function.update c key (.settled response))
  | release key, c => (.done, Function.update c key .free)

/-- The calls that end a reservation. -/
def ends : DedupCall → Bool
  | remember _ _ | release _ => true
  | get _ | reserve _ => false

/-- A response is remembered, and a key released, only while the key is reserved. -/
def Held (c : Cells String GatewayResponse) : DedupCall → Prop
  | get _ | reserve _ => True
  | remember key _ | release key => c key = .reserved

/-- What a call writes to the store. -/
def write (time : Timestamp) : DedupCall → Option WriteOp
  | get _ => none
  | reserve key => some (.reserveGatewayRequest key time)
  | remember key response => some (.rememberGatewayResponse key response.modelDump time)
  | release key => some (.releaseGatewayRequest key time)

variable {c : Cells String GatewayResponse} {call : DedupCall} {key' : String}
  {response : GatewayResponse}

/-- No other cell is touched. -/
theorem apply_other (hne : key' ≠ call.key) : (call.apply c).2 key' = c key' := by
  cases call with
  | get key => cases hcell : c key <;> simp only [apply, hcell]
  | reserve key =>
    cases hcell : c key with
    | free =>
      simp only [apply, hcell]
      exact Function.update_of_ne hne _ _
    | reserved => simp only [apply, hcell]
    | settled _ => simp only [apply, hcell]
  | remember key response => exact Function.update_of_ne hne _ _
  | release key => exact Function.update_of_ne hne _ _

/-- A call that ends no reservation changes nothing, or takes a free key. -/
theorem apply_cases (hends : call.ends = false) :
    (call.apply c).2 = c ∨ c call.key = .free ∧ (call.apply c).2 call.key = .reserved := by
  cases call with
  | get key =>
    refine .inl ?_
    cases hcell : c key <;> simp only [apply, hcell]
  | reserve key =>
    cases hcell : c key with
    | free => exact .inr ⟨hcell, by simp [apply, DedupCall.key, hcell]⟩
    | reserved | settled _ => exact .inl (by simp only [apply, hcell])
  | remember _ _ | release _ => cases hends

/-- A cell is settled with a response exactly if the response has been remembered. -/
theorem apply_settled (hheld : call.Held c) :
    (call.apply c).2 key' = .settled response ↔
      call = .remember key' response ∨ c key' = .settled response := by
  by_cases hne : key' ≠ call.key
  · rw [apply_other hne]
    refine ⟨.inr, fun h => h.resolve_left fun hcall => ?_⟩
    exact hne (hcall ▸ rfl)
  · rw [not_ne_iff] at hne
    subst hne
    cases call with
    | get key => cases hcell : c key <;> simp [apply, DedupCall.key, hcell]
    | reserve key => cases hcell : c key <;> simp [apply, DedupCall.key, hcell]
    | remember key _ =>
      have hcell : c key = .reserved := hheld
      simp [apply, DedupCall.key, hcell]
    | release key =>
      have hcell : c key = .reserved := hheld
      simp [apply, DedupCall.key, hcell]

/-- What is found is what the cell is settled with. -/
theorem apply_found {key : String} :
    ((get key).apply c).1 = .found (some response) ↔ c key = .settled response := by
  cases hcell : c key <;> simp [apply, hcell]

end DedupCall

/-! ## In memory -/

structure CompletedEntry where
  key : String
  storedAt : Int
  response : GatewayResponse
  deriving DecidableEq

structure InMemoryRequestDeduplicator where
  maxEntries : Nat
  ttlSeconds : Int
  positive : 1 ≤ maxEntries ∧ 0 < ttlSeconds

/-- What it keeps: an ordered dictionary, the entry that comes first in front, and a set. -/
structure DedupMemory where
  completed : List CompletedEntry := []
  inFlight : List String := []
  deriving DecidableEq

namespace InMemoryRequestDeduplicator

variable (d : InMemoryRequestDeduplicator) (now : Int)

/-- `_prune`. -/
def prune (completed : List CompletedEntry) : List CompletedEntry :=
  completed.dropWhile fun entry => entry.storedAt < now - d.ttlSeconds

/-- `move_to_end`. -/
def moveToEnd (key : String) (completed : List CompletedEntry) : List CompletedEntry :=
  completed.filter (fun entry => entry.key ≠ key) ++ completed.filter fun entry => entry.key = key

/-- Set the value of a key, and move it to the end. -/
def setAtEnd (entry : CompletedEntry) (completed : List CompletedEntry) : List CompletedEntry :=
  completed.filter (fun entry' => entry'.key ≠ entry.key) ++ [entry]

/-- Evict the entries in front until there is room. -/
def evict (completed : List CompletedEntry) : List CompletedEntry :=
  completed.drop (completed.length - d.maxEntries)

/-- A call, with the reading of the monotonic clock. -/
def run (s : DedupMemory) : DedupCall → DedupReply × DedupMemory
  | .get key =>
    let completed := d.prune now s.completed
    match completed.find? fun entry => entry.key = key with
    | none => (.found none, { s with completed })
    | some entry => (.found (some entry.response), { s with completed := moveToEnd key completed })
  | .reserve key =>
    let completed := d.prune now s.completed
    if key ∈ s.inFlight ∨ completed.any (fun entry => entry.key = key) then
      (.reserved false, { s with completed })
    else (.reserved true, ⟨completed, key :: s.inFlight⟩)
  | .remember key response =>
    (.done, ⟨d.evict (setAtEnd ⟨key, now, response⟩ s.completed), s.inFlight.filter (· ≠ key)⟩)
  | .release key => (.done, { s with inFlight := s.inFlight.filter (· ≠ key) })

end InMemoryRequestDeduplicator

/-! ## Durable -/

namespace DurableRequestDeduplicator

def get (key : String) (time : Timestamp) (s : Store) : DedupReply :=
  match s.getGatewayRequest key time with
  | .error _ => .raised
  | .ok none => .found none
  | .ok (some record) =>
    match record.response with
    | none => .found none
    | some document =>
      match GatewayResponse.modelValidate document with
      | .ok response => .found (some response)
      | .error _ => .raised

def reserve (key : String) (time : Timestamp) (s : Store) : DedupReply × Store :=
  match Store.reserveGatewayRequest key time s with
  | .ok (b, s') => (.reserved b, s')
  | .error _ => (.raised, s)

def remember (key : String) (response : GatewayResponse) (time : Timestamp) (s : Store) :
    DedupReply × Store :=
  match Store.rememberGatewayResponse key response.modelDump time s with
  | .ok (_, s') => (.done, s')
  | .error _ => (.raised, s)

def release (key : String) (time : Timestamp) (s : Store) : DedupReply × Store :=
  match Store.releaseGatewayRequest key time s with
  | .ok (_, s') => (.done, s')
  | .error _ => (.raised, s)

/-- A call, with the time at which the store makes it. -/
def run (time : Timestamp) (s : Store) : DedupCall → DedupReply × Store
  | .get key => (get key time s, s)
  | .reserve key => reserve key time s
  | .remember key response => remember key response time s
  | .release key => release key time s

end DurableRequestDeduplicator

/-! ## The cells of the memory -/

/-- The cell of a key. -/
def DedupMemory.cell (s : DedupMemory) (key : String) : Cell GatewayResponse :=
  if key ∈ s.inFlight then .reserved
  else
    match s.completed.find? fun entry => entry.key = key with
    | some entry => .settled entry.response
    | none => .free

/-- No key is both in flight and completed, and every entry was stored after `start`. -/
structure DedupMemory.Tidy (start : Int) (s : DedupMemory) : Prop where
  apart : ∀ entry ∈ s.completed, entry.key ∉ s.inFlight
  recent : ∀ entry ∈ s.completed, start ≤ entry.storedAt

namespace InMemoryRequestDeduplicator

variable {d : InMemoryRequestDeduplicator} {start now : Int} {s : DedupMemory} {key : String}

theorem prune_eq_self (hs : s.Tidy start) (hnow : now < start + d.ttlSeconds) :
    d.prune now s.completed = s.completed := by
  unfold prune
  cases hc : s.completed with
  | nil => rfl
  | cons entry rest =>
    have hrecent := hs.recent entry (hc ▸ List.mem_cons_self)
    exact List.dropWhile_cons_of_neg (by simp; omega)

/-- What is found of another key among the entries that are not of `key`. -/
theorem find?_filter_ne (completed : List CompletedEntry) {key' : String} (hne : key' ≠ key) :
    ((completed.filter fun entry => entry.key ≠ key).find? fun entry => entry.key = key') =
      completed.find? fun entry => entry.key = key' := by
  rw [List.find?_filter]
  refine congrArg (List.find? · completed) (funext fun entry => ?_)
  by_cases hkey : entry.key = key'
  · simp [hkey, hne]
  · simp [hkey]

theorem find?_moveToEnd (completed : List CompletedEntry) (key' : String) :
    ((moveToEnd key completed).find? fun entry => entry.key = key') =
      completed.find? fun entry => entry.key = key' := by
  unfold moveToEnd
  rw [List.find?_append]
  by_cases hkey : key' = key
  · subst hkey
    have hnone : ((completed.filter fun entry => entry.key ≠ key').find? fun entry =>
        entry.key = key') = none := List.find?_eq_none.2 fun entry hmem => by
      simpa using (List.mem_filter.1 hmem).2
    rw [hnone, Option.none_or, List.find?_filter]
    exact congrArg (List.find? · completed) (funext fun entry => by simp)
  · have hnone : ((completed.filter fun entry => entry.key = key).find? fun entry =>
        entry.key = key') = none := List.find?_eq_none.2 fun entry hmem hfound => by
      have hmem := (List.mem_filter.1 hmem).2
      simp only [decide_eq_true_eq] at hmem hfound
      exact hkey (hfound.symm.trans hmem)
    rw [find?_filter_ne completed hkey, hnone, Option.or_none]

theorem find?_setAtEnd (completed : List CompletedEntry) (entry : CompletedEntry) (key' : String) :
    ((setAtEnd entry completed).find? fun entry => entry.key = key') =
      if key' = entry.key then some entry else completed.find? fun entry => entry.key = key' := by
  unfold setAtEnd
  rw [List.find?_append]
  split_ifs with hkey
  · subst hkey
    have hnone : ((completed.filter fun entry' => entry'.key ≠ entry.key).find? fun entry' =>
        entry'.key = entry.key) = none := List.find?_eq_none.2 fun entry' hmem => by
      simpa using (List.mem_filter.1 hmem).2
    rw [hnone, Option.none_or]
    simp
  · rw [find?_filter_ne completed hkey]
    simp [Ne.symm hkey]

theorem mem_moveToEnd {completed : List CompletedEntry} {entry : CompletedEntry} :
    entry ∈ moveToEnd key completed ↔ entry ∈ completed := by
  simp only [moveToEnd, List.mem_append, List.mem_filter, decide_eq_true_eq, ← and_or_left]
  exact and_iff_left (ne_or_eq _ _)

theorem evict_eq_self {completed : List CompletedEntry} (h : completed.length ≤ d.maxEntries) :
    d.evict completed = completed := by
  rw [evict, Nat.sub_eq_zero_of_le h, List.drop_zero]

/-! ## Calls in memory -/

/-- A call in memory does to the cells what `DedupCall.apply` does. -/
def Serves (start : Int) (s : DedupMemory) (call : DedupCall) (result : DedupReply × DedupMemory) :
    Prop :=
  result.1 = (call.apply s.cell).1 ∧ result.2.cell = (call.apply s.cell).2 ∧ result.2.Tidy start

theorem serves_get (hs : s.Tidy start) (hnow : now < start + d.ttlSeconds) :
    Serves start s (.get key) (d.run now s (.get key)) := by
  unfold run
  dsimp only
  rw [prune_eq_self hs hnow]
  cases hfind : s.completed.find? fun entry => entry.key = key with
  | none =>
    have hcell : s.cell key = .reserved ∨ s.cell key = .free := by
      unfold DedupMemory.cell
      rw [hfind]
      split_ifs
      · exact .inl rfl
      · exact .inr rfl
    rcases hcell with hcell | hcell <;> simp [Serves, DedupCall.apply, hcell, hs]
  | some entry =>
    have hmem := List.mem_of_find?_eq_some hfind
    have hkey : entry.key = key := by simpa using List.find?_some hfind
    have hcell : s.cell key = .settled entry.response := by
      unfold DedupMemory.cell
      rw [hfind, if_neg (hkey ▸ hs.apart entry hmem)]
    refine ⟨by simp [DedupCall.apply, hcell], ?_, ?_⟩
    · simp only [DedupCall.apply, hcell]
      funext key'
      simp only [DedupMemory.cell, find?_moveToEnd]
    · exact ⟨fun entry h => hs.apart entry (mem_moveToEnd.1 h),
        fun entry h => hs.recent entry (mem_moveToEnd.1 h)⟩

theorem cell_eq_free :
    s.cell key = .free ↔ key ∉ s.inFlight ∧ ∀ entry ∈ s.completed, entry.key ≠ key := by
  unfold DedupMemory.cell
  by_cases hkey : key ∈ s.inFlight
  · simp [hkey]
  · rw [if_neg hkey]
    cases hfind : s.completed.find? fun entry => entry.key = key with
    | none => simpa [hkey] using List.find?_eq_none.1 hfind
    | some entry =>
      have hmem := List.mem_of_find?_eq_some hfind
      have hfound : entry.key = key := by simpa using List.find?_some hfind
      refine iff_of_false (by simp) fun h => h.2 entry hmem hfound

theorem serves_reserve (hs : s.Tidy start) (hnow : now < start + d.ttlSeconds) :
    Serves start s (.reserve key) (d.run now s (.reserve key)) := by
  unfold run
  dsimp only
  rw [prune_eq_self hs hnow]
  by_cases hfree : s.cell key = .free
  · obtain ⟨hflight, hcompleted⟩ := cell_eq_free.1 hfree
    rw [if_neg (by simpa [hflight] using hcompleted)]
    refine ⟨by simp [DedupCall.apply, hfree], ?_, ?_, hs.recent⟩
    · simp only [DedupCall.apply, hfree]
      funext key'
      by_cases hkey : key' = key
      · simp [DedupMemory.cell, hkey]
      · simp [DedupMemory.cell, hkey]
    · intro entry hentry
      rw [List.mem_cons, not_or]
      exact ⟨hcompleted entry hentry, hs.apart entry hentry⟩
  · have hkept : key ∈ s.inFlight ∨ s.completed.any fun entry => entry.key = key := by
      by_contra hnot
      refine hfree (cell_eq_free.2 ?_)
      simpa [not_or] using hnot
    rw [if_pos hkept]
    cases hcell : s.cell key with
    | free => exact absurd hcell hfree
    | reserved => simp [Serves, DedupCall.apply, hcell, hs]
    | settled response => simp [Serves, DedupCall.apply, hcell, hs]

theorem serves_remember {response : GatewayResponse} (hs : s.Tidy start) (hnow : start ≤ now)
    (hroom : s.completed.length < d.maxEntries) :
    Serves start s (.remember key response) (d.run now s (.remember key response)) := by
  have hlength : (setAtEnd ⟨key, now, response⟩ s.completed).length ≤ d.maxEntries := by
    rw [setAtEnd, List.length_append, List.length_singleton]
    exact Nat.lt_of_le_of_lt (List.length_filter_le _ _) hroom
  unfold run
  dsimp only
  rw [evict_eq_self hlength]
  refine ⟨rfl, ?_, ?_⟩
  · simp only [DedupCall.apply]
    funext key'
    by_cases hkey : key' = key
    · simp [DedupMemory.cell, find?_setAtEnd, hkey]
    · simp [DedupMemory.cell, find?_setAtEnd, hkey]
  · have hmem : ∀ entry ∈ setAtEnd ⟨key, now, response⟩ s.completed,
        entry ∈ s.completed ∧ entry.key ≠ key ∨ entry = ⟨key, now, response⟩ := by
      intro entry hentry
      simpa [setAtEnd] using hentry
    constructor
    · intro entry hentry
      rcases hmem entry hentry with ⟨hentry, _⟩ | rfl
      · exact fun h => hs.apart entry hentry (List.mem_of_mem_filter h)
      · simp
    · intro entry hentry
      rcases hmem entry hentry with ⟨hentry, _⟩ | rfl
      · exact hs.recent entry hentry
      · exact hnow

theorem serves_release (hs : s.Tidy start) (hreserved : s.cell key = .reserved) :
    Serves start s (.release key) (d.run now s (.release key)) := by
  have hflight : key ∈ s.inFlight := by
    by_contra hnot
    unfold DedupMemory.cell at hreserved
    rw [if_neg hnot] at hreserved
    split at hreserved <;> cases hreserved
  have hcompleted : s.completed.find? (fun entry => entry.key = key) = none :=
    List.find?_eq_none.2 fun entry hentry hkey => by
      rw [decide_eq_true_eq] at hkey
      exact hs.apart entry hentry (hkey ▸ hflight)
  refine ⟨rfl, ?_, ?_, hs.recent⟩
  · simp only [DedupCall.apply, run]
    funext key'
    by_cases hkey : key' = key
    · subst hkey
      simp [DedupMemory.cell, hcompleted]
    · simp [DedupMemory.cell, hkey]
  · exact fun entry hentry h => hs.apart entry hentry (List.mem_of_mem_filter h)

/-- While no entry is pruned or evicted, every call does what it does to the cells. -/
theorem serves_run {call : DedupCall} (hs : s.Tidy start) (hnow : start ≤ now)
    (hnow' : now < start + d.ttlSeconds) (hroom : s.completed.length < d.maxEntries)
    (hheld : call.Held s.cell) : Serves start s call (d.run now s call) := by
  cases call with
  | get key => exact serves_get hs hnow'
  | reserve key => exact serves_reserve hs hnow'
  | remember key response => exact serves_remember hs hnow hroom
  | release key => exact serves_release hs hheld

end InMemoryRequestDeduplicator

/-! ## Calls over the store -/

namespace DurableRequestDeduplicator

variable {s : Store} {c : Cells String GatewayResponse} {key : IdempotencyKey} {time : Timestamp}
  {response : GatewayResponse}

/-- The table stands for the cells, each response as its document. -/
def Shows (s : Store) (c : Cells String GatewayResponse) : Prop :=
  s.RequestsValid ∧ ∀ key : IdempotencyKey, s.requests key = (c key.val).map
    GatewayResponse.modelDump

/-- A call over the store does to the cells what `DedupCall.apply` does. -/
def Serves (c : Cells String GatewayResponse) (call : DedupCall) (result : DedupReply × Store) :
    Prop :=
  result.1 = (call.apply c).1 ∧ Shows result.2 (call.apply c).2

theorem shows_update {s' : Store} {cell : Cell GatewayResponse} (hs : Shows s c)
    (hvalid : s'.RequestsValid)
    (hs' : s'.requests = Function.update s.requests key (cell.map GatewayResponse.modelDump)) :
    Shows s' (Function.update c key.val cell) := by
  refine ⟨hvalid, fun key' => ?_⟩
  rw [hs']
  by_cases hkey : key' = key
  · simp [hkey]
  · have hval : key'.val ≠ key.val := fun h => hkey (Constrained.ext h)
    rw [Function.update_of_ne hkey, Function.update_of_ne hval, hs.2]

/-- A write that is not about gateway requests leaves their table as it is. -/
theorem Shows.wrote (hs : Shows s c) {op : WriteOp} (hop : op.requestCall = none) :
    Shows (op.after s) c := by
  have hsame := WriteOp.after_gatewayRequests hop s
  have hvalid : (op.after s).RequestsValid := by
    unfold Store.RequestsValid
    rw [hsame]
    exact hs.1
  have hrequests : (op.after s).requests = s.requests := by
    unfold Store.requests
    rw [hsame]
  exact ⟨hvalid, fun key => hrequests ▸ hs.2 key⟩

theorem serves_get (hs : Shows s c) : Serves c (.get key.val) (run time s (.get key.val)) := by
  have hreply := (RequestCall.get_answers key.val time hs.1).1
  simp only [answer, RequestCall.request, keyOf_val, Option.map_some, Request.apply,
    RequestCall.run, hs.2] at hreply
  have happly : ((DedupCall.get key.val).apply c).2 = c := by
    cases hcell : c key.val <;> simp only [DedupCall.apply, hcell]
  refine ⟨?_, by rwa [happly]⟩
  simp only [run, get, DedupCall.apply]
  rcases hget : s.getGatewayRequest key.val time with e | _ | ⟨k, _ | document, t⟩ <;>
    cases hcell : c key.val with
    | free | reserved => simp_all [RequestCall.found, Cell.map]
    | settled response =>
      simp_all [RequestCall.found, Cell.map, GatewayResponse.modelValidate_modelDump]

/-- A key that the model accepts is not refused. -/
theorem reserve_ok (key : IdempotencyKey) (time : Timestamp) (s : Store) :
    ∃ b s', Store.reserveGatewayRequest key.val time s = .ok (b, s') := by
  have hvalid := RequestCall.validate_eq_ok none time (keyOf_val key) rfl
  simp only [Store.reserveGatewayRequest, hvalid, bind, Except.bind]
  split
  · exact ⟨false, s, rfl⟩
  · exact ⟨true, _, rfl⟩

theorem serves_reserve (hs : Shows s c) :
    Serves c (.reserve key.val) (run time s (.reserve key.val)) := by
  obtain ⟨b, s', hreserve⟩ := reserve_ok key time s
  have hvalid := RequestCall.reserved_valid hs.1 hreserve
  have hanswers := RequestCall.reserve_answers key.val time s
  simp only [Answers, answer, RequestCall.request, keyOf_val, Option.map_some, Request.apply,
    RequestCall.run, hreserve, hs.2] at hanswers
  simp only [Serves, run, reserve, hreserve, DedupCall.apply]
  cases hcell : c key.val with
  | free =>
    simp only [hcell, Cell.map] at hanswers
    cases b with
    | false => cases hanswers.1
    | true => exact ⟨rfl, shows_update hs hvalid hanswers.2⟩
  | reserved | settled response =>
    simp only [hcell, Cell.map] at hanswers
    cases b with
    | false => exact ⟨rfl, hvalid, fun key' => hanswers.2 ▸ hs.2 key'⟩
    | true => cases hanswers.1

theorem serves_remember (hs : Shows s c) (hreserved : c key.val = .reserved) :
    Serves c (.remember key.val response) (run time s (.remember key.val response)) := by
  have hforbidden := response.findForbiddenKey_modelDump
  have hanswers := RequestCall.remember_answers (s := s) key time hforbidden
  simp only [Answers, answer, RequestCall.request, hforbidden, keyOf_val, Option.map_some,
    Request.apply, RequestCall.run, hs.2, hreserved, Cell.map] at hanswers
  simp only [Serves, run, remember, DedupCall.apply]
  cases hremember : Store.rememberGatewayResponse key.val response.modelDump time s with
  | error e =>
    rw [hremember] at hanswers
    cases hanswers.1
  | ok result =>
    rw [hremember] at hanswers
    exact ⟨rfl, shows_update hs (RequestCall.remembered_valid hs.1 hremember) hanswers.2⟩

theorem serves_release (hs : Shows s c) (hreserved : c key.val = .reserved) :
    Serves c (.release key.val) (run time s (.release key.val)) := by
  have hanswers := RequestCall.release_answers key.val time s
  simp only [Answers, answer, RequestCall.request, keyOf_val, Option.map_some,
    Request.apply, RequestCall.run, hs.2, hreserved, Cell.map] at hanswers
  simp only [Serves, run, release, DedupCall.apply]
  rcases hrelease : Store.releaseGatewayRequest key.val time s with e | ⟨_ | _, s'⟩
  · rw [hrelease] at hanswers
    cases hanswers.1
  · rw [hrelease] at hanswers
    cases hanswers.1
  · rw [hrelease] at hanswers
    exact ⟨rfl, shows_update hs (RequestCall.released_valid hs.1 hrelease) hanswers.2⟩

/-- A call over the store is an operation of the store, if it is one. -/
theorem run_snd (time : Timestamp) (s : Store) (call : DedupCall) :
    (run time s call).2 = (call.write time).elim s fun op => op.after s := by
  cases call with
  | get key => rfl
  | reserve key =>
    simp only [run, reserve, DedupCall.write, Option.elim_some, WriteOp.after, WriteOp.exec]
    cases Store.reserveGatewayRequest key time s <;> rfl
  | remember key response =>
    simp only [run, remember, DedupCall.write, Option.elim_some, WriteOp.after, WriteOp.exec]
    cases Store.rememberGatewayResponse key response.modelDump time s <;> rfl
  | release key =>
    simp only [run, release, DedupCall.write, Option.elim_some, WriteOp.after, WriteOp.exec]
    cases Store.releaseGatewayRequest key time s <;> rfl

/-- What is found is stored. -/
theorem document_of_found {s : Store} (h : get key.val time s = .found (some response)) :
    ∃ document, s.document key.val = some document ∧
      GatewayResponse.modelValidate document = .ok response := by
  cases hget : s.getGatewayRequest key.val time with
  | error e => simp [get, hget] at h
  | ok record =>
    obtain ⟨k, hk, hdocument⟩ := Store.getGatewayRequest_ok hget
    cases (keyOf_val key).symm.trans hk
    cases record with
    | none => simp [get, hget] at h
    | some record =>
      cases hresponse : record.response with
      | none => simp [get, hget, hresponse] at h
      | some document =>
        refine ⟨document, hdocument.symm.trans hresponse, ?_⟩
        simp only [get, hget, hresponse] at h
        split at h <;> cases h
        assumption

/-- A call over the store leaves the receipts as they are. -/
theorem run_receipts (time : Timestamp) (s : Store) (call : DedupCall) :
    (run time s call).2.deliveryReceipts = s.deliveryReceipts := by
  cases call with
  | get key => rfl
  | reserve key =>
    simp only [run, reserve]
    cases hcall : Store.reserveGatewayRequest key time s with
    | error e => rfl
    | ok result =>
      obtain ⟨_, _, ⟨_, hs'⟩ | ⟨_, _, hs'⟩⟩ := Store.reserveGatewayRequest_ok hcall
      all_goals
        dsimp only
        rw [hs']
  | remember key response =>
    simp only [run, remember]
    cases hcall : Store.rememberGatewayResponse key response.modelDump time s with
    | error e => rfl
    | ok result =>
      obtain ⟨_, _, _, hs'⟩ := Store.rememberGatewayResponse_ok hcall
      dsimp only
      rw [hs']
  | release key =>
    simp only [run, release]
    cases hcall : Store.releaseGatewayRequest key time s with
    | error e => rfl
    | ok result =>
      obtain ⟨_, _, ⟨_, hs'⟩ | ⟨_, _, _, hs'⟩⟩ := Store.releaseGatewayRequest_ok hcall
      all_goals
        dsimp only
        rw [hs']

/-- Every call over the store does what it does to the cells. -/
theorem serves_run {call : DedupCall} (hs : Shows s c) (hkey : call.key = key.val)
    (hheld : call.Held c) : Serves c call (run time s call) := by
  cases call with
  | get text =>
    cases hkey
    exact serves_get hs
  | reserve text =>
    cases hkey
    exact serves_reserve hs
  | remember text response =>
    cases hkey
    exact serves_remember hs hheld
  | release text =>
    cases hkey
    exact serves_release hs hheld

end DurableRequestDeduplicator

/-! ## Handlers -/

namespace HandleStage

variable {stage stage' : HandleStage} {call : DedupCall} {c : Cells String GatewayResponse}
  {key : String}

theorem key_of_call (h : stage.call key = some call) : call.key = key := by
  cases stage with
  | authorizing | dispatching | returned _ | interrupted => cases h
  | looking | reserving | remembering _ | releasing _ =>
    cases h
    rfl

/-- The calls of a handler that holds its key are those that end the reservation. -/
theorem ends_of_call (h : stage.call key = some call) : call.ends = stage.holds := by
  cases stage with
  | authorizing | dispatching | returned _ | interrupted => cases h
  | looking | reserving | remembering _ | releasing _ =>
    cases h
    rfl

/-- A handler remembers a response or releases its key only while it holds the key. -/
theorem held_of_call (h : stage.call key = some call)
    (hholds : stage.holds = true → c key = .reserved) : call.Held c := by
  cases stage with
  | authorizing | dispatching | returned _ | interrupted => cases h
  | looking | reserving =>
    cases h
    trivial
  | remembering _ | releasing _ =>
    cases h
    exact hholds rfl

/-- A handler that holds its key lets it go. Another one leaves the cells as they are, or takes the
key, which is free, and now holds it. -/
theorem resume_cases (hcall : stage.call key = some call)
    (h : stage.resume (call.apply c).1 = some stage') :
    (stage.holds = true ∧ stage'.holds = false) ∨
      (stage.holds = false ∧ stage'.holds = false ∧ (call.apply c).2 = c) ∨
      (stage.holds = false ∧ c key = .free ∧ (call.apply c).2 key = .reserved) := by
  cases stage with
  | authorizing | dispatching | returned _ | interrupted => cases hcall
  | looking =>
    cases hcall
    refine .inr (.inl ⟨rfl, ?_⟩)
    cases hcell : c key with
    | free | reserved | settled _ =>
      simp only [DedupCall.apply, hcell] at h ⊢
      cases h
      exact ⟨rfl, trivial⟩
  | reserving =>
    cases hcall
    refine .inr ?_
    cases hcell : c key with
    | free =>
      refine .inr ⟨rfl, rfl, ?_⟩
      simp [DedupCall.apply, hcell]
    | reserved | settled _ =>
      simp only [DedupCall.apply, hcell] at h ⊢
      cases h
      exact .inl ⟨rfl, rfl, trivial⟩
  | remembering response =>
    cases hcall
    cases h
    exact .inl ⟨rfl, rfl⟩
  | releasing response =>
    cases hcall
    cases response <;> cases h <;> exact .inl ⟨rfl, rfl⟩

theorem holds_resume_raised (h : stage.resume .raised = some stage') : stage'.holds = false := by
  cases stage with
  | authorizing | dispatching | returned _ | interrupted => cases h
  | looking | reserving | remembering _ =>
    cases h
    rfl
  | releasing response => cases response <;> cases h <;> rfl

theorem holds_authorized (sensitive : String → Bool) (request : GatewayRequest)
    (answer : Option Bool) : (authorized sensitive request answer).holds = false := by
  rcases answer with _ | _ | _
  · rfl
  · rfl
  · unfold authorized
    split_ifs <;> rfl

/-- Where the response of a handler comes from. -/
theorem resume_returned {reply : DedupReply} {r : GatewayResponse}
    (hcall : stage.call key = some call) (hreply : reply = .raised ∨ reply = (call.apply c).1)
    (h : stage.resume reply = some (.returned r)) :
    r.isInterim = true ∨ stage = .releasing (some r) ∨
      (∃ cached, c key = .settled cached ∧ r = cached.replay) ∨
      (reply = .done ∧ call = .remember key r) := by
  cases stage with
  | authorizing | dispatching | returned _ | interrupted => cases hcall
  | looking =>
    cases hcall
    rcases hreply with rfl | rfl
    · cases h
      exact .inl rfl
    · cases hcell : c key with
      | free | reserved =>
        simp only [DedupCall.apply, hcell] at h
        cases h
      | settled cached =>
        simp only [DedupCall.apply, hcell] at h
        cases h
        exact .inr (.inr (.inl ⟨cached, rfl, rfl⟩))
  | reserving =>
    cases hcall
    rcases hreply with rfl | rfl
    · cases h
      exact .inl rfl
    · cases hcell : c key <;> simp only [DedupCall.apply, hcell] at h <;> cases h <;>
        exact .inl (by simp [GatewayResponse.isInterim])
  | remembering response =>
    cases hcall
    rcases hreply with rfl | rfl
    · cases h
      exact .inl rfl
    · cases h
      exact .inr (.inr (.inr ⟨rfl, rfl⟩))
  | releasing response =>
    cases hcall
    cases response with
    | none => rcases hreply with rfl | rfl <;> cases h
    | some response =>
      rcases hreply with rfl | rfl <;> cases h <;> exact .inr (.inl rfl)

theorem resume_ne_releasing {reply : DedupReply} {response : Option GatewayResponse} :
    stage.resume reply ≠ some (.releasing response) := by
  intro h
  unfold resume at h
  split at h <;> cases h

/-- A dispatch is followed by the release, where the response is transient, or by remembering. -/
theorem dispatched_cases (outcome : DispatchOutcome) :
    dispatched outcome = releasing none ∨
      (∃ r, dispatched outcome = releasing (some r) ∧ r.isTransient = true) ∨
      ∃ r, dispatched outcome = remembering r := by
  cases outcome with
  | interrupted => exact .inl rfl
  | response r =>
    by_cases htransient : r.isTransient = true
    · exact .inr (.inl ⟨r, if_pos htransient, htransient⟩)
    · exact .inr (.inr ⟨r, if_neg htransient⟩)
  | error e =>
    cases e with
    | taskNotFound _ | taskConflict _ => exact .inr (.inr ⟨_, rfl⟩)
    | dependencyUnavailable _ | other _ => exact .inr (.inl ⟨_, rfl, rfl⟩)

/-- Only a dispatch that is interrupted is followed by a release. -/
theorem interrupt_cases (h : stage.interrupt = some stage') :
    stage' = interrupted ∨ stage = dispatching ∧ stage' = releasing none := by
  cases stage with
  | dispatching =>
    cases h
    exact .inr ⟨rfl, rfl⟩
  | authorizing | looking | reserving | remembering _ | releasing _ =>
    cases h
    exact .inl rfl
  | returned _ | interrupted => cases h

/-- A handler that is interrupted while it awaits a call is done. -/
theorem interrupt_of_call (hcall : stage.call key = some call)
    (h : stage.interrupt = some stage') : stage' = interrupted := by
  rcases interrupt_cases h with hdone | ⟨rfl, _⟩
  · exact hdone
  · cases hcall

theorem holds_interrupt (h : stage.interrupt = some stage') (hholds : stage'.holds = true) :
    stage.holds = true := by
  rcases interrupt_cases h with rfl | ⟨rfl, _⟩
  · cases hholds
  · rfl

end HandleStage

/-! ## Who holds a key -/

/-- Who holds a key holds a reserved one, and holds it alone. -/
structure KeysHeld {ι : Type} (key : ι → String) (holds : ι → Prop)
    (c : Cells String GatewayResponse) : Prop where
  reserved : ∀ i, holds i → c (key i) = .reserved
  unique : ∀ i j, holds i → holds j → key i = key j → i = j

namespace KeysHeld

variable {ι : Type} {key : ι → String} {holds holds' : ι → Prop}
  {c : Cells String GatewayResponse} {call : DedupCall} {i : ι}

theorem mono (h : KeysHeld key holds c) (hkept : ∀ j, holds' j → holds j) :
    KeysHeld key holds' c where
  reserved j hj := h.reserved j (hkept j hj)
  unique j k hj hk := h.unique j k (hkept j hj) (hkept k hk)

/-- Somebody makes a call and lets its key go, or leaves the cells as they are, or takes a key that
is free. The others hold what they held. -/
theorem step (h : KeysHeld key holds c) (hkey : call.key = key i)
    (hothers : ∀ j, j ≠ i → holds' j → holds j)
    (hcases : (holds i ∧ ¬ holds' i) ∨ ((call.apply c).2 = c ∧ (holds' i → holds i)) ∨
      (c (key i) = .free ∧ (call.apply c).2 (key i) = .reserved)) :
    KeysHeld key holds' (call.apply c).2 := by
  by_cases hsame : (call.apply c).2 = c ∧ (holds' i → holds i)
  · rw [hsame.1]
    refine h.mono fun j hj => ?_
    by_cases hji : j = i
    · exact hji ▸ hsame.2 (hji ▸ hj)
    · exact hothers j hji hj
  · -- another holder has another key: this one is free, or was held by `i` alone
    have hkeys : ∀ j, j ≠ i → holds' j → key j ≠ key i := by
      intro j hji hj heq
      rcases hcases with ⟨hi, _⟩ | hsame' | ⟨hfree, _⟩
      · exact hji (h.unique j i (hothers j hji hj) hi heq)
      · exact hsame hsame'
      · have hreserved := h.reserved j (hothers j hji hj)
        rw [heq, hfree] at hreserved
        cases hreserved
    constructor
    · intro j hj
      by_cases hji : j = i
      · subst hji
        rcases hcases with ⟨_, hgone⟩ | hsame' | ⟨_, htaken⟩
        · exact absurd hj hgone
        · exact absurd hsame' hsame
        · exact htaken
      · rw [DedupCall.apply_other (hkey ▸ hkeys j hji hj)]
        exact h.reserved j (hothers j hji hj)
    · intro j k hj hk heq
      by_cases hji : j = i
      · by_cases hki : k = i
        · exact hji.trans hki.symm
        · exact absurd (hji ▸ heq.symm) (hkeys k hki hk)
      · by_cases hki : k = i
        · exact absurd (hki ▸ heq) (hkeys j hji hj)
        · exact h.unique j k (hothers j hji hj) (hothers k hki hk) heq

end KeysHeld

end AIHub
