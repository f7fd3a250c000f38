import AIHub.Lib.Cursor
import AIHub.Storage.Writes

/-!
# Polling the events

A consumer follows the event table by `list_events`, each time from the last sequence number it
received. Writers on other connections hold the write lock from `BEGIN IMMEDIATE` to their commit
or rollback, and the reader sees what is committed.

* `pages_prefix`: the pages together are a prefix of the matching events in the order in which they
  were committed.
-/

namespace AIHub

open Transition Cursor

/-! ## Reads -/

/-- `task_id = ?`, unless no task id is given. -/
def StoredEvent.matchesTask (taskId : Option String) (e : StoredEvent) : Bool :=
  taskId.all fun id => e.envelope.taskId.any fun t => t.val = id

def Store.listEvents (taskId : Option String) (afterSequence limit : Int) (s : Store) :
    Except HubError (List StoredEvent) := do
  raiseIf (afterSequence < 0) (.value "after_sequence must be a non-negative integer")
  raiseIf (¬ (1 ≤ limit ∧ limit ≤ 10000)) (.value "limit must be an integer between 1 and 10000")
  let rows := s.events.rows.filter fun e => e.matchesTask taskId && afterSequence < e.sequence
  return (rows.insertionSort fun a b => a.sequence ≤ b.sequence).take limit.toNat

/-! ## Writers and one reader -/

structure Polling (κ : Type) where
  /-- What is committed. -/
  store : Store
  /-- The connection that holds the write lock, and what its operation has come to. -/
  writing : Option (κ × Except HubError Store) := none
  /-- The events in the order in which commits added them. -/
  log : List StoredEvent := []
  /-- What the reader has received so far. -/
  received : List StoredEvent := []

inductive PollingLabel (κ : Type) where
  | begin (connection : κ) (op : WriteOp)
  | commit (connection : κ)
  | rollback (connection : κ)
  | poll (limit : Int)

namespace Polling

variable {κ : Type} [DecidableEq κ]

def next (taskId : Option String) (s : Polling κ) : PollingLabel κ → Option (Polling κ)
  | .begin connection op =>
    if s.writing.isNone then some { s with writing := some (connection, op.exec s.store) }
    else none
  | .commit connection =>
    match s.writing with
    | some (holder, .ok store) =>
      if holder = connection then some { s with
        store := store
        writing := none
        log := s.log ++ store.events.rows.filter fun e => e ∉ s.store.events }
      else none
    | _ => none
  | .rollback connection =>
    if s.writing.any fun w => w.1 = connection then some { s with writing := none } else none
  | .poll limit =>
    match s.store.listEvents taskId (position StoredEvent.sequence s.received) limit with
    | .ok page => some { s with received := s.received ++ page }
    | .error _ => some s

/-- Any number of connections that write, and a reader of the events that match `taskId`, from an
empty database. -/
def system (taskId : Option String) : System (Polling κ) (PollingLabel κ) :=
  .ofNext (fun s => s = { store := .empty }) (next taskId)

end Polling

/-! ## Commits append to the event table -/

namespace Store

variable {s s' s'' : Store}

/-- The events of `s'` are those of `s` and then later ones. -/
def Extends (s s' : Store) : Prop :=
  s.lastSequence ≤ s'.lastSequence ∧ ∃ new, s'.events.rows = s.events.rows ++ new ∧
    ∀ e ∈ new, s.lastSequence < e.sequence

theorem Extends.of_same (hevents : s'.events = s.events)
    (hsequence : s'.lastSequence = s.lastSequence) : s.Extends s' :=
  ⟨Nat.le_of_eq hsequence.symm, [], by simp [hevents], by simp⟩

theorem Extends.trans (h : s.Extends s') (h' : s'.Extends s'') : s.Extends s'' := by
  obtain ⟨hle, new, hrows, hnew⟩ := h
  obtain ⟨hle', new', hrows', hnew'⟩ := h'
  refine ⟨hle.trans hle', new ++ new', by rw [hrows', hrows, List.append_assoc], ?_⟩
  intro e he
  rcases List.mem_append.1 he with he | he
  · exact hnew e he
  · exact lt_of_le_of_lt hle (hnew' e he)

theorem Write.extends (h : s.Write s') : s.Extends s' := by
  cases h with
  | storeEvent event free known =>
    refine ⟨Nat.le_succ _, [⟨s.lastSequence + 1, event⟩], rfl, fun e he => ?_⟩
    rw [List.mem_singleton.1 he]
    exact Nat.lt_succ_self _
  | _ => exact .of_same rfl rfl

theorem Writes.extends (h : s.Writes s') : s.Extends s' := by
  induction h with
  | refl => exact .of_same rfl rfl
  | tail _ hwrite ih => exact ih.trans hwrite.extends

/-- The new events of a commit are those that were not there before. -/
theorem Extends.filter_new (h : s.Extends s') (hc : s.Coherent) :
    s.events.rows ++ s'.events.rows.filter (fun e => e ∉ s.events) = s'.events.rows := by
  obtain ⟨_, new, hrows, hnew⟩ := h
  have hold : s.events.rows.filter (fun e => e ∉ s.events) = [] := by
    refine List.filter_eq_nil_iff.2 fun e he => ?_
    simpa using Table.mem_def.2 he
  have hkept : new.filter (fun e => e ∉ s.events) = new := by
    refine List.filter_eq_self.2 fun e he => ?_
    have hlt := hnew e he
    have hnot : e ∉ s.events := fun hmem => absurd (hc.bounded e hmem) (Nat.not_le.2 hlt)
    simpa using hnot
  rw [hrows, List.filter_append, hold, hkept, List.nil_append]

end Store

/-! ## The reader has a prefix -/

namespace Polling

variable {κ : Type} {taskId : Option String} {s s' : Polling κ} {a : PollingLabel κ}

structure Sound (taskId : Option String) (s : Polling κ) : Prop where
  mirrored : s.store.Mirrored
  coherent : s.store.Coherent
  positive : ∀ e ∈ s.store.events.rows, 0 < e.sequence
  pending : ∀ c store, s.writing = some (c, .ok store) → s.store.Writes store
  log : s.log = s.store.events.rows
  received : s.received <+: s.log.filter fun e => e.matchesTask taskId

theorem Sound.ascending (h : Sound taskId s) : Ascending StoredEvent.sequence s.log := by
  rw [h.log]
  exact ⟨h.positive, h.coherent.ordered⟩

/-- A page holds the first of the matching events above the reader's position. -/
theorem Sound.page (h : Sound taskId s) {limit : Int} {page : List StoredEvent}
    (hpage : s.store.listEvents taskId (position StoredEvent.sequence s.received) limit =
      .ok page) :
    page = ((s.log.filter fun e => e.matchesTask taskId).filter fun e =>
      position StoredEvent.sequence s.received < e.sequence).take limit.toNat := by
  simp only [Store.listEvents, bind_eq_ok, pure_eq_ok, ← h.log, Int.ofNat_lt] at hpage
  obtain ⟨_, _, _, _, rfl⟩ := hpage
  rw [List.filter_filter]
  have hfilter : (s.log.filter fun e => e.matchesTask taskId &&
      decide (position StoredEvent.sequence s.received < e.sequence)) =
      s.log.filter fun e => decide (position StoredEvent.sequence s.received < e.sequence) &&
        e.matchesTask taskId := by
    congr 1
    funext e
    exact Bool.and_comm _ _
  rw [hfilter, List.Pairwise.insertionSort_eq]
  exact ((h.ascending.filter _).ordered).imp Nat.le_of_lt

theorem sound_init : Sound taskId ({ store := .empty } : Polling κ) where
  mirrored := Store.mirrored_empty
  coherent := Store.coherent_empty
  positive _ he := absurd he List.not_mem_nil
  pending _ _ hwriting := by cases hwriting
  log := rfl
  received := List.nil_prefix

variable [DecidableEq κ]

theorem Sound.step (h : Sound taskId s) (hstep : (system taskId).step s a s') :
    Sound taskId s' := by
  have hnext : next taskId s a = some s' := hstep
  cases a with
  | begin connection op =>
    simp only [next] at hnext
    split_ifs at hnext
    cases hnext
    refine { h with pending := fun c store hwriting => ?_ }
    obtain ⟨rfl, hexec⟩ := Prod.mk.inj (Option.some.inj hwriting)
    exact WriteOp.exec_writes h.mirrored hexec
  | commit connection =>
    simp only [next] at hnext
    split at hnext
    · rename_i holder store hwriting
      split_ifs at hnext
      cases hnext
      have hwrites := h.pending holder store hwriting
      have hextends := hwrites.extends
      have hlog : s.log ++ store.events.rows.filter (fun e => e ∉ s.store.events) =
          store.events.rows := by
        rw [h.log, hextends.filter_new h.coherent]
      refine ⟨hwrites.mirrored h.mirrored, hwrites.coherent h.mirrored h.coherent, ?_,
        nofun, hlog, ?_⟩
      · obtain ⟨_, new, hrows, hnew⟩ := hextends
        intro e he
        rw [hrows] at he
        rcases List.mem_append.1 he with he | he
        · exact h.positive e he
        · exact Nat.zero_lt_of_lt (hnew e he)
      · rw [List.filter_append]
        exact h.received.trans (List.prefix_append _ _)
    · cases hnext
  | rollback connection =>
    simp only [next] at hnext
    split_ifs at hnext
    cases hnext
    exact { h with pending := nofun }
  | poll limit =>
    simp only [next] at hnext
    split at hnext
    · rename_i page hpage
      cases hnext
      refine { h with received := ?_ }
      rw [h.page hpage]
      exact page_prefix (h.ascending.filter _) h.received limit.toNat
    · cases hnext
      exact h

theorem reachable_sound (h : (system taskId).Reachable s) : Sound taskId s := by
  have hI : (system (κ := κ) taskId).Invariant (Sound taskId) := {
    init := fun _ hs => hs ▸ sound_init
    step := fun _ _ _ hs hstep => hs.step hstep }
  exact hI.reachable h

/-- Whatever the connections write, commit and roll back between the polls, the pages together are
a prefix of the matching events in the order in which they were committed. -/
theorem pages_prefix (h : (system taskId).Reachable s) :
    s.received <+: s.log.filter fun e => e.matchesTask taskId :=
  (reachable_sound h).received

/-- A task is created, moved in a transaction that is rolled back, and then queued, between polls
of one event each. -/
def Sample.polls : List (PollingLabel (Fin 2)) :=
  let queues := WriteOp.transitionTask Sample.taskId.val .queued Sample.queued
  [.begin Sample.first (.createTask Sample.task Sample.created), .poll 1, .commit Sample.first,
    .poll 1, .begin Sample.second queues, .rollback Sample.second, .poll 1,
    .begin Sample.first queues, .poll 1, .commit Sample.first, .poll 1]

theorem pages_prefix_sample :
    let s := System.execD (next (some Sample.taskId.val)) { store := .empty } Sample.polls
    s.received.length = 2 ∧
      s.received <+: s.log.filter fun e => e.matchesTask (some Sample.taskId.val) := by
  intro s
  refine ⟨by decide +kernel, pages_prefix ?_⟩
  exact ⟨{ store := .empty }, Sample.polls, rfl, System.run_execD (by decide +kernel)⟩

end Polling

end AIHub
