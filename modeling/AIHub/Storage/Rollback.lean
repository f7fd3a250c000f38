import AIHub.Storage.Statements

/-!
# What an operation that is stopped leaves behind

`WriteOp.callOn` is a call on a connection. An exception may take the place of any statement of its
transaction, `BEGIN` and `COMMIT` among them. `_transaction` rolls back in `except` clauses, the
last of which is `except Exception`: a `KeyboardInterrupt` passes them all.

* `callOn_uninterrupted`: a call that nothing interrupts commits, or raises and changes nothing, as
  `WriteOp.call` says.
* `connection_restored`: a call that raises on an idle connection restores it, exactly if no
  `BaseException` that is no `Exception` takes the place of a statement after `BEGIN`.
* `callOn_after_interrupt`: if one does, the next call raises as well, and rolls back.
-/

namespace AIHub

open Transaction

namespace WriteOp

variable {op : WriteOp} {c : Connection Store} {stop : Option (Nat × DbException)}

/-- A call on a connection. The stop `(n, e)` puts `e` in the place of the statement after `n`
others, where `BEGIN` is the first. -/
def callOn (op : WriteOp) (stop : Option (Nat × DbException)) (c : Connection Store) :
    Except DbException WriteResult × Connection Store :=
  match op.transaction with
  | .error e => (.error (.hub e), c)
  | .ok t => c.transact (transactionHandlers t.operation) t.block stop

/-- The stop is a `BaseException` that is no `Exception`, in the place of a statement after `BEGIN`
which the call reaches. -/
def interrupted (op : WriteOp) (stop : Option (Nat × DbException)) (s : Store) : Bool :=
  match op.transaction with
  | .error _ => false
  | .ok t =>
    match stop with
    | some (n + 1, .interrupt) => t.block.reaches n s
    | _ => false

/-! ## Calls that nothing interrupts -/

/-- What the block of an operation does, and raises through the handlers. -/
theorem transaction_cases {t : WriteTransaction WriteResult} (ht : op.transaction = .ok t)
    (s : Store) :
    (∃ r, t.block.run s = .ok r ∧ op.call s = .ok r) ∨
      ∃ e e', t.block.run s = .error e ∧ op.call s = .error e' ∧
        (transactionHandlers t.operation).handle e = some (.hub e') := by
  have h := op.transaction_result s
  rw [ht] at h
  change t.result s = _ at h
  rw [WriteTransaction.result, Statements.result] at h
  cases hrun : t.block.run s with
  | ok r =>
    rw [hrun] at h
    cases hcall : op.call s with
    | ok r' =>
      rw [hcall] at h
      cases h
      exact .inl ⟨r, rfl, rfl⟩
    | error e =>
      rw [hcall] at h
      cases h
  | error e =>
    rw [hrun] at h
    cases hcall : op.call s with
    | ok r =>
      rw [hcall] at h
      cases h
    | error e' =>
      rw [hcall] at h
      have hraised := Except.error.inj h
      refine .inr ⟨e, e', rfl, rfl, ?_⟩
      -- the handlers let only an interrupt pass, which no block raises by itself
      cases e <;> first | exact congrArg some hraised | cases hraised

theorem call_of_transaction_error {e : HubError} (h : op.transaction = .error e) (s : Store) :
    op.call s = .error e := by
  have hresult := op.transaction_result s
  rw [h] at hresult
  cases hcall : op.call s with
  | ok r =>
    rw [hcall] at hresult
    cases hresult
  | error e' =>
    rw [hcall] at hresult
    cases hresult
    rfl

/-- A call that nothing interrupts commits what the operation does as a whole, or raises and leaves
the connection as it was. -/
theorem callOn_uninterrupted (op : WriteOp) (hc : c.working = none) :
    op.callOn none c =
      match op.call c.committed with
      | .ok (result, s) => (.ok result, { committed := s })
      | .error e => (.error (.hub e), c) := by
  rw [callOn]
  cases ht : op.transaction with
  | error e => rw [call_of_transaction_error ht]
  | ok t =>
    rcases transaction_cases ht c.committed with ⟨r, hrun, hcall⟩ | ⟨e, e', hrun, hcall, hhandle⟩
    · rw [hcall]
      exact Connection.transact_ok hc hrun
    · rw [hcall]
      exact Connection.transact_error hc hrun hhandle

/-! ## Calls that are stopped -/

theorem handle_isSome (operation : String) (e : DbException) :
    ((transactionHandlers operation).handle e).isSome = true ↔ e ≠ .interrupt := by
  cases e <;> simp [transactionHandlers]

/-- What the block of an operation raises by itself is handled. -/
theorem transaction_handles {t : WriteTransaction WriteResult} (ht : op.transaction = .ok t)
    {s : Store} {e : DbException} (h : t.block.run s = .error e) :
    ((transactionHandlers t.operation).handle e).isSome = true := by
  rcases transaction_cases ht s with ⟨r, hrun, _⟩ | ⟨e₀, _, hrun, _, hhandle⟩
  · cases h.symm.trans hrun
  · cases h.symm.trans hrun
    exact Option.isSome_iff_exists.2 ⟨_, hhandle⟩

/-- A call that no exception like a `KeyboardInterrupt` stops restores the connection. -/
theorem callOn_restored {e : DbException} {c' : Connection Store} (hc : c.working = none)
    (hstop : op.interrupted stop c.committed = false) (h : op.callOn stop c = (.error e, c')) :
    c.Restored c' := by
  unfold callOn at h
  unfold interrupted at hstop
  split at h
  · cases h
    exact Connection.restored_self hc
  · rename_i t ht
    refine (Connection.transact_restores hc fun _ => transaction_handles ht).2 ?_ e c' h
    intro n e₀ hn hreached
    rw [handle_isSome]
    rintro rfl
    simp only [ht, hn] at hstop
    cases hreached.symm.trans hstop

/-- Whenever a call raises on an idle connection, the connection is not inside a transaction, its
reads see what they saw before and the next call can begin: exactly if no exception like a
`KeyboardInterrupt` takes the place of a statement after `BEGIN`. -/
theorem connection_restored (op : WriteOp) (stop : Option (Nat × DbException))
    (hc : c.working = none) :
    (∀ e c', op.callOn stop c = (.error e, c') → c.Restored c') ↔
      op.interrupted stop c.committed = false := by
  refine ⟨fun h => ?_, fun hstop e c' h => callOn_restored hc hstop h⟩
  unfold callOn at h
  unfold interrupted
  cases ht : op.transaction with
  | error e => rfl
  | ok t =>
    simp only [ht] at h
    rw [Connection.transact_restores hc fun _ => transaction_handles ht] at h
    match stop with
    | some (n + 1, .interrupt) =>
      by_contra hreached
      have hhandled := h n .interrupt rfl (by simpa using hreached)
      exact (handle_isSome t.operation .interrupt).1 hhandled rfl
    | some (n + 1, .hub _) | some (n + 1, .integrityError) | some (n + 1, .sqliteError _)
    | some (0, _) | none => rfl

open Sample in
/-- `COMMIT` finds the database busy. -/
theorem connection_restored_sample :
    ∃ e c', (createTask task created).callOn (some (5, .sqliteError .busy))
        { committed := .empty } = (.error e, c') ∧
      Connection.Restored { committed := .empty } c' :=
  ⟨_, _, rfl, (connection_restored (createTask task created) (some (5, .sqliteError .busy)) rfl).2
    (by decide +kernel) _ _ rfl⟩

open Sample in
/-- A `KeyboardInterrupt` in the place of the insertion of the event leaves the transaction open:
reads see the task without its event, and nothing can begin. -/
theorem interrupted_left_open :
    ∃ c', (createTask task created).callOn (some (4, .interrupt)) { committed := .empty } =
        (.error .interrupt, c') ∧ ¬ Connection.Restored { committed := .empty } c' ∧
      (c'.tables.tasks.get? taskId.val).isSome = true ∧ c'.tables.taskEvents taskId = [] ∧
      c'.begin = none := by
  refine ⟨_, rfl, fun h => ?_, by decide +kernel, by decide +kernel, rfl⟩
  cases h.idle

/-- The call after an interrupted one cannot begin. It raises, and rolls back what the other has
left. -/
theorem callOn_after_interrupt {t : WriteTransaction WriteResult} {s : Store}
    (ht : op.transaction = .ok t) (hopen : c.working = some s) :
    op.callOn none c = (.error (.hub (databaseError .other t.operation)), c.rollback) := by
  simp only [callOn, ht, Connection.transact, Connection.transact.body, Connection.begin, hopen]
  rfl

end WriteOp

end AIHub
