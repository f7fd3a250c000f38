import Mathlib.Data.List.Basic

/-!
# Transactions

A block of statements between `BEGIN` and `COMMIT`. The statements work on a copy of the tables,
which `COMMIT` makes the tables and `ROLLBACK` throws away. An exception may take the place of any
statement, and handlers decide by its kind whether the transaction is rolled back.

* `Block`: statements with the computation between them; `run` is what a block does alone, and
  `exec` what it does when an exception takes the place of one statement.
* `transact_ok`, `transact_error`: a transaction that nothing interrupts commits what its block
  does, or restores the tables.
* `transact_restores`: an idle connection is restored whenever the transaction raises, exactly if
  no exception without a handler takes the place of a statement after `BEGIN`.
-/

namespace Transaction

/-! ## Blocks -/

/-- Statements that change the tables, and the computation between them. What a statement returns
is read from the tables after it. -/
inductive Block (σ ε α : Type) : Type
  | ret (a : α)
  | raise (e : ε)
  | statement (f : σ → Except ε σ) (next : σ → Block σ ε α)

namespace Block

variable {σ ε α β γ : Type}

def bind : Block σ ε α → (α → Block σ ε β) → Block σ ε β
  | ret a, k => k a
  | raise e, _ => raise e
  | statement f next, k => statement f fun s => (next s).bind k

instance : Monad (Block σ ε) where
  pure := ret
  bind := bind

/-- A statement that only reads. -/
def select (f : σ → β) : Block σ ε β := statement .ok fun s => ret (f s)

/-- A statement that changes the tables. -/
def execute (f : σ → Except ε σ) : Block σ ε Unit := statement f fun _ => ret ()

/-- A computation between two statements. -/
def ofExcept : Except ε α → Block σ ε α
  | .ok a => ret a
  | .error e => raise e

/-- The body of a `for` loop over `as`, collecting what it produces. -/
def forEach (body : α → Block σ ε β) : List α → Block σ ε (List β)
  | [] => ret []
  | a :: as => do
    let b ← body a
    let bs ← forEach body as
    return b :: bs

/-- What the block does to the tables when nothing interrupts it. -/
def run : Block σ ε α → σ → Except ε (α × σ)
  | ret a, s => .ok (a, s)
  | raise e, _ => .error e
  | statement f next, s => (f s).bind fun s' => (next s').run s'

/-- How the block ends, with what is left of `stop`, and the tables then. The stop `(n, e)` puts
the exception `e` in the place of the statement after `n` others. -/
def exec : Block σ ε α → Option (Nat × ε) → σ → Except ε (α × Option (Nat × ε)) × σ
  | ret a, stop, s => (.ok (a, stop), s)
  | raise e, _, s => (.error e, s)
  | statement _ _, some (0, e), s => (.error e, s)
  | statement f next, some (n + 1, e), s =>
    match f s with
    | .error e' => (.error e', s)
    | .ok s' => (next s').exec (some (n, e)) s'
  | statement f next, none, s =>
    match f s with
    | .error e' => (.error e', s)
    | .ok s' => (next s').exec none s'

/-- On `s`, the block comes to the statement after `n` others, where `COMMIT` is the last. -/
def reaches : Block σ ε α → Nat → σ → Bool
  | ret _, n, _ => n == 0
  | raise _, _, _ => false
  | statement _ _, 0, _ => true
  | statement f next, n + 1, s =>
    match f s with
    | .error _ => false
    | .ok s' => (next s').reaches n s'

/-! ## Blocks that run alone -/

@[simp] theorem run_pure (a : α) (s : σ) : (pure a : Block σ ε α).run s = .ok (a, s) := rfl

theorem run_bind (b : Block σ ε α) (k : α → Block σ ε β) (s : σ) :
    (b >>= k).run s = (b.run s).bind fun r => (k r.1).run r.2 := by
  induction b generalizing s with
  | ret a => rfl
  | raise e => rfl
  | statement f next ih =>
    show (f s).bind (fun s' => ((next s').bind k).run s') = _
    simp only [run]
    cases f s with
    | error e => rfl
    | ok s' => exact ih s' s'

@[simp] theorem run_select (f : σ → β) (s : σ) :
    (select f : Block σ ε β).run s = .ok (f s, s) := rfl

@[simp] theorem run_execute (f : σ → Except ε σ) (s : σ) :
    (execute f).run s = (f s).map fun s' => ((), s') := by
  cases h : f s <;> simp [execute, run, h, Except.map, Except.bind]

@[simp] theorem run_ofExcept (x : Except ε α) (s : σ) :
    (ofExcept x : Block σ ε α).run s = x.map fun a => (a, s) := by
  cases x <;> rfl

/-- A block that nothing interrupts does what it does alone. -/
theorem exec_none (b : Block σ ε α) (s : σ) :
    (∃ e s', b.run s = .error e ∧ b.exec none s = (.error e, s')) ∨
      ∃ a s', b.run s = .ok (a, s') ∧ b.exec none s = (.ok (a, none), s') := by
  induction b generalizing s with
  | ret a => exact .inr ⟨a, s, rfl, rfl⟩
  | raise e => exact .inl ⟨e, s, rfl, rfl⟩
  | statement f next ih =>
    simp only [run, exec]
    cases f s with
    | error e => exact .inl ⟨e, s, rfl, rfl⟩
    | ok s' => exact ih s' s'

/-- A stop that the block reaches takes the place of a statement, or is left for `COMMIT`. -/
theorem exec_reached (b : Block σ ε α) {n : Nat} (e : ε) {s : σ} (h : b.reaches n s = true) :
    ∃ s', b.exec (some (n, e)) s = (.error e, s') ∨
      ∃ a, b.exec (some (n, e)) s = (.ok (a, some (0, e)), s') := by
  induction b generalizing n s with
  | ret a =>
    obtain rfl : n = 0 := by simpa [reaches] using h
    exact ⟨s, .inr ⟨a, rfl⟩⟩
  | raise e' => cases h
  | statement f next ih =>
    cases n with
    | zero => exact ⟨s, .inl rfl⟩
    | succ n =>
      simp only [reaches, exec] at h ⊢
      cases hf : f s with
      | error e' => simp [hf] at h
      | ok s' => exact ih s' (by simpa [hf] using h)

/-- A stop that the block does not reach leaves it as it is alone. -/
theorem exec_unreached (b : Block σ ε α) {n : Nat} (e : ε) {s : σ} (h : b.reaches n s = false) :
    (∃ e' s', b.exec none s = (.error e', s') ∧ b.exec (some (n, e)) s = (.error e', s')) ∨
      ∃ a m s', b.exec none s = (.ok (a, none), s') ∧
        b.exec (some (n, e)) s = (.ok (a, some (m + 1, e)), s') := by
  induction b generalizing n s with
  | ret a =>
    obtain ⟨m, rfl⟩ : ∃ m, n = m + 1 := Nat.exists_eq_succ_of_ne_zero (by simpa [reaches] using h)
    exact .inr ⟨a, m, s, rfl, rfl⟩
  | raise e' => exact .inl ⟨e', s, rfl, rfl⟩
  | statement f next ih =>
    cases n with
    | zero => cases h
    | succ n =>
      simp only [reaches, exec] at h ⊢
      cases hf : f s with
      | error e' => exact .inl ⟨e', s, rfl, rfl⟩
      | ok s' => exact ih s' (by simpa [hf] using h)

end Block

/-! ## Connections -/

/-- The tables as they were last committed, and as they are in the open transaction. -/
structure Connection (σ : Type) where
  committed : σ
  working : Option σ := none

/-- The `except` clauses around a transaction. -/
structure Handlers (ε : Type) where
  /-- What is raised after the rollback, if a clause matches. -/
  handle : ε → Option ε
  /-- What `BEGIN` raises inside a transaction. -/
  nested : ε

namespace Connection

variable {σ ε α : Type}

/-- The tables that reads on the connection see. -/
def tables (c : Connection σ) : σ := c.working.getD c.committed

def begin (c : Connection σ) : Option (Connection σ) :=
  match c.working with
  | none => some { c with working := some c.committed }
  | some _ => none

def rollback (c : Connection σ) : Connection σ := { c with working := none }

/-- The exception reaches the handlers. -/
def fail (H : Handlers ε) (e : ε) (c : Connection σ) : Except ε α × Connection σ :=
  match H.handle e with
  | some e' => (.error e', c.rollback)
  | none => (.error e, c)

/-- `BEGIN`, the block and `COMMIT`. The stop `(0, e)` puts `e` in the place of `BEGIN`. -/
def transact (H : Handlers ε) (block : Block σ ε α) (stop : Option (Nat × ε))
    (c : Connection σ) : Except ε α × Connection σ :=
  match stop with
  | some (0, e) => c.fail H e
  | some (n + 1, e) => body (some (n, e))
  | none => body none
where
  body (stop : Option (Nat × ε)) : Except ε α × Connection σ :=
    match c.begin with
    | none => c.fail H H.nested
    | some c' =>
      match block.exec stop c.committed with
      | (.error e, s) => { c' with working := some s }.fail H e
      | (.ok (_, some (0, e)), s) => { c' with working := some s }.fail H e
      | (.ok (a, _), s) => (.ok a, { committed := s })

/-- The connection is not inside a transaction, its reads see the tables they saw on `c`, and a
transaction can begin. -/
structure Restored (c c' : Connection σ) : Prop where
  idle : c'.working = none
  tables : c'.tables = c.tables
  begins : (c'.begin).isSome = true

variable {H : Handlers ε} {block : Block σ ε α} {stop : Option (Nat × ε)} {c c' : Connection σ}
  {e : ε}

theorem restored_self (hc : c.working = none) : c.Restored c :=
  ⟨hc, rfl, by simp [begin, hc]⟩

theorem rollback_working (hc : c.working = none) (working : Option σ) :
    ({ c with working } : Connection σ).rollback = c := by
  obtain ⟨committed, _⟩ := c
  cases hc
  rfl

/-- A failure that is handled restores the connection. -/
theorem fail_restores (hc : c.working = none) {working : Option σ}
    (hhandle : (H.handle e).isSome = true) :
    ∃ e', ({ c with working } : Connection σ).fail H e = ((.error e' : Except ε α), c) := by
  obtain ⟨e', he'⟩ := Option.isSome_iff_exists.1 hhandle
  refine ⟨e', ?_⟩
  simp only [fail, he', rollback_working hc]

theorem transact_body (hc : c.working = none) (stop : Option (Nat × ε)) :
    transact.body H block c stop =
      match block.exec stop c.committed with
      | (.error e, s) => { c with working := some s }.fail H e
      | (.ok (_, some (0, e)), s) => { c with working := some s }.fail H e
      | (.ok (a, _), s) => (.ok a, { committed := s }) := by
  simp only [transact.body, begin, hc]

/-- A transaction that nothing interrupts commits what its block does. -/
theorem transact_ok {a : α} {s : σ} (hc : c.working = none)
    (h : block.run c.committed = .ok (a, s)) :
    c.transact H block none = (.ok a, { committed := s }) := by
  rw [transact, transact_body hc]
  rcases block.exec_none c.committed with ⟨e, s', herror, _⟩ | ⟨a', s', hok, hexec⟩
  · cases h.symm.trans herror
  · cases h.symm.trans hok
    rw [hexec]

/-- What its block raises and a handler catches restores the tables. -/
theorem transact_error {e' : ε} (hc : c.working = none)
    (h : block.run c.committed = .error e) (hhandle : H.handle e = some e') :
    c.transact H block none = (.error e', c) := by
  rw [transact, transact_body hc]
  rcases block.exec_none c.committed with ⟨e₀, s', herror, hexec⟩ | ⟨a', s', hok, _⟩
  · cases h.symm.trans herror
    rw [hexec]
    simp only [fail, hhandle, rollback_working hc]
  · cases h.symm.trans hok

/-- An exception in the place of a statement after `BEGIN` reaches the handlers inside the
transaction. -/
theorem transact_reached {n : Nat} (hc : c.working = none)
    (h : block.reaches n c.committed = true) :
    ∃ s, c.transact H block (some (n + 1, e)) = { c with working := some s }.fail H e := by
  rw [transact, transact_body hc]
  obtain ⟨s, hexec | ⟨a, hexec⟩⟩ := block.exec_reached e h <;> rw [hexec] <;> exact ⟨s, rfl⟩

/-- One after the last statement changes nothing. -/
theorem transact_unreached {n : Nat} (hc : c.working = none)
    (h : block.reaches n c.committed = false) :
    c.transact H block (some (n + 1, e)) = c.transact H block none := by
  rw [transact, transact, transact_body hc, transact_body hc]
  rcases block.exec_unreached e h with ⟨e₀, s, hnone, hexec⟩ | ⟨a, m, s, hnone, hexec⟩ <;>
    simp only [hnone, hexec]

/-- An idle connection is restored whenever the transaction raises, exactly if no exception without
a handler takes the place of a statement after `BEGIN`. What the block itself raises is handled. -/
theorem transact_restores (hc : c.working = none)
    (hown : ∀ e, block.run c.committed = .error e → (H.handle e).isSome = true) :
    (∀ e c', c.transact H block stop = (.error e, c') → c.Restored c') ↔
      ∀ n e, stop = some (n + 1, e) → block.reaches n c.committed = true →
        (H.handle e).isSome = true := by
  have hnone : ∀ e c', c.transact H block none = (.error e, c') → c.Restored c' := by
    intro e c' h
    rcases block.exec_none c.committed with ⟨e₀, s, herror, hexec⟩ | ⟨a, s, hok, _⟩
    · obtain ⟨e₁, he₁⟩ := Option.isSome_iff_exists.1 (hown e₀ herror)
      cases (transact_error hc herror he₁).symm.trans h
      exact restored_self hc
    · cases (transact_ok hc hok).symm.trans h
  constructor
  · rintro h n e rfl hreached
    obtain ⟨s, hs⟩ := transact_reached (H := H) (e := e) hc hreached
    by_contra hhandle
    have hleft : c.transact H block (some (n + 1, e)) =
        (.error e, { c with working := some s }) := by
      simp only [hs, fail, Option.not_isSome_iff_eq_none.1 hhandle]
    cases (h _ _ hleft).idle
  · intro h e c' hraise
    match stop with
    | some (0, e₀) =>
      rw [transact, fail] at hraise
      split at hraise <;> cases hraise
      · rw [rollback_working hc c.working]
        exact restored_self hc
      · exact restored_self hc
    | some (n + 1, e₀) =>
      cases hreached : block.reaches n c.committed with
      | true =>
        obtain ⟨s, hs⟩ := transact_reached (H := H) (e := e₀) hc hreached
        obtain ⟨e', hfail⟩ : ∃ e', ({ c with working := some s } : Connection σ).fail H e₀ =
            ((.error e' : Except ε α), c) := fail_restores hc (h n e₀ rfl hreached)
        cases (hs.trans hfail).symm.trans hraise
        exact restored_self hc
      | false => exact hnone e c' (transact_unreached hc hreached ▸ hraise)
    | none => exact hnone e c' hraise

end Connection

end Transaction
