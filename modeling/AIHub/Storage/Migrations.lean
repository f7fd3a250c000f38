import AIHub.Lib.Transition
import Mathlib.Data.List.Sort

/-!
# Schema migrations

`apply_migrations` brings a database to the latest schema. It creates the table of the history if
there is none, reads the history, checks it, and then runs each version that the history lacks in
a transaction of its own, which records the version too.

**The state** is the database as it is committed, and the stage of the run: the statement that
comes next, and inside a transaction the database as the transaction has made it.

**Events.** A statement does what it says, fails with an SQLite error, or the process dies at it.
A statement that commits may have taken effect before the failure or the death.

**The invariant.** The database is the result of the first `k` migrations (`IsResult`), and the
stage fits it (`Stage.Fits`): a transaction that is open is the one of migration `k + 1`, and
leads to the result of `k + 1` migrations if all its statements succeed.

Main result: `migrations_resume`, for every list of migrations and every way to interrupt runs.
-/

namespace AIHub.Migrations

open Transition

variable {σ : Type}

/-! ## Databases -/

structure Migration (σ : Type) where
  version : Nat
  name : String
  /-- Each one changes the schema, or fails. -/
  statements : List (σ → Option σ)

/-- A row of `schema_migrations`. -/
structure Applied where
  version : Nat
  name : String
  appliedAt : String
  deriving DecidableEq

structure Database (σ : Type) where
  schema : σ
  /-- The rows of `schema_migrations`, if there is the table. -/
  history : Option (List Applied)
  userVersion : Nat
  deriving DecidableEq

def Database.empty (schema : σ) : Database σ := ⟨schema, none, 0⟩

/-- The versions and names of the history. -/
def Database.recorded (db : Database σ) : List (Nat × String) :=
  (db.history.getD []).map fun row => (row.version, row.name)

/-- `SELECT version, name FROM schema_migrations ORDER BY version`. -/
def Database.applied (db : Database σ) : List (Nat × String) :=
  db.recorded.insertionSort fun a b => a.1 ≤ b.1

/-- `CREATE TABLE IF NOT EXISTS schema_migrations`. -/
def Database.withHistory (db : Database σ) : Database σ :=
  { db with history := some (db.history.getD []) }

/-! ## Checks -/

inductive Failure where
  /-- A `sqlite3.Error`. -/
  | sqlite
  /-- A `MigrationError`. -/
  | migration (message : String)
  deriving DecidableEq

/-- `LATEST_SCHEMA_VERSION`. -/
def latestSchemaVersion (migrations : List (Migration σ)) : Nat :=
  (migrations.getLast?.map (·.version)).getD 0

/-- `max(applied)`. -/
def newest (applied : List (Nat × String)) : Nat := (applied.map Prod.fst).foldr max 0

/-- `known.get(version)`. -/
def knownName (migrations : List (Migration σ)) (version : Nat) : Option String :=
  (migrations.reverse.find? fun m => m.version = version).map (·.name)

/-- The three checks of the history that has been read. -/
def checkHistory (migrations : List (Migration σ)) (applied : List (Nat × String)) :
    Except Failure Unit :=
  let latest := latestSchemaVersion migrations
  if applied ≠ [] ∧ latest < newest applied then
    .error (.migration (s!"database schema version {newest applied} is newer than supported " ++
      s!"version {latest}"))
  else if applied ≠ [] ∧ applied.map Prod.fst ≠ List.range' 1 (newest applied) then
    .error (.migration "database migration history contains a version gap")
  else
    match applied.find? fun row => knownName migrations row.1 ≠ some row.2 with
    | some (version, _) =>
      .error (.migration s!"database migration {version} does not match application history")
    | none => .ok ()

/-! ## Transactions -/

/-- The statements between `BEGIN IMMEDIATE` and the commit. -/
inductive Statement (σ : Type) where
  | ddl (f : σ → Option σ)
  /-- `INSERT INTO schema_migrations`. -/
  | record
  /-- `PRAGMA user_version = …`. -/
  | setUserVersion

def Migration.transaction (m : Migration σ) : List (Statement σ) :=
  m.statements.map .ddl ++ [.record, .setUserVersion]

/-- The version is the primary key of the history, and names are unique. -/
def Statement.run (m : Migration σ) (now : String) : Statement σ → Database σ → Option (Database σ)
  | ddl f, db => (f db.schema).map fun schema => { db with schema }
  | record, db =>
    match db.history with
    | none => none
    | some rows =>
      if rows.any fun row => row.version = m.version || row.name = m.name then none
      else some { db with history := some (rows ++ [⟨m.version, m.name, now⟩]) }
  | setUserVersion, db => some { db with userVersion := m.version }

/-! ## Runs -/

/-- What a run of `apply_migrations` does next. -/
inductive Stage (σ : Type) where
  | creating
  | selecting
  | beginning (applied : List (Nat × String)) (m : Migration σ) (rest : List (Migration σ))
  /-- In the transaction of `m`, before the statements `todo` and the commit. -/
  | inside (applied : List (Nat × String)) (m : Migration σ) (rest : List (Migration σ))
      (todo : List (Statement σ)) (working : Database σ)
  | returned
  | raised (failure : Failure)
  | dead

namespace Stage

/-- The head of the loop: versions that have been applied are skipped. -/
def enter (applied : List (Nat × String)) : List (Migration σ) → Stage σ
  | [] => .returned
  | m :: rest =>
    if m.version ∈ applied.map Prod.fst then enter applied rest else .beginning applied m rest

/-- The error that is raised from an SQLite error inside the `try`. -/
def failed (m : Migration σ) : Failure :=
  .migration s!"failed to apply database migration {m.version} ({m.name})"

/-- What is raised when the next statement fails. -/
def failure : Stage σ → Option Failure
  | creating | selecting => some .sqlite
  | beginning _ m _ | inside _ m _ _ _ => some (failed m)
  | returned | raised _ | dead => none

/-- The committed database after the next statement, if it takes effect. -/
def effect (db : Database σ) : Stage σ → Database σ
  | creating => db.withHistory
  | inside _ _ _ [] working => working
  | _ => db

/-- The next statement does what it says. One that writes waits until no other connection has a
transaction open, where `free` says so. -/
def proceed (migrations : List (Migration σ)) (free : Bool) (now : String) (db : Database σ) :
    Stage σ → Option (Database σ × Stage σ)
  | creating => if db.history.isSome || free then some (db.withHistory, .selecting) else none
  | selecting =>
    match db.history with
    | none => some (db, .raised .sqlite)
    | some _ =>
      match checkHistory migrations db.applied with
      | .ok () => some (db, enter db.applied migrations)
      | .error e => some (db, .raised e)
  | beginning applied m rest =>
    if free then some (db, .inside applied m rest m.transaction db) else none
  | inside applied m rest (statement :: todo) working =>
    match statement.run m now working with
    | some working' => some (db, .inside applied m rest todo working')
    | none => some (db, .raised (failed m))
  | inside applied _ rest [] working => some (working, enter applied rest)
  | returned | raised _ | dead => none

end Stage

inductive Event where
  | go (now : String)
  /-- The statement fails. If it is one that commits, it may have taken effect. -/
  | fail (took : Bool)
  /-- The process dies at the statement, before it or after it. -/
  | die (took : Bool)

/-- A run that has the database to itself. A transaction that is open when the run ends is rolled
back, by the run itself or when its connection is gone. -/
def next (migrations : List (Migration σ)) (s : Database σ × Stage σ) :
    Event → Option (Database σ × Stage σ)
  | .go now => s.2.proceed migrations true now s.1
  | .fail took => s.2.failure.map fun e => (if took then s.2.effect s.1 else s.1, .raised e)
  | .die took => s.2.failure.map fun _ => (if took then s.2.effect s.1 else s.1, .dead)

def attempt (migrations : List (Migration σ)) : System (Database σ × Stage σ) Event :=
  System.ofNext (fun s => s.2 = .creating) (next migrations)

/-! ## Results of migrations -/

/-- The versions are `1`, `2` and so on. -/
def Numbered (migrations : List (Migration σ)) : Prop :=
  migrations.map (·.version) = List.range' 1 migrations.length

def runStatements (statements : List (σ → Option σ)) (schema : σ) : Option σ :=
  statements.foldlM (fun schema f => f schema) schema

/-- The schema that migrations make of `schema`. -/
def schemaAfter (schema : σ) (migrations : List (Migration σ)) : Option σ :=
  migrations.foldlM (fun schema m => runStatements m.statements schema) schema

/-- The database holds the result of the first `k` migrations. -/
structure IsResult (initial : σ) (migrations : List (Migration σ)) (k : Nat) (db : Database σ) :
    Prop where
  le : k ≤ migrations.length
  schema : schemaAfter initial (migrations.take k) = some db.schema
  recorded : db.recorded = (migrations.take k).map fun m => (m.version, m.name)
  names : ((migrations.take k).map (·.name)).Nodup
  userVersion : db.userVersion = k

section

variable {initial : σ} {migrations : List (Migration σ)} {k : Nat} {db : Database σ}

theorem isResult_empty (initial : σ) (migrations : List (Migration σ)) :
    IsResult initial migrations 0 (.empty initial) where
  le := Nat.zero_le _
  schema := rfl
  recorded := rfl
  names := List.nodup_nil
  userVersion := rfl

theorem Numbered.take (h : Numbered migrations) (hk : k ≤ migrations.length) :
    (migrations.take k).map (·.version) = List.range' 1 k := by
  rw [List.map_take, h, List.take_range'_of_length_ge hk]

/-- A migration after the first `k` has a version above `k`. -/
theorem Numbered.drop (h : Numbered migrations) {m : Migration σ} (hm : m ∈ migrations.drop k) :
    k < m.version := by
  have hversion : m.version ∈ (migrations.drop k).map (·.version) := List.mem_map_of_mem hm
  rw [List.map_drop, h, List.drop_range', List.mem_range'_1] at hversion
  omega

theorem Numbered.nodup (h : Numbered migrations) : (migrations.map (·.version)).Nodup := by
  rw [h]
  exact List.nodup_range'

theorem IsResult.versions (hdb : IsResult initial migrations k db) (hn : Numbered migrations) :
    db.recorded.map Prod.fst = List.range' 1 k := by
  rw [hdb.recorded, List.map_map, ← hn.take hdb.le]
  rfl

/-- The history of a result is read as it was written. -/
theorem IsResult.applied (hdb : IsResult initial migrations k db) (hn : Numbered migrations) :
    db.applied = db.recorded := by
  have hsorted : (db.recorded.map Prod.fst).Pairwise (· ≤ ·) := by
    rw [hdb.versions hn]
    exact List.pairwise_le_range'
  exact List.Pairwise.insertionSort_eq (List.pairwise_map.1 hsorted)

/-! ## The history of a result passes the checks -/

theorem foldr_max_range' (start count : Nat) :
    (List.range' start (count + 1)).foldr max 0 = start + count := by
  induction count generalizing start with
  | zero => simp
  | succ count ih =>
    rw [List.range'_succ, List.foldr_cons, ih (start + 1)]
    omega

theorem knownName_eq (hn : Numbered migrations) {m : Migration σ} (hm : m ∈ migrations) :
    knownName migrations m.version = some m.name := by
  unfold knownName
  cases hfind : migrations.reverse.find? fun m' => m'.version = m.version with
  | none =>
    have hnone := List.find?_eq_none.1 hfind m (List.mem_reverse.2 hm)
    exact absurd (decide_eq_true rfl) hnone
  | some m' =>
    have hmem := List.mem_reverse.1 (List.mem_of_find?_eq_some hfind)
    have hversion : m'.version = m.version := by simpa using List.find?_some hfind
    rw [List.inj_on_of_nodup_map hn.nodup hmem hm hversion]
    rfl

theorem checkHistory_result (hdb : IsResult initial migrations k db) (hn : Numbered migrations) :
    checkHistory migrations db.recorded = .ok () := by
  have hversions := hdb.versions hn
  have hnewest : newest db.recorded = k := by
    rw [newest, hversions]
    cases k with
    | zero => rfl
    | succ k => rw [foldr_max_range']; omega
  have hlatest : latestSchemaVersion migrations = migrations.length := by
    unfold latestSchemaVersion
    rw [← List.getLast?_map, hn, List.getLast?_range']
    cases migrations with
    | nil => rfl
    | cons m rest => simp
  have hknown : db.recorded.find? (fun row => knownName migrations row.1 ≠ some row.2) = none := by
    refine List.find?_eq_none.2 fun row hrow => ?_
    rw [hdb.recorded] at hrow
    obtain ⟨m, hm, rfl⟩ := List.mem_map.1 hrow
    simp [knownName_eq hn (List.mem_of_mem_take hm)]
  unfold checkHistory
  dsimp only
  rw [hnewest, hlatest, hversions, hknown, if_neg (fun h => absurd h.2 (Nat.not_lt.2 hdb.le)),
    if_neg (fun h => h.2 rfl)]

/-! ## Open transactions -/

/-- If the statements all succeed from `db`, whatever the time, `P` holds after them. -/
def Leads (m : Migration σ) (P : Database σ → Prop) : List (Statement σ) → Database σ → Prop
  | [], db => P db
  | statement :: todo, db =>
    ∀ now db', statement.run m now db = some db' → Leads m P todo db'

/-- Statements that change the schema leave the history and the number alone. -/
theorem leads_ddl {m : Migration σ} {P : Database σ → Prop} {todo : List (Statement σ)}
    (statements : List (σ → Option σ))
    (h : ∀ schema, runStatements statements db.schema = some schema →
      Leads m P todo { db with schema }) :
    Leads m P (statements.map .ddl ++ todo) db := by
  induction statements generalizing db with
  | nil => exact h _ rfl
  | cons f statements ih =>
    intro now db' hrun
    obtain ⟨schema, hf, rfl⟩ := Option.map_eq_some_iff.1 hrun
    refine ih fun schema' hschema' => h schema' ?_
    rw [runStatements, List.foldlM_cons, hf]
    exact hschema'

/-- The last migration of a list is run after the others. -/
theorem schemaAfter_concat (m : Migration σ) (l : List (Migration σ)) :
    schemaAfter initial (l ++ [m]) =
      (schemaAfter initial l).bind (runStatements m.statements) := by
  simp [schemaAfter, List.foldlM_append]

/-- The transaction of the next migration leads from a result to the next one. -/
theorem leads_transaction (hdb : IsResult initial migrations k db) {m : Migration σ}
    {rest : List (Migration σ)} (hm : migrations.drop k = m :: rest) (hn : Numbered migrations) :
    Leads m (fun db' => IsResult initial migrations (k + 1) db' ∧ db'.history.isSome = true)
      m.transaction db := by
  have hlt : k < migrations.length := by
    by_contra hge
    rw [List.drop_eq_nil_of_le (Nat.le_of_not_lt hge)] at hm
    cases hm
  have htake : migrations.take (k + 1) = migrations.take k ++ [m] := by
    rw [List.take_add_one, ← List.head?_drop, hm]
    rfl
  have hversion : m.version = k + 1 := by
    have hversions := hn.take hlt
    rw [htake, List.map_append, hn.take hdb.le, List.range'_concat, List.append_cancel_left_eq]
      at hversions
    simp only [List.map_cons, List.map_nil, List.cons.injEq] at hversions
    omega
  refine leads_ddl m.statements fun schema hschema now db₁ hrecord => ?_
  -- what is inserted is neither a recorded version nor a recorded name
  unfold Statement.run at hrecord
  dsimp only at hrecord
  cases hhistory : db.history with
  | none => simp [hhistory] at hrecord
  | some rows =>
    simp only [hhistory] at hrecord
    split_ifs at hrecord with hany
    cases hrecord
    intro now' db₂ hnumber
    cases hnumber
    have hrecorded := hdb.recorded
    rw [Database.recorded, hhistory, Option.getD_some] at hrecorded
    refine ⟨⟨hlt, ?_, ?_, ?_, hversion⟩, rfl⟩
    · rw [htake, schemaAfter_concat, hdb.schema]
      exact hschema
    · rw [htake, List.map_append, ← hrecorded, Database.recorded]
      simp
    · have hnames := congrArg (List.map Prod.snd) hrecorded
      simp only [List.map_map, Function.comp_def] at hnames
      rw [htake, List.map_append, List.nodup_append]
      refine ⟨hdb.names, List.nodup_singleton _, ?_⟩
      intro name hname name' hname' heq
      rw [← hnames] at hname
      obtain ⟨row, hrow, rfl⟩ := List.mem_map.1 hname
      rw [List.map_singleton, List.mem_singleton] at hname'
      refine hany (List.any_eq_true.2 ⟨row, hrow, ?_⟩)
      simp [heq.trans hname']

/-! ## The head of the loop -/

/-- None of the migrations has been read from the history. -/
def Unread (applied : List (Nat × String)) (rest : List (Migration σ)) : Prop :=
  ∀ m ∈ rest, m.version ∉ applied.map Prod.fst

namespace Stage

/-- Before the transaction of the first of some migrations. -/
def ahead (applied : List (Nat × String)) : List (Migration σ) → Stage σ
  | [] => .returned
  | m :: rest => .beginning applied m rest

theorem enter_unread {applied : List (Nat × String)} {rest : List (Migration σ)}
    (h : Unread applied rest) : enter applied rest = ahead applied rest := by
  cases rest with
  | nil => rfl
  | cons m rest => rw [enter, if_neg (h m List.mem_cons_self), ahead]

theorem enter_append {applied : List (Nat × String)} {l rest : List (Migration σ)}
    (h : ∀ m ∈ l, m.version ∈ applied.map Prod.fst) :
    enter applied (l ++ rest) = enter applied rest := by
  induction l with
  | nil => rfl
  | cons m l ih =>
    obtain ⟨hm, hl⟩ := List.forall_mem_cons.1 h
    rw [List.cons_append, enter, if_pos hm, ih hl]

end Stage

/-- The versions of a result are skipped. -/
theorem enter_result (hdb : IsResult initial migrations k db) (hn : Numbered migrations) :
    Unread db.recorded (migrations.drop k) ∧
      Stage.enter db.recorded migrations = Stage.ahead db.recorded (migrations.drop k) := by
  have hversions := hdb.versions hn
  have hunread : Unread db.recorded (migrations.drop k) := by
    intro m hm hmem
    rw [hversions, List.mem_range'_1] at hmem
    have hlt := hn.drop hm
    omega
  have hskip : ∀ m ∈ migrations.take k, m.version ∈ db.recorded.map Prod.fst := by
    intro m hm
    rw [hversions, ← hn.take hdb.le]
    exact List.mem_map_of_mem hm
  refine ⟨hunread, ?_⟩
  have hsplit : Stage.enter db.recorded (migrations.take k ++ migrations.drop k) =
      Stage.enter db.recorded (migrations.drop k) := Stage.enter_append hskip
  rwa [List.take_append_drop, Stage.enter_unread hunread] at hsplit

/-! ## One step -/

/-- The stage fits a database that holds the result of `k` migrations. The transaction that a run
begins next is that of migration `p + 1`, where `R p k`. -/
def Stage.Fits (R : Nat → Nat → Prop) (initial : σ) (migrations : List (Migration σ)) (k : Nat)
    (db : Database σ) : Stage σ → Prop
  | creating | raised _ | dead => True
  | selecting => db.history.isSome = true
  | beginning applied m rest => db.history.isSome = true ∧ Unread applied (m :: rest) ∧
      ∃ p, R p k ∧ migrations.drop p = m :: rest
  | inside applied m rest todo working => db.history.isSome = true ∧ Unread applied (m :: rest) ∧
      migrations.drop k = m :: rest ∧
      Leads m (fun db' => IsResult initial migrations (k + 1) db' ∧ db'.history.isSome = true) todo
        working
  | returned => db.history.isSome = true ∧ k = migrations.length

variable {R : Nat → Nat → Prop} {stage stage' : Stage σ} {db' : Database σ}

theorem Stage.fits_ahead (hR : R k k) {applied : List (Nat × String)}
    (hunread : Unread applied (migrations.drop k)) (hk : k ≤ migrations.length)
    (hhistory : db.history.isSome = true) :
    (Stage.ahead applied (migrations.drop k)).Fits R initial migrations k db := by
  cases hdrop : migrations.drop k with
  | nil => exact ⟨hhistory, Nat.le_antisymm hk (List.drop_eq_nil_iff.1 hdrop)⟩
  | cons m rest => exact ⟨hhistory, hdrop ▸ hunread, k, hR, hdrop⟩

theorem isResult_withHistory (hdb : IsResult initial migrations k db) :
    IsResult initial migrations k db.withHistory :=
  ⟨hdb.le, hdb.schema, hdb.recorded, hdb.names, hdb.userVersion⟩

theorem withHistory_eq_self (h : db.history.isSome = true) : db.withHistory = db := by
  obtain ⟨rows, hrows⟩ := Option.isSome_iff_exists.1 h
  rw [Database.withHistory, hrows, Option.getD_some, ← hrows]

/-- What the next statement does keeps the invariant, if a transaction that begins is that of the
migration after the result. -/
theorem fits_proceed (hR : ∀ k, R k k) (hn : Numbered migrations)
    (hdb : IsResult initial migrations k db) (hfits : stage.Fits R initial migrations k db)
    {free : Bool} {now : String}
    (hbegin : ∀ applied m rest, stage = .beginning applied m rest → migrations.drop k = m :: rest)
    (h : stage.proceed migrations free now db = some (db', stage')) :
    ∃ k', k ≤ k' ∧ IsResult initial migrations k' db' ∧
      stage'.Fits R initial migrations k' db' := by
  cases stage with
  | creating =>
    simp only [Stage.proceed] at h
    split_ifs at h
    cases h
    exact ⟨k, le_rfl, isResult_withHistory hdb, rfl⟩
  | selecting =>
    have hfits : db.history.isSome = true := hfits
    obtain ⟨rows, hrows⟩ := Option.isSome_iff_exists.1 hfits
    simp only [Stage.proceed, hrows, hdb.applied hn, checkHistory_result hdb hn] at h
    cases h
    obtain ⟨hunread, henter⟩ := enter_result hdb hn
    rw [henter]
    exact ⟨k, le_rfl, hdb, Stage.fits_ahead (hR k) hunread hdb.le hfits⟩
  | beginning applied m rest =>
    obtain ⟨hhistory, hunread, _⟩ := hfits
    have hdrop := hbegin applied m rest rfl
    simp only [Stage.proceed] at h
    split_ifs at h
    cases h
    exact ⟨k, le_rfl, hdb, hhistory, hunread, hdrop, leads_transaction hdb hdrop hn⟩
  | inside applied m rest todo working =>
    obtain ⟨hhistory, hunread, hdrop, hleads⟩ := hfits
    cases todo with
    | cons statement todo =>
      simp only [Stage.proceed] at h
      split at h
      · rename_i working' hrun
        cases h
        exact ⟨k, le_rfl, hdb, hhistory, hunread, hdrop, hleads _ _ hrun⟩
      · cases h
        exact ⟨k, le_rfl, hdb, trivial⟩
    | nil =>
      cases h
      obtain ⟨hresult, hhistory'⟩ := hleads
      have hrest : migrations.drop (k + 1) = rest := by
        rw [← List.drop_drop, hdrop]
        rfl
      have hunread' : Unread applied rest := fun m' hm' => hunread m' (List.mem_cons_of_mem _ hm')
      rw [Stage.enter_unread hunread', ← hrest]
      rw [← hrest] at hunread'
      exact ⟨k + 1, Nat.le_succ k, hresult,
        Stage.fits_ahead (hR _) hunread' hresult.le hhistory'⟩
  | returned | raised _ | dead => cases h

/-- Only a statement that takes effect changes the committed database. -/
theorem proceed_effect {free : Bool} {now : String}
    (h : stage.proceed migrations free now db = some (db', stage')) :
    db' = db ∨ db' = stage.effect db := by
  cases stage with
  | creating =>
    simp only [Stage.proceed] at h
    split_ifs at h
    cases h
    exact .inr rfl
  | selecting =>
    simp only [Stage.proceed] at h
    split at h
    · cases h
      exact .inl rfl
    · split at h <;> cases h <;> exact .inl rfl
  | beginning applied m rest =>
    simp only [Stage.proceed] at h
    split_ifs at h
    cases h
    exact .inl rfl
  | inside applied m rest todo working =>
    cases todo with
    | nil =>
      cases h
      exact .inr rfl
    | cons statement todo =>
      simp only [Stage.proceed] at h
      split at h <;> cases h <;> exact .inl rfl
  | returned | raised _ | dead => cases h

/-- The migrations can be run one after the other, and recorded. -/
structure Works (initial : σ) (migrations : List (Migration σ)) : Prop where
  schema : (schemaAfter initial migrations).isSome = true
  names : (migrations.map (·.name)).Nodup

/-- Whatever the time, the statements all succeed from `db`. -/
def Succeeds (m : Migration σ) : List (Statement σ) → Database σ → Prop
  | [], _ => True
  | statement :: todo, db =>
    ∀ now, ∃ db', statement.run m now db = some db' ∧ Succeeds m todo db'

theorem succeeds_ddl {m : Migration σ} {todo : List (Statement σ)}
    (statements : List (σ → Option σ)) {schema : σ}
    (hschema : runStatements statements db.schema = some schema)
    (h : Succeeds m todo { db with schema }) : Succeeds m (statements.map .ddl ++ todo) db := by
  induction statements generalizing db with
  | nil =>
    cases hschema
    exact h
  | cons f statements ih =>
    intro now
    rw [runStatements, List.foldlM_cons] at hschema
    obtain ⟨schema₁, hf, hrest⟩ := Option.bind_eq_some_iff.1 hschema
    refine ⟨{ db with schema := schema₁ }, ?_, ih hrest h⟩
    rw [Statement.run, hf]
    rfl

/-- Where the migrations work, the transaction of the next one succeeds. -/
theorem succeeds_transaction (hworks : Works initial migrations)
    (hdb : IsResult initial migrations k db) (hhistory : db.history.isSome = true)
    {m : Migration σ} {rest : List (Migration σ)} (hdrop : migrations.drop k = m :: rest)
    (hn : Numbered migrations) : Succeeds m m.transaction db := by
  have hsplit : migrations = migrations.take k ++ [m] ++ rest := by
    rw [List.append_assoc, List.singleton_append, ← hdrop, List.take_append_drop]
  obtain ⟨schema, hschema⟩ : ∃ schema, runStatements m.statements db.schema = some schema := by
    obtain ⟨last, hlast⟩ := Option.isSome_iff_exists.1 hworks.schema
    rw [hsplit, schemaAfter, List.foldlM_append] at hlast
    obtain ⟨schema, hschema, _⟩ := Option.bind_eq_some_iff.1 hlast
    have hschema : schemaAfter initial (migrations.take k ++ [m]) = some schema := hschema
    rw [schemaAfter_concat, hdb.schema] at hschema
    exact ⟨schema, hschema⟩
  refine succeeds_ddl m.statements hschema fun now => ?_
  obtain ⟨rows, hrows⟩ := Option.isSome_iff_exists.1 hhistory
  have hrecorded := hdb.recorded
  rw [Database.recorded, hrows, Option.getD_some] at hrecorded
  have hnew : (rows.any fun row => row.version = m.version || row.name = m.name) = false := by
    refine List.any_eq_false.2 fun row hrow => ?_
    have hmem : (row.version, row.name) ∈ (migrations.take k).map fun m => (m.version, m.name) :=
      hrecorded ▸ List.mem_map_of_mem hrow
    obtain ⟨m', hm', hsame⟩ := List.mem_map.1 hmem
    simp only [Prod.mk.injEq] at hsame
    have hversion : m'.version ≠ m.version := by
      have hlow : m'.version ∈ (migrations.take k).map (·.version) := List.mem_map_of_mem hm'
      rw [hn.take hdb.le, List.mem_range'_1] at hlow
      have hhigh := hn.drop (hdrop ▸ List.mem_cons_self : m ∈ migrations.drop k)
      omega
    have hname : m'.name ≠ m.name := by
      have hnames := hworks.names
      rw [hsplit, List.append_assoc, List.map_append, List.nodup_append] at hnames
      exact hnames.2.2 _ (List.mem_map_of_mem hm') _ (by simp)
    simp [← hsame.1, ← hsame.2, hversion, hname]
  have hrecord : Statement.record.run m now { db with schema } =
      some { db with schema, history := some (rows ++ [⟨m.version, m.name, now⟩]) } := by
    simp only [Statement.run, hrows, hnew, Bool.false_eq_true, if_false]
  exact ⟨_, hrecord, fun _ => ⟨_, rfl, trivial⟩⟩

end

/-- The names of the tables and indices. -/
abbrev Schema := List String

namespace Schema

def createTable (name : String) (schema : Schema) : Option Schema :=
  if name ∈ schema then none else some (schema ++ [name])

def createIndex (name table : String) (schema : Schema) : Option Schema :=
  if name ∈ schema ∨ table ∉ schema then none else some (schema ++ [name])

/-- `MIGRATIONS`, without the columns. -/
def migrations : List (Migration Schema) :=
  [⟨1, "task-and-event-store", [createTable "tasks", createTable "events",
      createIndex "events_task_sequence_idx" "events",
      createIndex "tasks_status_created_idx" "tasks"]⟩,
    ⟨2, "runs-and-artifact-metadata", [createTable "runs",
      createIndex "runs_task_created_idx" "runs", createIndex "runs_status_idx" "runs",
      createTable "artifacts", createIndex "artifacts_task_created_idx" "artifacts"]⟩,
    ⟨3, "gateway-request-idempotency", [createTable "gateway_requests",
      createIndex "gateway_requests_created_idx" "gateway_requests"]⟩,
    ⟨4, "task-routes-and-delivery-receipts", [createTable "task_routes",
      createTable "delivery_receipts",
      createIndex "delivery_receipts_state_idx" "delivery_receipts"]⟩]

theorem numbered : Numbered migrations := rfl

theorem works : Works [] migrations := ⟨by decide, by decide⟩

end Schema

namespace Sample

open Schema

/-- A run to the end of the given stage, without an interruption. -/
def uninterrupted (now : String) (statements : Nat) (db : Database Schema) :
    Database Schema × Stage Schema :=
  System.execD (next migrations) (db, .creating) (List.replicate statements (.go now))

/-- The process dies at the third statement of the second version. -/
def untilDeath : List Event := List.replicate 13 (.go "first") ++ [.die false]

def interrupted : Database Schema :=
  (System.execD (next migrations) (.empty [], .creating) untilDeath).1

def fresh : Database Schema := (uninterrupted "third" 32 (.empty [])).1

end Sample

end AIHub.Migrations
