import AIHub.Storage.Migrations
import Mathlib.Algebra.BigOperators.Group.Finset.Basic
import Mathlib.Algebra.Order.BigOperators.Group.Finset
import Mathlib.Data.Fintype.BigOperators

/-!
# Schema migrations side by side

Several connections run `apply_migrations` on one database file, as when the service and an
operator command open the store at the same time.

**The state** is the committed database, and the stage of each run. A statement that writes waits
while another run has a transaction open. There are no other failures.

**The condition** (`Unrecorded`). Each run reads the history once, before any of its transactions.
A run that begins the transaction of a version must find it unrecorded still.

**The invariant** (`Sound`). The database holds the result of the first `k` migrations, each stage
fits it with `≤` for what the run begins next, and at most one transaction is open, which succeeds.

Main result: `runs_upgrade`. Every run comes to an end, and all of them return, with the database
upgraded, exactly if each step meets the condition.
-/

namespace AIHub.Migrations

open Transition

variable {σ : Type} {ι : Type}

/-! ## Runs on one file -/

/-- The run has a transaction open. -/
def Stage.inTransaction : Stage σ → Bool
  | inside .. => true
  | _ => false

/-- The migration whose transaction the run begins next. -/
def Stage.begins : Stage σ → Option (Migration σ)
  | beginning _ m _ => some m
  | _ => none

structure Shared (ι σ : Type) where
  database : Database σ
  stage : ι → Stage σ

namespace Shared

/-- All runs start on a database. -/
def start (db : Database σ) : Shared ι σ := ⟨db, fun _ => .creating⟩

variable [Fintype ι] [DecidableEq ι]

/-- No run has a transaction open. -/
def free (s : Shared ι σ) : Bool := decide (∀ i, (s.stage i).inTransaction = false)

/-- The next statement of one run. -/
def next (migrations : List (Migration σ)) (s : Shared ι σ) (label : ι × String) :
    Option (Shared ι σ) :=
  ((s.stage label.1).proceed migrations s.free label.2 s.database).map fun result =>
    ⟨result.1, Function.update s.stage label.1 result.2⟩

/-- No run can go on. -/
def Ended (migrations : List (Migration σ)) (s : Shared ι σ) : Prop :=
  ∀ label, s.next migrations label = none

/-- What the run begins, if it begins a transaction, is not recorded. -/
def Unrecorded (s : Shared ι σ) (label : ι × String) : Prop :=
  ∀ m ∈ (s.stage label.1).begins, m.version ∉ s.database.recorded.map Prod.fst

instance (s : Shared ι σ) (label : ι × String) : Decidable (s.Unrecorded label) :=
  inferInstanceAs (Decidable (∀ m ∈ (s.stage label.1).begins, _ ∉ _))

/-- Every run has returned, and the database is at the latest schema with each migration recorded
once. -/
structure Upgraded (initial : σ) (migrations : List (Migration σ)) (s : Shared ι σ) : Prop where
  returned : ∀ i, s.stage i = .returned
  result : IsResult initial migrations migrations.length s.database

end Shared

def together [Fintype ι] [DecidableEq ι] (migrations : List (Migration σ)) :
    System (Shared ι σ) (ι × String) :=
  System.ofNext (fun s => ∀ i, s.stage i = .creating) (Shared.next migrations)

section

variable {initial : σ} {migrations : List (Migration σ)} {k : Nat} {db db' : Database σ}
  {stage stage' : Stage σ} {free : Bool} {now : String}

/-! ## The other runs -/

theorem inTransaction_enter (applied : List (Nat × String)) (l : List (Migration σ)) :
    (Stage.enter applied l).inTransaction = false := by
  induction l with
  | nil => rfl
  | cons m l ih =>
    unfold Stage.enter
    split_ifs
    · exact ih
    · rfl

/-- While another run has a transaction open, a step changes neither the database nor that. -/
theorem proceed_locked (hhistory : db.history.isSome = true) (hout : stage.inTransaction = false)
    (h : stage.proceed migrations false now db = some (db', stage')) :
    db' = db ∧ stage'.inTransaction = false := by
  cases stage with
  | creating =>
    simp only [Stage.proceed, hhistory] at h
    cases h
    exact ⟨withHistory_eq_self hhistory, rfl⟩
  | selecting =>
    simp only [Stage.proceed] at h
    split at h
    · cases h
      exact ⟨rfl, rfl⟩
    · split at h <;> cases h
      · exact ⟨rfl, inTransaction_enter _ _⟩
      · exact ⟨rfl, rfl⟩
  | beginning applied m rest => cases h
  | inside applied m rest todo working => cases hout
  | returned | raised _ | dead => cases h

/-- A transaction is opened only where none is open. -/
theorem free_of_begins (hout : stage.inTransaction = false) (hin : stage'.inTransaction = true)
    (h : stage.proceed migrations free now db = some (db', stage')) : free = true := by
  cases free with
  | true => rfl
  | false =>
    cases stage with
    | creating =>
      simp only [Stage.proceed] at h
      split_ifs at h
      cases h
      cases hin
    | selecting =>
      simp only [Stage.proceed] at h
      split at h
      · cases h
        cases hin
      · split at h <;> cases h
        · rw [inTransaction_enter] at hin
          cases hin
        · cases hin
    | beginning applied m rest => cases h
    | inside applied m rest todo working => cases hout
    | returned | raised _ | dead => cases h

/-- The history stays. -/
theorem proceed_history {R : Nat → Nat → Prop}
    (hfits : stage.Fits R initial migrations k db) (hhistory : db.history.isSome = true)
    (h : stage.proceed migrations free now db = some (db', stage')) :
    db'.history.isSome = true := by
  rcases proceed_effect h with rfl | rfl
  · exact hhistory
  · cases stage with
    | creating => rfl
    | inside applied m rest todo working =>
      cases todo with
      | nil => exact hfits.2.2.2.2
      | cons statement todo => exact hhistory
    | selecting | beginning _ _ _ | returned | raised _ | dead => exact hhistory

/-- A stage outside a transaction fits a later result too. -/
theorem Stage.Fits.mono (hfits : stage.Fits (· ≤ ·) initial migrations k db) {k' : Nat}
    (hk : k ≤ k') (hk' : k' ≤ migrations.length) (hout : stage.inTransaction = false)
    (hhistory : db.history.isSome = true → db'.history.isSome = true) :
    stage.Fits (· ≤ ·) initial migrations k' db' := by
  cases stage with
  | creating | raised _ | dead => trivial
  | selecting => exact hhistory hfits
  | beginning applied m rest =>
    obtain ⟨hsome, hunread, p, hp, hdrop⟩ := hfits
    exact ⟨hhistory hsome, hunread, p, hp.trans hk, hdrop⟩
  | inside applied m rest todo working => cases hout
  | returned =>
    obtain ⟨hsome, rfl⟩ := hfits
    exact ⟨hhistory hsome, Nat.le_antisymm hk' hk⟩

/-! ## What a run does that can go on -/

/-- The run has not failed, and an open transaction succeeds. -/
def Stage.Live : Stage σ → Prop
  | inside _ m _ todo working => Succeeds m todo working
  | raised _ | dead => False
  | creating | selecting | beginning .. | returned => True

theorem Stage.live_enter (applied : List (Nat × String)) (l : List (Migration σ)) :
    (Stage.enter applied l).Live := by
  induction l with
  | nil => trivial
  | cons m l ih =>
    unfold Stage.enter
    split_ifs
    · exact ih
    · trivial

/-- Where the migrations work, a step does not fail. -/
theorem live_proceed {R : Nat → Nat → Prop} (hworks : Works initial migrations)
    (hn : Numbered migrations) (hdb : IsResult initial migrations k db)
    (hfits : stage.Fits R initial migrations k db) (hlive : stage.Live)
    (hbegin : ∀ applied m rest, stage = .beginning applied m rest → migrations.drop k = m :: rest)
    (h : stage.proceed migrations free now db = some (db', stage')) : stage'.Live := by
  cases stage with
  | creating =>
    simp only [Stage.proceed] at h
    split_ifs at h
    cases h
    trivial
  | selecting =>
    have hfits : db.history.isSome = true := hfits
    obtain ⟨rows, hrows⟩ := Option.isSome_iff_exists.1 hfits
    simp only [Stage.proceed, hrows, hdb.applied hn, checkHistory_result hdb hn] at h
    cases h
    exact Stage.live_enter _ _
  | beginning applied m rest =>
    simp only [Stage.proceed] at h
    split_ifs at h
    cases h
    exact succeeds_transaction hworks hdb hfits.1 (hbegin applied m rest rfl) hn
  | inside applied m rest todo working =>
    cases todo with
    | nil =>
      cases h
      exact Stage.live_enter _ _
    | cons statement todo =>
      obtain ⟨working', hrun, hrest⟩ := hlive now
      simp only [Stage.proceed, hrun] at h
      cases h
      exact hrest
  | returned | raised _ | dead => cases h

/-- A run that has not failed can go on until it returns, if no other has a transaction open. -/
theorem proceed_isSome (hlive : stage.Live) (hreturned : stage ≠ .returned)
    (hfree : stage.inTransaction = false → free = true) :
    (stage.proceed migrations free now db).isSome = true := by
  cases stage with
  | creating => simp [Stage.proceed, hfree rfl]
  | selecting =>
    simp only [Stage.proceed]
    split
    · rfl
    · split <;> rfl
  | beginning applied m rest => simp [Stage.proceed, hfree rfl]
  | inside applied m rest todo working =>
    cases todo with
    | nil => rfl
    | cons statement todo =>
      obtain ⟨working', hrun, _⟩ := hlive now
      simp only [Stage.proceed, hrun, Option.isSome_some]
  | returned => exact absurd rfl hreturned
  | raised _ | dead => cases hlive

/-- The migration of which an unrecorded version is begun is the next one. -/
theorem drop_of_unrecorded (hn : Numbered migrations) (hdb : IsResult initial migrations k db)
    {applied : List (Nat × String)} {m : Migration σ} {rest : List (Migration σ)}
    (hfits : (Stage.beginning applied m rest).Fits (· ≤ ·) initial migrations k db)
    (hnew : m.version ∉ db.recorded.map Prod.fst) : migrations.drop k = m :: rest := by
  obtain ⟨_, _, p, hp, hdrop⟩ := hfits
  obtain rfl | hlt := hp.eq_or_lt
  · exact hdrop
  · -- the migration at `p` is among the first `k`
    refine absurd ?_ hnew
    have hm : m ∈ migrations.take k := by
      have hget : migrations[p]? = some m := by rw [← List.head?_drop, hdrop, List.head?_cons]
      exact List.mem_of_getElem? ((List.getElem?_take_of_lt hlt).trans hget)
    rw [hdb.versions hn, ← hn.take hdb.le]
    exact List.mem_map_of_mem hm

/-! ## Guarded runs -/

/-- The invariant. -/
structure Sound (initial : σ) (migrations : List (Migration σ)) (k : Nat) (s : Shared ι σ) :
    Prop where
  result : IsResult initial migrations k s.database
  fits : ∀ i, (s.stage i).Fits (· ≤ ·) initial migrations k s.database
  live : ∀ i, (s.stage i).Live
  alone : ∀ i j, (s.stage i).inTransaction = true → (s.stage j).inTransaction = true → i = j

variable {s s' t : Shared ι σ} {label : ι × String}

theorem sound_start (hdb : IsResult initial migrations k db) :
    Sound initial migrations k (Shared.start (ι := ι) db) where
  result := hdb
  fits _ := trivial
  live _ := trivial
  alone _ _ h := absurd h Bool.false_ne_true

theorem free_eq_false [Fintype ι] {i : ι} (h : (s.stage i).inTransaction = true) :
    s.free = false := by
  refine decide_eq_false fun hfree => ?_
  rw [hfree i] at h
  cases h

variable [Fintype ι] [DecidableEq ι]

theorem next_inv (h : s.next migrations label = some s') :
    ∃ db stage, (s.stage label.1).proceed migrations s.free label.2 s.database = some (db, stage) ∧
      s' = ⟨db, Function.update s.stage label.1 stage⟩ := by
  obtain ⟨⟨db, stage⟩, hproceed, rfl⟩ := Option.map_eq_some_iff.1 h
  exact ⟨db, stage, hproceed, rfl⟩

theorem sound_step (hworks : Works initial migrations) (hn : Numbered migrations)
    (hs : Sound initial migrations k s) (hnew : s.Unrecorded label)
    (h : s.next migrations label = some s') :
    ∃ k', k ≤ k' ∧ Sound initial migrations k' s' := by
  obtain ⟨db', stage', hproceed, rfl⟩ := next_inv h
  obtain ⟨i, now⟩ := label
  have hbegin : ∀ applied m rest, s.stage i = .beginning applied m rest →
      migrations.drop k = m :: rest := by
    intro applied m rest heq
    have hfits := hs.fits i
    rw [heq] at hfits
    exact drop_of_unrecorded hn hs.result hfits (hnew m (by rw [heq]; rfl))
  obtain ⟨k', hk, hdb', hfits'⟩ := fits_proceed (fun k => le_refl k) hn hs.result (hs.fits i)
    hbegin hproceed
  have hlive' := live_proceed hworks hn hs.result (hs.fits i) (hs.live i) hbegin hproceed
  have hother : ∀ j, j ≠ i → (s.stage j).Fits (· ≤ ·) initial migrations k' db' := by
    intro j hj
    cases hin : (s.stage j).inTransaction with
    | false =>
      exact (hs.fits j).mono hk hdb'.le hin fun hhistory =>
        proceed_history (hs.fits i) hhistory hproceed
    | true =>
      -- the other transaction is the only one, so this step leaves the database as it is
      have hout : (s.stage i).inTransaction = false :=
        Bool.eq_false_iff.2 fun hi => hj (hs.alone j i hin hi)
      have hhistory : s.database.history.isSome = true := by
        have hfits := hs.fits j
        revert hin hfits
        cases s.stage j with
        | inside applied m rest todo working => exact fun _ hfits => hfits.1
        | creating | selecting | beginning _ _ _ | returned | raised _ | dead =>
          simp [Stage.inTransaction]
      rw [free_eq_false hin] at hproceed
      obtain ⟨rfl, _⟩ := proceed_locked hhistory hout hproceed
      obtain rfl : k = k' := hs.result.userVersion.symm.trans hdb'.userVersion
      exact hs.fits j
  have hopens : stage'.inTransaction = true → ∀ j, j ≠ i → (s.stage j).inTransaction = false := by
    intro hin j hj
    cases hi : (s.stage i).inTransaction with
    | true => exact Bool.eq_false_iff.2 fun h => hj (hs.alone j i h hi)
    | false => exact of_decide_eq_true (free_of_begins hi hin hproceed) j
  refine ⟨k', hk, hdb', fun j => ?_, fun j => ?_, fun j₁ j₂ h₁ h₂ => ?_⟩
  · by_cases hj : j = i
    · subst hj
      simpa using hfits'
    · simpa [hj] using hother j hj
  · by_cases hj : j = i
    · subst hj
      simpa using hlive'
    · simpa [hj] using hs.live j
  · by_cases hj₁ : j₁ = i <;> by_cases hj₂ : j₂ = i
    · exact hj₁.trans hj₂.symm
    · subst hj₁
      simp only [Function.update_self, Function.update_of_ne hj₂] at h₁ h₂
      exact absurd h₂ (Bool.eq_false_iff.1 (hopens h₁ j₂ hj₂))
    · subst hj₂
      simp only [Function.update_self, Function.update_of_ne hj₁] at h₁ h₂
      exact absurd h₁ (Bool.eq_false_iff.1 (hopens h₂ j₁ hj₁))
    · simp only [Function.update_of_ne hj₁, Function.update_of_ne hj₂] at h₁ h₂
      exact hs.alone j₁ j₂ h₁ h₂

theorem sound_run (hworks : Works initial migrations) (hn : Numbered migrations)
    (hs : Sound initial migrations k s) {labels : List (ι × String)}
    (h : ((together migrations).guard Shared.Unrecorded).Run s labels t) :
    ∃ k', k ≤ k' ∧ Sound initial migrations k' t := by
  refine h.keeps (I := fun s => ∃ k', k ≤ k' ∧ Sound initial migrations k' s) ?_ ⟨k, le_rfl, hs⟩
  intro s label s' hs hstep
  obtain ⟨k₁, hk₁, hs⟩ := hs
  obtain ⟨k₂, hk₂, hs'⟩ := sound_step hworks hn hs hstep.1 hstep.2
  exact ⟨k₂, hk₁.trans hk₂, hs'⟩

/-- Where no run can go on, all have returned. -/
theorem Sound.returned (hs : Sound initial migrations k s) (hended : s.Ended migrations) (i : ι) :
    s.stage i = .returned := by
  have hproceeds : ∀ j, s.stage j ≠ .returned →
      ((s.stage j).inTransaction = false → s.free = true) → False := by
    intro j hj hfree
    have hsome : ((s.stage j).proceed migrations s.free "" s.database).isSome = true :=
      proceed_isSome (hs.live j) hj hfree
    obtain ⟨result, hresult⟩ := Option.isSome_iff_exists.1 hsome
    have hnone := hended (j, "")
    rw [Shared.next, hresult] at hnone
    cases hnone
  by_contra hi
  cases hfree : s.free with
  | true => exact hproceeds i hi fun _ => hfree
  | false =>
    -- then the run with an open transaction can go on
    obtain ⟨j, hj⟩ := not_forall.1 (of_decide_eq_false hfree)
    have hin := (Bool.eq_false_or_eq_true _).resolve_right hj
    refine hproceeds j (fun heq => ?_) fun hout => absurd hin (Bool.eq_false_iff.1 hout)
    rw [heq] at hin
    cases hin

/-! ## Runs come to an end -/

/-- The statements that the transactions of some migrations take, with begin and commit. -/
def cost : List (Migration σ) → Nat
  | [] => 0
  | m :: rest => m.transaction.length + 2 + cost rest

/-- A bound for the statements that a run still takes. -/
def Stage.weight (migrations : List (Migration σ)) : Stage σ → Nat
  | creating => cost migrations + 2
  | selecting => cost migrations + 1
  | beginning _ m rest => cost (m :: rest)
  | inside _ _ rest todo _ => todo.length + cost rest + 1
  | returned | raised _ | dead => 0

def Shared.weight (migrations : List (Migration σ)) (s : Shared ι σ) : Nat :=
  ∑ i, (s.stage i).weight migrations

theorem weight_enter (applied : List (Nat × String)) (l : List (Migration σ)) :
    (Stage.enter applied l).weight migrations ≤ cost l := by
  induction l with
  | nil => exact Nat.zero_le _
  | cons m l ih =>
    unfold Stage.enter
    split_ifs
    · rw [cost]
      omega
    · exact le_rfl

theorem weight_proceed (h : stage.proceed migrations free now db = some (db', stage')) :
    stage'.weight migrations < stage.weight migrations := by
  cases stage with
  | creating =>
    simp only [Stage.proceed] at h
    split_ifs at h
    cases h
    exact Nat.lt_succ_self _
  | selecting =>
    simp only [Stage.proceed] at h
    split at h
    · cases h
      exact Nat.succ_pos _
    · split at h <;> cases h
      · exact Nat.lt_succ_of_le (weight_enter _ _)
      · exact Nat.succ_pos _
  | beginning applied m rest =>
    simp only [Stage.proceed] at h
    split_ifs at h
    cases h
    simp only [Stage.weight, cost]
    omega
  | inside applied m rest todo working =>
    cases todo with
    | nil =>
      cases h
      show (Stage.enter applied rest).weight migrations < 0 + cost rest + 1
      have hle : (Stage.enter applied rest).weight migrations ≤ cost rest := weight_enter _ _
      omega
    | cons statement todo =>
      simp only [Stage.proceed] at h
      split at h <;> cases h <;> simp only [Stage.weight, List.length_cons] <;> omega
  | returned | raised _ | dead => cases h

theorem weight_next (h : s.next migrations label = some s') :
    s'.weight migrations < s.weight migrations := by
  obtain ⟨db', stage', hproceed, rfl⟩ := next_inv h
  have hlt := weight_proceed hproceed
  refine Finset.sum_lt_sum (fun i _ => ?_) ⟨label.1, Finset.mem_univ _, ?_⟩
  · by_cases hi : i = label.1
    · subst hi
      simpa using hlt.le
    · simp [hi]
  · simpa using hlt

/-! ## Versions that are recorded twice -/

/-- In its transaction, the run will record a version that is recorded; or it has done so. -/
inductive Stage.Doomed : Stage σ → Prop
  | inside {applied : List (Nat × String)} {m : Migration σ} {rest : List (Migration σ)}
      {todo : List (Statement σ)} {working : Database σ} (htodo : .record ∈ todo)
      (hrecorded : m.version ∈ working.recorded.map Prod.fst) :
      Doomed (.inside applied m rest todo working)
  | raised (failure : Failure) : Doomed (.raised failure)

/-- A version is not recorded twice, and the other statements leave the history. -/
theorem run_recorded {m : Migration σ} {statement : Statement σ} {working working' : Database σ}
    (hrecorded : m.version ∈ working.recorded.map Prod.fst)
    (h : statement.run m now working = some working') :
    statement ≠ .record ∧ m.version ∈ working'.recorded.map Prod.fst := by
  cases statement with
  | ddl f =>
    obtain ⟨schema, _, rfl⟩ := Option.map_eq_some_iff.1 h
    exact ⟨nofun, hrecorded⟩
  | setUserVersion =>
    cases h
    exact ⟨nofun, hrecorded⟩
  | record =>
    simp only [Statement.run] at h
    split at h
    · cases h
    · rename_i rows hrows
      split_ifs at h with hany
      refine absurd ?_ hany
      rw [Database.recorded, hrows, Option.getD_some, List.map_map] at hrecorded
      obtain ⟨row, hrow, hversion⟩ := List.mem_map.1 hrecorded
      refine List.any_eq_true.2 ⟨row, hrow, ?_⟩
      rw [Bool.or_eq_true, decide_eq_true_eq, decide_eq_true_eq]
      exact .inl hversion

theorem doomed_proceed (hdoomed : stage.Doomed)
    (h : stage.proceed migrations free now db = some (db', stage')) : stage'.Doomed := by
  cases hdoomed with
  | raised failure => cases h
  | @inside applied m rest todo working htodo hrecorded =>
    cases todo with
    | nil => cases htodo
    | cons statement todo =>
      simp only [Stage.proceed] at h
      split at h
      · rename_i working' hrun
        cases h
        obtain ⟨hother, hrecorded'⟩ := run_recorded hrecorded hrun
        exact .inside ((List.mem_cons.1 htodo).resolve_left (Ne.symm hother)) hrecorded'
      · cases h
        exact .raised _

theorem doomed_next {i : ι} (hdoomed : (s.stage i).Doomed)
    (h : s.next migrations label = some s') : (s'.stage i).Doomed := by
  obtain ⟨db', stage', hproceed, rfl⟩ := next_inv h
  by_cases hi : i = label.1
  · subst hi
    simpa using doomed_proceed hdoomed hproceed
  · simpa [hi] using hdoomed

theorem begins_eq_some {m : Migration σ} (h : stage.begins = some m) :
    ∃ applied rest, stage = .beginning applied m rest := by
  cases stage with
  | beginning applied m' rest =>
    cases h
    exact ⟨applied, rest, rfl⟩
  | creating | selecting | inside _ _ _ _ _ | returned | raised _ | dead => cases h

/-- A run that begins the transaction of a recorded version does not return. -/
theorem not_returned (hrecorded : ¬ s.Unrecorded label) (h : s.next migrations label = some s')
    {labels : List (ι × String)} (hrun : (together migrations).Run s' labels t) :
    t.stage label.1 ≠ .returned := by
  have hdoomed : (s'.stage label.1).Doomed := by
    obtain ⟨db', stage', hproceed, rfl⟩ := next_inv h
    unfold Shared.Unrecorded at hrecorded
    push Not at hrecorded
    obtain ⟨m, hbegins, hmem⟩ := hrecorded
    obtain ⟨applied, rest, hstage⟩ := begins_eq_some hbegins
    rw [hstage] at hproceed
    simp only [Stage.proceed] at hproceed
    split_ifs at hproceed
    cases hproceed
    simp only [Function.update_self]
    exact .inside (by simp [Migration.transaction]) hmem
  have hend := hrun.keeps (I := fun s => (s.stage label.1).Doomed)
    (fun _ _ _ hs hstep => doomed_next hs hstep) hdoomed
  intro hreturned
  rw [hreturned] at hend
  cases hend

end

/-! ## The main result -/

/-- Every run of the system is bounded. Where no run of `apply_migrations` can go on, all have
returned and the database is upgraded exactly if no transaction was begun for a version that was
recorded by then; and in runs of that kind, no run of `apply_migrations` ever fails. -/
theorem runs_upgrade [Fintype ι] [DecidableEq ι] [Nonempty ι] (initial : σ)
    (migrations : List (Migration σ)) (hn : Numbered migrations) (hworks : Works initial migrations)
    (k : Nat) (db : Database σ) (hdb : IsResult initial migrations k db)
    (labels : List (ι × String)) (s : Shared ι σ)
    (hrun : (together migrations).Run (.start db) labels s) :
    labels.length ≤ (Shared.start (ι := ι) db).weight migrations ∧
    (s.Ended migrations → (s.Upgraded initial migrations ↔
      ((together migrations).guard Shared.Unrecorded).Run (.start db) labels s)) ∧
    (((together migrations).guard Shared.Unrecorded).Run (.start db) labels s →
      ∀ i failure, s.stage i ≠ .raised failure) := by
  have hsound : ((together migrations).guard Shared.Unrecorded).Run (.start db) labels s →
      ∃ k', k ≤ k' ∧ Sound initial migrations k' s :=
    sound_run hworks hn (sound_start hdb)
  refine ⟨?_, fun hended => ⟨fun hupgraded => ?_, fun hguarded => ?_⟩, fun hguarded i failure => ?_⟩
  · have hle := hrun.length_le (μ := Shared.weight migrations) fun _ _ _ => weight_next
    omega
  · rcases hrun.guard_or_exists with hguarded | ⟨_, u, label, v, _, _, hrecorded, hstep, hrest⟩
    · exact hguarded
    · exact absurd (hupgraded.returned label.1) (not_returned hrecorded hstep hrest)
  · obtain ⟨k', _, hs⟩ := hsound hguarded
    have hreturned := hs.returned hended
    obtain ⟨i⟩ := ‹Nonempty ι›
    have hfits := hs.fits i
    rw [hreturned i] at hfits
    obtain ⟨_, rfl⟩ := hfits
    exact ⟨hreturned, hs.result⟩
  · obtain ⟨k', _, hs⟩ := hsound hguarded
    intro hraised
    have hlive := hs.live i
    rw [hraised] at hlive
    exact hlive

namespace Sample

open Schema

/-- The statements that two runs take in turn on an empty database. -/
def turns (l : List (Bool × Nat)) : List (Bool × String) :=
  l.flatMap fun turn => List.replicate turn.2 (turn.1, "now")

def afterTurns (l : List (Bool × Nat)) : Shared Bool Schema :=
  System.execD (Shared.next migrations) (.start (.empty [])) (turns l)

/-- One run after the other. -/
def serial : List (Bool × Nat) := [(false, 32), (true, 2)]

/-- Both runs read the empty history, and then both begin the first version. -/
def race : List (Bool × Nat) := [(false, 2), (true, 2), (false, 30), (true, 2)]

end Sample

open Schema Migrations.Sample in
theorem runs_upgrade_sample : (afterTurns serial).Upgraded [] migrations := by
  have hguarded : ((together migrations).guard Shared.Unrecorded).Run
      (.start (.empty [])) (turns serial) (afterTurns serial) := by
    rw [together, System.ofNext_guard]
    exact System.run_of_exec rfl
  have hended : (afterTurns serial).Ended migrations := by
    intro label
    obtain ⟨i, now⟩ := label
    revert i
    exact Bool.forall_bool.2 ⟨rfl, rfl⟩
  exact ((runs_upgrade [] migrations numbered works 0 (.empty []) (isResult_empty _ _) _ _
    hguarded.of_guard).2.1 hended).2 hguarded

open Schema Migrations.Sample in
/-- The run that comes second at the first version fails. -/
theorem version_begun_twice : ¬ ∀ (labels : List (Bool × String)) (s : Shared Bool Schema),
    (together migrations).Run (.start (.empty [])) labels s → s.Ended migrations →
      s.Upgraded [] migrations := by
  intro h
  have hrun : (together migrations).Run (.start (.empty [])) (turns race) (afterTurns race) :=
    System.run_of_exec rfl
  have hended : (afterTurns race).Ended migrations := by
    intro label
    obtain ⟨i, now⟩ := label
    revert i
    exact Bool.forall_bool.2 ⟨rfl, rfl⟩
  have hreturned := (h _ _ hrun hended).returned true
  have hraised : (afterTurns race).stage true =
      .raised (.migration "failed to apply database migration 1 (task-and-event-store)") := rfl
  rw [hraised] at hreturned
  cases hreturned

end AIHub.Migrations
