import AIHub.Lib.Transition

/-!
# Reservations

Parties that must not do a thing twice share a *cell*. It is free at first; a party that finds it
free reserves it, and holds the reservation until it has done the thing and settled the cell, or
gives up and frees it. A party may also lose its reservation without touching the cell, keep it
over the settling, and a reserved cell may have no holder.

* `reachable_sound`: at most one party holds the reservation, and the cell is not free while one
  does (`Sound.unique`, `Sound.not_free`).
-/

namespace Reservation

open Transition

universe u v

inductive Cell (α : Type u) where
  | free | reserved
  | settled (value : α)
  deriving DecidableEq

/-- A cell whose value is seen through `f`. -/
def Cell.map {α : Type u} {β : Type v} (f : α → β) : Cell α → Cell β
  | free => free
  | reserved => reserved
  | settled value => settled (f value)

/-- What a party does to the cell (`c` before, `d` after), where `p` says that it holds the
reservation before and `q` that it holds it afterwards. -/
inductive Move {α : Type u} : (c : Cell α) → (p : Prop) → (d : Cell α) → (q : Prop) → Prop
  | stay {c : Cell α} {p q : Prop} (h : q → p) : Move c p c q
  | take {p q : Prop} : Move .free p .reserved q
  | settle {p q : Prop} (value : α) (h : p) : Move .reserved p (.settled value) q
  | drop {p q : Prop} (h : p) (h' : ¬ q) : Move .reserved p .free q

/-- The cell, and who holds the reservation. -/
structure State (ι : Type v) (α : Type u) where
  cell : Cell α
  holds : ι → Prop

/-- The parties move one at a time; a step of nobody changes nothing. -/
def system (ι : Type v) (α : Type u) : System (State ι α) (Option ι) where
  init s := ∀ i, ¬ s.holds i
  step s a t :=
    match a with
    | none => t = s
    | some i => Move s.cell (s.holds i) t.cell (t.holds i) ∧ ∀ j, j ≠ i → (t.holds j ↔ s.holds j)

variable {ι : Type v} {α : Type u} {s t : State ι α} {a : Option ι} {value : α}

/-- At most one party holds the reservation, and the cell is not free while one does. -/
structure Sound (s : State ι α) : Prop where
  not_free : ∀ i, s.holds i → s.cell ≠ .free
  unique : ∀ i j, s.holds i → s.holds j → i = j

/-- Nobody but a party that takes the cell or keeps what it has holds the reservation after its
move. -/
theorem Sound.step (h : Sound s) (hstep : (system ι α).step s a t) : Sound t := by
  cases a with
  | none =>
    cases hstep
    exact h
  | some i =>
    obtain ⟨hmove, hothers⟩ := hstep
    obtain ⟨cell, holds⟩ := t
    -- Whoever holds afterwards held before, unless it is the party that moves.
    have hkept : (holds i → s.holds i) → ∀ j, holds j → s.holds j := by
      intro hself j hj
      by_cases hji : j = i
      · subst hji
        exact hself hj
      · exact (hothers j hji).1 hj
    have hunique : (holds i → s.holds i) → ∀ j k, holds j → holds k → j = k :=
      fun hself j k hj hk => h.unique j k (hkept hself j hj) (hkept hself k hk)
    generalize hs : s.cell = c at hmove
    cases hmove with
    | stay hself =>
      exact ⟨fun j hj => hs ▸ h.not_free j (hkept hself j hj), hunique hself⟩
    | take =>
      have honly : ∀ j, holds j → j = i := by
        intro j hj
        by_contra hji
        exact h.not_free j ((hothers j hji).1 hj) hs
      exact ⟨fun _ _ => by simp, fun j k hj hk => (honly j hj).trans (honly k hk).symm⟩
    | settle value hold => exact ⟨fun _ _ => by simp, hunique fun _ => hold⟩
    | drop hold hlost =>
      have hnobody : ∀ j, ¬ holds j := by
        intro j hj
        have hji : j = i := h.unique j i (hkept (fun _ => hold) j hj) hold
        exact hlost (hji ▸ hj)
      exact ⟨fun j hj => absurd hj (hnobody j), fun j _ hj => absurd hj (hnobody j)⟩

theorem reachable_sound (h : (system ι α).Reachable s) : Sound s := by
  have hI : (system ι α).Invariant Sound := {
    init := fun _ hs => ⟨fun i hi => absurd hi (hs i), fun i _ hi => absurd hi (hs i)⟩
    step := fun _ _ _ hs hstep => hs.step hstep }
  exact hI.reachable h

end Reservation
