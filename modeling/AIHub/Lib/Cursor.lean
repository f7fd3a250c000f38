import Mathlib.Data.List.Basic

/-!
# Reading a growing log through a cursor

A log whose entries carry ascending positive numbers is read page by page. A reader remembers only
the number of the last entry it received (`position`), and asks for some entries above it.

* `filter_position`: the entries above the position of a prefix are those after the prefix.
* `page_prefix`: a reader that has a prefix of the log still has one after the next page.
-/

namespace Cursor

universe u

variable {α : Type u} {number : α → Nat} {log received : List α}

/-- The number of the last entry, and 0 before the first. -/
def position (number : α → Nat) (received : List α) : Nat :=
  (received.getLast?.map number).getD 0

/-- The numbers are positive and ascend. -/
structure Ascending (number : α → Nat) (log : List α) : Prop where
  positive : ∀ a ∈ log, 0 < number a
  ordered : log.Pairwise fun a b => number a < number b

theorem Ascending.filter (h : Ascending number log) (p : α → Bool) :
    Ascending number (log.filter p) where
  positive a ha := h.positive a (List.mem_filter.1 ha).1
  ordered := h.ordered.filter p

/-- Nothing in an ascending list is above its position. -/
theorem le_position (h : Ascending number received) : ∀ a ∈ received,
    number a ≤ position number received := by
  intro a ha
  rcases List.eq_nil_or_concat received with rfl | ⟨init, last, rfl⟩
  · cases ha
  · have hposition : position number (init ++ [last]) = number last := by simp [position]
    rw [List.concat_eq_append] at ha h ⊢
    rw [hposition]
    rcases List.mem_append.1 ha with ha | ha
    · exact Nat.le_of_lt ((List.pairwise_append.1 h.ordered).2.2 a ha last (by simp))
    · exact Nat.le_of_eq (congrArg number (List.mem_singleton.1 ha))

/-- Whatever comes after a prefix is above its position. -/
theorem position_lt {rest : List α} (h : Ascending number (received ++ rest)) : ∀ a ∈ rest,
    position number received < number a := by
  intro a ha
  rcases List.eq_nil_or_concat received with rfl | ⟨init, last, rfl⟩
  · exact h.positive a (by simpa using ha)
  · have hposition : position number (init ++ [last]) = number last := by simp [position]
    rw [List.concat_eq_append] at h ⊢
    rw [hposition]
    exact (List.pairwise_append.1 h.ordered).2.2 last (by simp) a ha

/-- The entries above the position of a prefix are those after the prefix. -/
theorem filter_position {rest : List α} (h : Ascending number (received ++ rest)) :
    ((received ++ rest).filter fun a => position number received < number a) = rest := by
  have hreceived : Ascending number received :=
    ⟨fun a ha => h.positive a (by simp [ha]), (List.pairwise_append.1 h.ordered).1⟩
  have hfirst : (received.filter fun a => position number received < number a) = [] := by
    refine List.filter_eq_nil_iff.2 fun a ha => ?_
    have hle := le_position hreceived a ha
    simpa using hle
  have hsecond : (rest.filter fun a => position number received < number a) = rest := by
    refine List.filter_eq_self.2 fun a ha => ?_
    simpa using position_lt h a ha
  rw [List.filter_append, hfirst, hsecond, List.nil_append]

/-- A reader that has a prefix of the log still has one after the next page. -/
theorem page_prefix (h : Ascending number log) (hread : received <+: log) (limit : Nat) :
    received ++ (log.filter fun a => position number received < number a).take limit <+: log := by
  obtain ⟨rest, rfl⟩ := hread
  rw [filter_position h]
  exact List.prefix_append_right_inj received |>.2 (List.take_prefix limit rest)

end Cursor
