import AIHub.Lib.Table
import Mathlib.Data.List.Pairwise

/-!
# The first rows under two orders

A list may be sorted by two keys. The first `n` elements are the same, in the same order, exactly if
the two keys agree on those of them that come first under the second one: `take_sortedBy_eq_iff`.

When the first `n` elements are taken away, there are `n` less up to any key, or none are left:
`length_filter_drop_le`.
-/

namespace List

variable {α κ κ' : Type*} [LinearOrder κ] [LinearOrder κ'] {key : α → κ} {key' : α → κ'}

/-- Sorted by a key. -/
def sortedBy (key : α → κ) (l : List α) : List α := l.insertionSort fun a b => key a ≤ key b

theorem sortedBy_perm (key : α → κ) (l : List α) : (l.sortedBy key).Perm l :=
  perm_insertionSort _ _

theorem sortedBy_pairwise {l : List α} (h : (l.map key).Nodup) :
    (l.sortedBy key).Pairwise fun a b => key a < key b := by
  have hle : (l.sortedBy key).Pairwise fun a b => key a ≤ key b :=
    pairwise_insertionSort (fun a b => key a ≤ key b) l
  have hne : (l.sortedBy key).Pairwise fun a b => key a ≠ key b :=
    pairwise_map.1 (((l.sortedBy_perm key).map key).nodup_iff.2 h)
  exact (hle.and hne).imp fun h => lt_of_le_of_ne h.1 h.2

/-- The list that is sorted by a key is the only one. -/
theorem eq_sortedBy {l m : List α} (hperm : m.Perm l)
    (hm : m.Pairwise fun a b => key a < key b) : m = l.sortedBy key := by
  have hnodup : (m.map key).Nodup := pairwise_map.2 (hm.imp fun h => h.ne)
  exact Perm.eq_of_pairwise (fun _ _ _ _ hab hba => absurd hba hab.asymm) hm
    (sortedBy_pairwise ((hperm.map key).nodup_iff.1 hnodup))
    (hperm.trans (l.sortedBy_perm key).symm)

/-- Two elements of a list that is sorted by both keys. -/
theorem keys_agree {l : List α} (h : l.Pairwise fun a b => key a < key b)
    (h' : l.Pairwise fun a b => key' a < key' b) {a b : α} (ha : a ∈ l) (hb : b ∈ l)
    (hlt : key' a < key' b) : key a < key b := by
  have hboth : l.Pairwise fun a b => key a < key b ∧ key' a < key' b ∨
      key b < key a ∧ key' b < key' a := (h.and h').imp fun h => .inl h
  have hne : a ≠ b := fun heq => hlt.ne (congrArg key' heq)
  have : Std.Symm fun a b : α => key a < key b ∧ key' a < key' b ∨
      key b < key a ∧ key' b < key' a := ⟨fun _ _ => Or.symm⟩
  have hagree := hboth.forall ha hb hne
  exact (hagree.resolve_right fun h => hlt.asymm h.2).1

/-- Without the first `n`, there are `n` elements less up to any key. -/
theorem length_filter_drop_le {l : List α} (h : l.Pairwise fun a b => key a < key b) (k : κ)
    (n : Nat) : ((l.drop n).filter fun a => key a ≤ k).length ≤
      (l.filter fun a => key a ≤ k).length - n := by
  induction l generalizing n with
  | nil => simp
  | cons a l ih =>
    obtain ⟨hfirst, hl⟩ := pairwise_cons.1 h
    cases n with
    | zero => simp
    | succ n =>
      have hrest := ih hl n
      rw [drop_succ_cons, filter_cons]
      split_ifs with ha
      · rw [length_cons, Nat.add_sub_add_right]
        exact hrest
      · -- the other keys are even larger
        have hnone : l.filter (fun b => key b ≤ k) = [] := by
          refine filter_eq_nil_iff.2 fun b hb hle => ha ?_
          exact decide_eq_true ((hfirst b hb).le.trans (of_decide_eq_true hle))
        rw [hnone] at hrest ⊢
        simpa using hrest

theorem take_sortedBy_eq_iff {l : List α} (h : (l.map key).Nodup) (h' : (l.map key').Nodup)
    (n : Nat) : (l.sortedBy key).take n = (l.sortedBy key').take n ↔
      ∀ a ∈ l, (l.filter fun b => key' b < key' a).length < n →
        ∀ b ∈ l, key' a < key' b → key a < key b := by
  have hpair := sortedBy_pairwise h
  have hpair' := sortedBy_pairwise h'
  constructor
  · intro heq a ha hfew b hb hlt
    have hfirst : a ∈ (l.sortedBy key').take n := by
      rw [Table.mem_take_of_pairwise hpair', (l.sortedBy_perm key').mem_iff,
        ((l.sortedBy_perm key').filter _).length_eq]
      exact ⟨ha, hfew⟩
    have hb := (l.sortedBy_perm key).mem_iff.2 hb
    rw [← take_append_drop n (l.sortedBy key), mem_append] at hb
    rcases hb with hb | hb
    · -- both are among the first elements
      have hsorted := hpair'.sublist (take_sublist n _)
      rw [← heq] at hsorted hfirst
      exact keys_agree (hpair.sublist (take_sublist n _)) hsorted hfirst hb hlt
    · have hsplit := hpair
      rw [← take_append_drop n (l.sortedBy key), pairwise_append] at hsplit
      exact hsplit.2.2 a (heq ▸ hfirst) b hb
  · intro hagree
    -- sort the remaining elements by the first key
    have hsplit := hpair'
    rw [← take_append_drop n (l.sortedBy key'), pairwise_append] at hsplit
    obtain ⟨hfirst, _, hrest⟩ := hsplit
    have hbefore : ∀ a ∈ (l.sortedBy key').take n, ∀ b ∈ l, key' a < key' b → key a < key b := by
      intro a ha
      rw [Table.mem_take_of_pairwise hpair', (l.sortedBy_perm key').mem_iff,
        ((l.sortedBy_perm key').filter _).length_eq] at ha
      exact hagree a ha.1 ha.2
    have hmem : ∀ b ∈ (l.sortedBy key').drop n, b ∈ l := fun b hb =>
      (l.sortedBy_perm key').mem_iff.1 (mem_of_mem_drop hb)
    have hperm : ((l.sortedBy key').take n ++ ((l.sortedBy key').drop n).sortedBy key).Perm l := by
      refine (Perm.append_left _ (sortedBy_perm key _)).trans ?_
      rw [take_append_drop]
      exact l.sortedBy_perm key'
    have hdropped : (((l.sortedBy key').drop n).map key).Nodup :=
      ((((l.sortedBy_perm key').map key).nodup_iff).2 h).sublist ((drop_sublist n _).map key)
    have hsorted := eq_sortedBy hperm (pairwise_append.2 ⟨?_, sortedBy_pairwise hdropped, ?_⟩)
    · rw [← hsorted]
      by_cases hn : n ≤ (l.sortedBy key').length
      · rw [take_append_of_le_length (by rw [length_take, Nat.min_eq_left hn]), take_take,
          Nat.min_self]
      · have hlong := (Nat.lt_of_not_le hn).le
        rw [drop_eq_nil_of_le hlong, take_of_length_le hlong]
        exact (append_nil _).symm ▸ take_of_length_le hlong
    · exact hfirst.imp_of_mem fun ha hb hlt => hbefore _ ha _
        ((l.sortedBy_perm key').mem_iff.1 (mem_of_mem_take hb)) hlt
    · intro a ha b hb
      have hb := (sortedBy_perm key _).mem_iff.1 hb
      exact hbefore a ha b (hmem b hb) (hrest a ha b hb)

end List
