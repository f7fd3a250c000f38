import Mathlib.Data.List.Sort

/-!
# Tables with a primary key

A table is a list of rows, in insertion order, together with the proof that no two rows share
their key. The operations are those of an SQL table: look a row up by its key (`get?`), insert
one whose key is free (`insert`), rewrite the rows that match a filter without touching their
keys (`update`), and drop the rows that match one (`delete`). Each operation returns a table,
so uniqueness of the key never has to be proved again; what the later proofs use is how `get?`
sees each operation. `ordered` lists the rows by their keys; which rows are the first `n` of them
is `mem_take_ordered`.
-/

universe u v

/-- Rows with pairwise distinct keys. -/
structure Table {ρ : Type u} {κ : Type v} (key : ρ → κ) where
  rows : List ρ
  unique : (rows.map key).Nodup

namespace Table

variable {ρ : Type u} {κ : Type v} {key : ρ → κ}

@[ext] theorem ext {T U : Table key} (h : T.rows = U.rows) : T = U := by
  cases T; cases U; cases h; rfl

instance [DecidableEq ρ] : DecidableEq (Table key) := fun T U =>
  decidable_of_iff (T.rows = U.rows) ⟨Table.ext, fun h => h ▸ rfl⟩

instance : Membership ρ (Table key) := ⟨fun T r => r ∈ T.rows⟩

instance [DecidableEq ρ] (r : ρ) (T : Table key) : Decidable (r ∈ T) :=
  inferInstanceAs (Decidable (r ∈ T.rows))

theorem mem_def {T : Table key} {r : ρ} : r ∈ T ↔ r ∈ T.rows := Iff.rfl

theorem eq_of_key_eq {T : Table key} {r r' : ρ} (h : r ∈ T) (h' : r' ∈ T)
    (hk : key r = key r') : r = r' :=
  List.inj_on_of_nodup_map T.unique h h' hk

/-- No rows. -/
def empty (key : ρ → κ) : Table key := ⟨[], List.nodup_nil⟩

@[simp] theorem not_mem_empty (r : ρ) : r ∉ empty key := List.not_mem_nil

/-- Rewrite the rows that match `p`. -/
def update (T : Table key) (p : ρ → Bool) (f : ρ → ρ) (hf : ∀ r, key (f r) = key r) :
    Table key where
  rows := T.rows.map fun r => if p r then f r else r
  unique := by
    have hkey : key ∘ (fun r => if p r then f r else r) = key := by
      funext r
      by_cases hp : p r <;> simp [hp, hf]
    rw [List.map_map, hkey]
    exact T.unique

/-- Drop the rows that match `p`. -/
def delete (T : Table key) (p : ρ → Bool) : Table key where
  rows := T.rows.filter fun r => !p r
  unique := T.unique.sublist (List.filter_sublist.map key)

theorem update_congr {T : Table key} {p q : ρ → Bool} {f : ρ → ρ} {g : ∀ r, key (f r) = key r}
    (h : ∀ r ∈ T, p r = q r) : T.update p f g = T.update q f g :=
  ext (List.map_congr_left fun r hr => by rw [h r hr])

theorem update_eq_self {T : Table key} {p : ρ → Bool} {f : ρ → ρ} {g : ∀ r, key (f r) = key r}
    (h : ∀ r ∈ T, p r = false) : T.update p f g = T :=
  ext ((List.map_congr_left fun r hr => by simp [h r hr]).trans (List.map_id' _))

theorem mem_update {T : Table key} {p : ρ → Bool} {f : ρ → ρ} {g : ∀ r, key (f r) = key r}
    {x : ρ} : x ∈ T.update p f g ↔ ∃ r ∈ T, (if p r then f r else r) = x := by
  simp [mem_def, update]

theorem map_key_update (T : Table key) (p : ρ → Bool) (f : ρ → ρ) (hf : ∀ r, key (f r) = key r) :
    (T.update p f hf).rows.map key = T.rows.map key := by
  simp only [update, List.map_map]
  refine List.map_congr_left fun r _ => ?_
  by_cases hp : p r <;> simp [hp, hf]

theorem mem_delete {T : Table key} {p : ρ → Bool} {x : ρ} :
    x ∈ T.delete p ↔ x ∈ T ∧ p x = false := by
  simp [mem_def, delete]

section

variable [LinearOrder κ]

/-- The rows in the order of their keys. -/
def ordered (T : Table key) : List ρ := T.rows.insertionSort fun r r' => key r ≤ key r'

theorem ordered_perm (T : Table key) : T.ordered.Perm T.rows := List.perm_insertionSort _ _

theorem mem_ordered {T : Table key} {r : ρ} : r ∈ T.ordered ↔ r ∈ T := T.ordered_perm.mem_iff

theorem ordered_pairwise (T : Table key) : T.ordered.Pairwise fun r r' => key r < key r' := by
  have hle : T.ordered.Pairwise fun r r' => key r ≤ key r' :=
    List.pairwise_insertionSort (fun r r' => key r ≤ key r') T.rows
  have hne : T.ordered.Pairwise fun r r' => key r ≠ key r' :=
    List.pairwise_map.1 ((T.ordered_perm.map key).nodup_iff.2 T.unique)
  exact (hle.and hne).imp fun h => lt_of_le_of_ne h.1 h.2

/-- In a list with increasing keys, a row is among the first `n` if fewer than `n` rows have a
smaller key. -/
theorem mem_take_of_pairwise {l : List ρ} (h : l.Pairwise fun r r' => key r < key r') {r : ρ}
    {n : Nat} :
    r ∈ l.take n ↔ r ∈ l ∧ (l.filter fun r' => key r' < key r).length < n := by
  induction l generalizing n with
  | nil => simp
  | cons a l ih =>
    obtain ⟨ha, hl⟩ := List.pairwise_cons.1 h
    cases n with
    | zero => simp
    | succ n =>
      rw [List.take_succ_cons, List.mem_cons, List.mem_cons, ih hl]
      by_cases hr : r = a
      · subst hr
        have hnone : (l.filter fun r' => key r' < key r) = [] :=
          List.filter_eq_nil_iff.2 fun r' hr' => by simpa using (ha r' hr').le
        simp [hnone]
      · constructor
        · rintro (heq | ⟨hmem, hlt⟩)
          · exact absurd heq hr
          · refine ⟨.inr hmem, ?_⟩
            simpa [List.filter_cons, ha r hmem] using hlt
        · rintro ⟨heq | hmem, hlt⟩
          · exact absurd heq hr
          · refine .inr ⟨hmem, ?_⟩
            simpa [List.filter_cons, ha r hmem] using hlt

/-- Among the first `n` rows are those before which fewer than `n` rows stand. -/
theorem mem_take_ordered {T : Table key} {r : ρ} {n : Nat} :
    r ∈ T.ordered.take n ↔ r ∈ T ∧ (T.rows.filter fun r' => key r' < key r).length < n := by
  rw [mem_take_of_pairwise T.ordered_pairwise, mem_ordered, (T.ordered_perm.filter _).length_eq]

end

variable [DecidableEq κ]

/-- The row with key `k`. -/
def get? (T : Table key) (k : κ) : Option ρ := T.rows.find? fun r => key r = k

/-- Add a row whose key is free, after the others. -/
def insert (T : Table key) (r : ρ) (h : T.get? (key r) = none) : Table key where
  rows := T.rows ++ [r]
  unique := by
    rw [List.map_append, List.nodup_append]
    refine ⟨T.unique, List.nodup_singleton _, ?_⟩
    intro k hk l hl
    obtain ⟨x, hx, rfl⟩ := List.mem_map.1 hk
    rw [List.map_singleton, List.mem_singleton] at hl
    subst hl
    simpa using List.find?_eq_none.1 h x hx

/-! ## Lookup -/

theorem get?_eq_some {T : Table key} {k : κ} {r : ρ} : T.get? k = some r ↔ r ∈ T ∧ key r = k := by
  constructor
  · intro h
    exact ⟨List.mem_of_find?_eq_some h, by simpa using List.find?_some h⟩
  · rintro ⟨hr, rfl⟩
    have hne : T.get? (key r) ≠ none := fun hn => by
      simpa using List.find?_eq_none.1 hn r hr
    obtain ⟨r', h'⟩ := Option.ne_none_iff_exists'.1 hne
    have hk : key r' = key r := by simpa using List.find?_some h'
    rw [h', eq_of_key_eq (List.mem_of_find?_eq_some h') hr hk]

theorem get?_eq_none {T : Table key} {k : κ} : T.get? k = none ↔ ∀ r ∈ T, key r ≠ k := by
  simp [get?, mem_def]

theorem get?_of_mem {T : Table key} {r : ρ} (h : r ∈ T) : T.get? (key r) = some r :=
  get?_eq_some.2 ⟨h, rfl⟩

theorem key_of_get? {T : Table key} {k : κ} {r : ρ} (h : T.get? k = some r) : key r = k :=
  (get?_eq_some.1 h).2

/-- The rows with a key are the row with that key. -/
theorem filter_key (T : Table key) (k : κ) :
    T.rows.filter (fun r => key r = k) = (T.get? k).toList := by
  cases h : T.get? k with
  | none =>
    refine List.filter_eq_nil_iff.2 fun r hr => ?_
    simpa using get?_eq_none.1 h r hr
  | some r =>
    obtain ⟨hr, hk⟩ := get?_eq_some.1 h
    have hnodup : (T.rows.filter fun r => key r = k).Nodup :=
      (List.Nodup.of_map key T.unique).filter _
    have hall : ∀ x ∈ T.rows.filter (fun r => key r = k), x = r := by
      intro x hx
      obtain ⟨hx, hxk⟩ := List.mem_filter.1 hx
      exact eq_of_key_eq hx hr ((of_decide_eq_true hxk).trans hk.symm)
    have hmem : r ∈ T.rows.filter (fun r => key r = k) :=
      List.mem_filter.2 ⟨hr, decide_eq_true hk⟩
    rw [List.eq_replicate_of_mem hall] at hnodup hmem ⊢
    have hle := List.nodup_replicate.1 hnodup
    have hpos := (List.mem_replicate.1 hmem).1
    rw [show (T.rows.filter fun r => key r = k).length = 1 by omega]
    rfl

@[simp] theorem get?_empty (k : κ) : (empty key).get? k = none := rfl

/-! ## Lookup after each operation -/

@[simp] theorem rows_insert (T : Table key) (r : ρ) (h : T.get? (key r) = none) :
    (T.insert r h).rows = T.rows ++ [r] := rfl

theorem mem_insert {T : Table key} {r x : ρ} {h : T.get? (key r) = none} :
    x ∈ T.insert r h ↔ x ∈ T ∨ x = r := by
  simp [mem_def]

theorem get?_insert (T : Table key) (r : ρ) (h : T.get? (key r) = none) (k : κ) :
    (T.insert r h).get? k = if key r = k then some r else T.get? k := by
  split_ifs with hk
  · subst hk
    exact get?_of_mem (mem_insert.2 (.inr rfl))
  · simp [get?, insert, List.find?_append, hk]

@[simp] theorem get?_insert_self (T : Table key) (r : ρ) (h : T.get? (key r) = none) :
    (T.insert r h).get? (key r) = some r := by
  rw [get?_insert, if_pos rfl]

theorem get?_update (T : Table key) (p : ρ → Bool) (f : ρ → ρ) (hf : ∀ r, key (f r) = key r)
    (k : κ) : (T.update p f hf).get? k = (T.get? k).map fun r => if p r then f r else r := by
  have hkey : ∀ r, key (if p r then f r else r) = key r := fun r => by
    by_cases hp : p r <;> simp [hp, hf]
  simp only [get?, update, List.find?_map, Function.comp_def, hkey]

theorem get?_delete (T : Table key) (p : ρ → Bool) (k : κ) :
    (T.delete p).get? k = (T.get? k).filter fun r => !p r := by
  cases h : T.get? k with
  | none =>
    refine get?_eq_none.2 fun r hr => ?_
    exact get?_eq_none.1 h r (mem_delete.1 hr).1
  | some r =>
    obtain ⟨hr, rfl⟩ := get?_eq_some.1 h
    cases hp : p r with
    | false =>
      rw [get?_of_mem (mem_delete.2 ⟨hr, hp⟩), Option.filter_some, hp]
      rfl
    | true =>
      simp only [Option.filter_some, hp, Bool.not_true, Bool.false_eq_true, if_false]
      refine get?_eq_none.2 fun x hx hk => ?_
      obtain ⟨hxT, hxp⟩ := mem_delete.1 hx
      rw [eq_of_key_eq hxT hr hk, hp] at hxp
      exact absurd hxp (by simp)

end Table
