import Mathlib.Data.List.Infix
import Mathlib.Logic.Function.Basic

/-!
# Rotating files

A file that is appended to, and its numbered backups: file 0 is the file itself, and file `i + 1`
is older than file `i`. A rollover renames each file to the next number and drops what is beyond
the last one.

* `contents_emit`: what an append leaves in the files, oldest first, is an end of what was in them
  and the appended items, and is all of it unless the last backup exists.
* `flatMap_emit`: rotation does not look into the items.
-/

namespace Rotation

variable {α β : Type*}

/-- The files that exist, by number. -/
abbrev Files (α : Type*) := Nat → Option (List α)

namespace Files

/-- Rename a file to the next number, over the file of that number, if it exists. -/
def shift (f : Files α) (i : Nat) : Files α :=
  match f i with
  | none => f
  | some items => Function.update (Function.update f (i + 1) (some items)) i none

/-- Rename the files down from a number to the first backup. -/
def shiftDown : Nat → Files α → Files α
  | 0, f => f
  | i + 1, f => shiftDown i (f.shift (i + 1))

/-- Make the file the first of so many backups. -/
def doRollover (backups : Nat) (f : Files α) : Files α :=
  shift (Function.update (shiftDown (backups - 1) f) 1 none) 0

/-- Open the file, which creates it. -/
def openBase (f : Files α) : Files α := Function.update f 0 (some ((f 0).getD []))

def append (f : Files α) (items : List α) : Files α :=
  Function.update f 0 (some ((f 0).getD [] ++ items))

/-- Append items, after a rollover if there is to be one. -/
def emit (backups : Nat) (rollover : Bool) (f : Files α) (items : List α) : Files α :=
  append (if rollover then doRollover backups f.openBase else f.openBase) items

/-- What is in the files up to a number, the oldest first. -/
def contents : Nat → Files α → List α
  | 0, f => (f 0).getD []
  | i + 1, f => (f (i + 1)).getD [] ++ contents i f

variable {f g : Files α}

theorem contents_congr {n : Nat} (h : ∀ j ≤ n, f j = g j) : contents n f = contents n g := by
  induction n with
  | zero => rw [contents, contents, h 0 le_rfl]
  | succ n ih => rw [contents, contents, h (n + 1) le_rfl, ih fun j hj => h j (by omega)]

/-! ## One file -/

theorem shift_none {i : Nat} (h : f i = none) : f.shift i = f := by
  simp only [shift, h]

theorem shift_some {i : Nat} {items : List α} (h : f i = some items) :
    f.shift i = Function.update (Function.update f (i + 1) (some items)) i none := by
  simp only [shift, h]

theorem shift_of_ne {i j : Nat} (hi : j ≠ i) (hsucc : j ≠ i + 1) : f.shift i j = f j := by
  cases h : f i with
  | none => rw [shift_none h]
  | some items => rw [shift_some h, Function.update_of_ne hi, Function.update_of_ne hsucc]

theorem shift_self (i : Nat) : f.shift i i = none := by
  cases h : f i with
  | none => rw [shift_none h, h]
  | some items => rw [shift_some h, Function.update_self]

theorem shift_succ {i : Nat} {items : List α} (h : f i = some items) :
    f.shift i (i + 1) = some items := by
  rw [shift_some h, Function.update_of_ne (Nat.succ_ne_self i), Function.update_self]

/-- A file that is renamed keeps its place among the others. -/
theorem contents_shift {i n : Nat} (h : f (i + 1) = none) (hn : i < n) :
    contents n (f.shift i) = contents n f := by
  induction n, hn using Nat.le_induction with
  | base =>
    cases hfile : f i with
    | none => rw [shift_none hfile]
    | some items =>
      rw [contents, contents, shift_succ hfile, h]
      cases i with
      | zero => rw [contents, contents, shift_self, hfile]; simp
      | succ i =>
        rw [contents, contents, shift_self, hfile]
        have hbelow : contents i (f.shift (i + 1)) = contents i f :=
          contents_congr fun j hj => shift_of_ne (by omega) (by omega)
        rw [hbelow]
        rfl
  | succ n hn ih => rw [contents, contents, ih, shift_of_ne (by omega) (by omega)]

/-- Renaming the last file over another drops that one. -/
theorem contents_shift_suffix (i : Nat) : contents (i + 1) (f.shift i) <:+ contents (i + 1) f := by
  cases hfile : f i with
  | none => rw [shift_none hfile]
  | some items =>
    have hover : f.shift i = shift (Function.update f (i + 1) none) i := by
      rw [shift_some hfile, shift_some, Function.update_idem]
      rw [Function.update_of_ne (Nat.succ_ne_self i).symm, hfile]
    have hbelow : contents i (Function.update f (i + 1) none) = contents i f :=
      contents_congr fun j hj => Function.update_of_ne (by omega) _ _
    rw [hover, contents_shift (Function.update_self ..) (Nat.lt_succ_self i), contents, contents,
      hbelow, Function.update_self]
    exact List.suffix_append _ _

/-! ## All files -/

theorem shiftDown_of_lt {k j : Nat} (h : k + 1 < j) : shiftDown k f j = f j := by
  induction k generalizing f with
  | zero => rfl
  | succ k ih => rw [shiftDown, ih (by omega), shift_of_ne (by omega) (by omega)]

theorem shiftDown_one (k : Nat) : shiftDown (k + 1) f 1 = none := by
  induction k generalizing f with
  | zero => exact shift_self 1
  | succ k ih => exact ih

/-- The files move into a free place. -/
theorem contents_shiftDown {k : Nat} (h : f (k + 1) = none) :
    contents (k + 1) (shiftDown k f) = contents (k + 1) f := by
  induction k generalizing f with
  | zero => rfl
  | succ k ih =>
    rw [shiftDown, contents, ih (shift_self (k + 1)), shiftDown_of_lt (by omega), ← contents,
      contents_shift h (by omega)]

theorem contents_shiftDown_suffix (k : Nat) :
    contents (k + 1) (shiftDown k f) <:+ contents (k + 1) f := by
  cases k with
  | zero => exact List.suffix_rfl
  | succ k =>
    rw [shiftDown, contents, contents_shiftDown (shift_self (k + 1)), shiftDown_of_lt (by omega),
      ← contents]
    exact contents_shift_suffix (k + 1)

theorem shiftDown_last (k : Nat) (h : (f (k + 1)).isSome) : (shiftDown k f (k + 1)).isSome := by
  cases k with
  | zero => exact h
  | succ k =>
    rw [shiftDown, shiftDown_of_lt (by omega)]
    cases hfile : f (k + 1) with
    | none => rwa [shift_none hfile]
    | some items => rw [shift_succ hfile]; rfl

/-! ## A rollover -/

variable {n : Nat}

/-- After the older files have moved, there is no first backup, or only it is dropped. -/
theorem contents_removeFirst (hn : 0 < n) :
    contents n (Function.update (shiftDown (n - 1) f) 1 none) <:+ contents n f ∧
      (f n = none →
        contents n (Function.update (shiftDown (n - 1) f) 1 none) = contents n f) := by
  obtain ⟨k, rfl⟩ := Nat.exists_eq_add_one.2 hn
  rw [Nat.add_sub_cancel]
  cases k with
  | zero =>
    have hzero : contents 0 (Function.update f 1 none) = contents 0 f :=
      contents_congr fun j hj => Function.update_of_ne (by omega) _ _
    show (Function.update f 1 none 1).getD [] ++ contents 0 (Function.update f 1 none) <:+
        (f 1).getD [] ++ contents 0 f ∧ (f 1 = none →
          (Function.update f 1 none 1).getD [] ++ contents 0 (Function.update f 1 none) =
            (f 1).getD [] ++ contents 0 f)
    rw [hzero, Function.update_self]
    exact ⟨List.suffix_append _ _, fun h => by rw [h]⟩
  | succ k =>
    have hfree : Function.update (shiftDown (k + 1) f) 1 none = shiftDown (k + 1) f := by
      rw [Function.update_eq_self_iff, shiftDown_one]
    rw [hfree]
    exact ⟨contents_shiftDown_suffix (k + 1), contents_shiftDown⟩

theorem contents_doRollover (hn : 0 < n) :
    contents n (doRollover n f) <:+ contents n f ∧
      (f n = none → contents n (doRollover n f) = contents n f) := by
  rw [doRollover, contents_shift (Function.update_self ..) hn]
  exact contents_removeFirst hn

theorem doRollover_of_lt {j : Nat} (hn : 0 < n) (h : n < j) : doRollover n f j = f j := by
  rw [doRollover, shift_of_ne (by omega) (by omega), Function.update_of_ne (by omega),
    shiftDown_of_lt (by omega)]

/-- The last backup stays, or is replaced. -/
theorem doRollover_last (hn : 0 < n) (hbase : (f 0).isSome) (h : (f n).isSome) :
    (doRollover n f n).isSome := by
  obtain ⟨k, rfl⟩ := Nat.exists_eq_add_one.2 hn
  rw [doRollover, Nat.add_sub_cancel]
  cases k with
  | zero =>
    obtain ⟨items, hitems⟩ := Option.isSome_iff_exists.1 hbase
    refine Option.isSome_iff_exists.2 ⟨items, shift_succ ?_⟩
    rw [shiftDown, Function.update_of_ne (by omega), hitems]
  | succ k =>
    rw [shift_of_ne (by omega) (by omega), Function.update_of_ne (by omega)]
    exact shiftDown_last (k + 1) h

/-! ## Appends -/

theorem contents_openBase : contents n f.openBase = contents n f := by
  induction n with
  | zero => simp [contents, openBase]
  | succ n ih => rw [contents, contents, ih, openBase, Function.update_of_ne n.succ_ne_zero]

theorem contents_append (items : List α) :
    contents n (f.append items) = contents n f ++ items := by
  induction n with
  | zero => simp [contents, append]
  | succ n ih =>
    rw [contents, contents, ih, append, Function.update_of_ne n.succ_ne_zero, List.append_assoc]

variable {rollover : Bool} {items : List α}

/-- Only the oldest items are lost, and none while the last backup does not exist. -/
theorem contents_emit (rollover : Bool) (items : List α) (hn : 0 < n) :
    ∃ lost kept, contents n f = lost ++ kept ∧
      contents n (emit n rollover f items) = kept ++ items ∧ (f n = none → lost = []) := by
  rw [emit, contents_append]
  cases rollover with
  | false =>
    rw [if_neg Bool.false_ne_true, contents_openBase]
    exact ⟨[], _, rfl, rfl, fun _ => rfl⟩
  | true =>
    obtain ⟨⟨lost, hlost⟩, hall⟩ := contents_doRollover (f := f.openBase) hn
    rw [contents_openBase] at hlost hall
    rw [if_pos rfl]
    refine ⟨lost, _, hlost.symm, rfl, fun h => ?_⟩
    rw [hall (by rwa [openBase, Function.update_of_ne (by omega)])] at hlost
    exact List.append_left_eq_self.1 hlost

theorem emit_of_lt {j : Nat} (hn : 0 < n) (h : n < j) : emit n rollover f items j = f j := by
  rw [emit, append, Function.update_of_ne (by omega)]
  cases rollover with
  | false => rw [if_neg Bool.false_ne_true, openBase, Function.update_of_ne (by omega)]
  | true => rw [if_pos rfl, doRollover_of_lt hn h, openBase, Function.update_of_ne (by omega)]

theorem emit_last (rollover : Bool) (items : List α) (hn : 0 < n) (h : (f n).isSome) :
    (emit n rollover f items n).isSome := by
  have hopen : (f.openBase n).isSome := by rwa [openBase, Function.update_of_ne (by omega)]
  rw [emit, append, Function.update_of_ne (by omega)]
  cases rollover with
  | false => rwa [if_neg Bool.false_ne_true]
  | true => exact doRollover_last hn (by rw [openBase, Function.update_self]; rfl) hopen

/-! ## Items of another kind -/

/-- Files whose items are written as others, each as some of them. -/
def flatMap (write : α → List β) (f : Files α) : Files β :=
  fun i => (f i).map (List.flatMap write)

variable {write : α → List β}

theorem flatMap_update (i : Nat) (items : Option (List α)) :
    flatMap write (Function.update f i items) =
      Function.update (f.flatMap write) i (items.map (List.flatMap write)) := by
  funext j
  by_cases hj : j = i
  · subst hj
    simp only [flatMap, Function.update_self]
  · simp only [flatMap, Function.update_of_ne hj]

theorem flatMap_shift (i : Nat) : (f.shift i).flatMap write = (f.flatMap write).shift i := by
  cases h : f i with
  | none => rw [shift_none h, shift_none (by rw [flatMap, h]; rfl)]
  | some items =>
    have hmapped : f.flatMap write i = some (items.flatMap write) := by
      rw [flatMap, h]
      rfl
    rw [shift_some h, shift_some hmapped, flatMap_update, flatMap_update]
    rfl

theorem flatMap_shiftDown (k : Nat) :
    (shiftDown k f).flatMap write = shiftDown k (f.flatMap write) := by
  induction k generalizing f with
  | zero => rfl
  | succ k ih => rw [shiftDown, shiftDown, ih, flatMap_shift]

theorem flatMap_openBase : f.openBase.flatMap write = (f.flatMap write).openBase := by
  rw [openBase, openBase, flatMap_update]
  cases h : f 0 <;> simp [flatMap, h]

theorem flatMap_append : (f.append items).flatMap write =
    (f.flatMap write).append (items.flatMap write) := by
  rw [append, append, flatMap_update]
  cases h : f 0 <;> simp [flatMap, h]

/-- Rotation does not look into the items. -/
theorem flatMap_emit : (emit n rollover f items).flatMap write =
    emit n rollover (f.flatMap write) (items.flatMap write) := by
  rw [emit, emit, flatMap_append]
  cases rollover with
  | false => rw [if_neg Bool.false_ne_true, if_neg Bool.false_ne_true, flatMap_openBase]
  | true =>
    rw [if_pos rfl, if_pos rfl, doRollover, doRollover, flatMap_shift, flatMap_update,
      flatMap_shiftDown, flatMap_openBase]
    rfl

theorem contents_flatMap : contents n (f.flatMap write) = (contents n f).flatMap write := by
  induction n with
  | zero => cases h : f 0 <;> simp [contents, flatMap, h]
  | succ n ih =>
    rw [contents, contents, ih, List.flatMap_append]
    cases h : f (n + 1) <;> simp [flatMap, h]

end Files

end Rotation
