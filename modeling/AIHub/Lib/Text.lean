import Mathlib.Data.List.DropRight
import Mathlib.Data.List.Infix

/-!
# Constrained strings

A string field of a validated record has its surrounding white space removed and is then
checked for its length and its pattern (`StringConstraints.validate`). A value that passed the
check is a `Constrained` string, which carries the check as a field; validating it again returns
it unchanged (`validate_val`).
-/

namespace Text

/-- The character class `[lo-hi]`. -/
def inRange (lo hi c : Char) : Bool := lo.toNat ≤ c.toNat && c.toNat ≤ hi.toNat

def isDigit : Char → Bool := inRange '0' '9'
def isLower : Char → Bool := inRange 'a' 'z'
def isUpper : Char → Bool := inRange 'A' 'Z'
def isAlnum (c : Char) : Bool := isDigit c || isLower c || isUpper c

/-- The characters of Unicode's `White_Space` property, which validation strips. -/
def isSpace (c : Char) : Bool :=
  let n := c.toNat
  (9 ≤ n && n ≤ 13) || n == 0x20 || n == 0x85 || n == 0xA0 || n == 0x1680 ||
    (0x2000 ≤ n && n ≤ 0x200A) || n == 0x2028 || n == 0x2029 || n == 0x202F || n == 0x205F ||
    n == 0x3000

/-- Drop the white space at both ends. -/
def strip (cs : List Char) : List Char := (cs.dropWhile isSpace).rdropWhile isSpace

/-- A text whose first and last characters are not white space is left as it is. -/
theorem strip_eq_self {cs : List Char} (h : ∀ hc : cs ≠ [], isSpace (cs.head hc) = false)
    (h' : ∀ hc : cs ≠ [], isSpace (cs.getLast hc) = false) : strip cs = cs := by
  have hd : cs.dropWhile isSpace = cs := by
    cases cs with
    | nil => rfl
    | cons c cs => exact List.dropWhile_cons_of_neg (by simpa using h (by simp))
  rw [strip, hd, List.rdropWhile_eq_self_iff]
  intro hc
  simp [h' hc]

theorem strip_infix (cs : List Char) : strip cs <:+: cs :=
  (List.rdropWhile_prefix isSpace _).isInfix.trans (List.dropWhile_suffix isSpace).isInfix

/-- Nothing is left of white space alone. -/
theorem strip_eq_nil {cs : List Char} : strip cs = [] ↔ ∀ c ∈ cs, isSpace c = true := by
  rw [strip, List.rdropWhile_eq_nil_iff]
  constructor
  · intro h c hc
    by_contra hspace
    have hne : cs.dropWhile isSpace ≠ [] := fun hnil =>
      hspace (List.dropWhile_eq_nil_iff.1 hnil c hc)
    have hhead := List.head_dropWhile_not isSpace hne
    rw [h _ (List.head_mem hne)] at hhead
    cases hhead
  · intro h c hc
    exact h c ((List.dropWhile_suffix isSpace).subset hc)

/-- Lower case as names are compared: the letters `A`-`Z`, and the two other characters whose
lower case holds an ASCII letter. The remaining characters have no ASCII lower case. -/
def lowerChar (c : Char) : List Char :=
  if isUpper c then [Char.ofNat (c.toNat + 32)]
  else if c.toNat = 0x212A then ['k']
  else if c.toNat = 0x130 then ['i', Char.ofNat 0x307]
  else [c]

def lower (s : String) : String := String.ofList (s.toList.flatMap lowerChar)

/-- Upper case as texts are compared with ASCII: the letters `a`-`z`, and the other characters whose
upper case is ASCII letters. The remaining characters have another upper case. -/
def upperChar (c : Char) : List Char :=
  if isLower c then [Char.ofNat (c.toNat - 32)]
  else match c.toNat with
    | 0xDF => ['S', 'S']
    | 0x131 => ['I']
    | 0x17F => ['S']
    | 0xFB00 => ['F', 'F']
    | 0xFB01 => ['F', 'I']
    | 0xFB02 => ['F', 'L']
    | 0xFB03 => ['F', 'F', 'I']
    | 0xFB04 => ['F', 'F', 'L']
    | 0xFB05 | 0xFB06 => ['S', 'T']
    | _ => [c]

/-- The same text, up to the case of the ASCII letters. -/
def SameLetters (a b : List Char) : Prop := a.map Char.toLower = b.map Char.toLower

theorem toNat_toLower (c : Char) :
    c.toLower.toNat = if isUpper c then c.toNat + 32 else c.toNat := by
  have hval : ∀ n : UInt32, n ≤ 'Z'.val → (n + ('a'.val - 'A'.val)).toNat = n.toNat + 32 := by
    intro n hn
    have : n.toNat ≤ 90 := hn
    have h32 : ('a'.val - 'A'.val).toNat = 32 := by decide
    rw [UInt32.toNat_add, h32, Nat.mod_eq_of_lt (by omega)]
  have hupper : isUpper c = true ↔ c.val ≥ 'A'.val ∧ c.val ≤ 'Z'.val := by
    simp only [isUpper, inRange, Bool.and_eq_true, decide_eq_true_eq]
    exact Iff.rfl
  unfold Char.toLower
  by_cases h : c.val ≥ 'A'.val ∧ c.val ≤ 'Z'.val
  · rw [dif_pos h, if_pos (hupper.2 h)]
    exact hval c.val h.2
  · rw [dif_neg h, if_neg (mt hupper.1 h)]

theorem lowerChar_of_toLower {c d : Char} (hd : isLower d = true) (h : c.toLower = d.toLower) :
    lowerChar c = [d] := by
  have hnat := congrArg Char.toNat h
  rw [toNat_toLower, toNat_toLower] at hnat
  unfold lowerChar
  simp only [isLower, isUpper, inRange, Bool.and_eq_true, decide_eq_true_eq, Char.reduceToNat]
    at hd hnat ⊢
  split_ifs at hnat ⊢ <;> try omega
  · rw [show c.toNat + 32 = d.toNat by omega, Char.ofNat_toNat]
  · rw [Char.toNat_inj.1 hnat]

theorem upperChar_of_toLower {c d : Char} (hd : isLower d = false) (hascii : d.toNat < 128)
    (h : c.toLower = d.toLower) : upperChar c = [d] := by
  have hnat := congrArg Char.toNat h
  rw [toNat_toLower, toNat_toLower] at hnat
  simp only [isLower, isUpper, inRange, Bool.and_eq_true, Bool.and_eq_false_iff,
    decide_eq_true_eq, decide_eq_false_iff_not, Char.reduceToNat] at hd hnat
  unfold upperChar
  simp only [isLower, inRange, Bool.and_eq_true, decide_eq_true_eq, Char.reduceToNat]
  split_ifs with hc
  · split_ifs at hnat <;> try omega
    rw [show c.toNat - 32 = d.toNat by omega, Char.ofNat_toNat]
  · have hcd : c = d := Char.toNat_inj.1 (by split_ifs at hnat <;> omega)
    subst hcd
    split <;> first | omega | rfl
/-- Lower case undoes a change of the case of the letters. -/
theorem SameLetters.lower {a b : List Char} (h : SameLetters a b)
    (hb : ∀ c ∈ b, isLower c = true) : a.flatMap lowerChar = b := by
  unfold SameLetters at h
  induction b generalizing a with
  | nil =>
    rw [List.map_nil, List.map_eq_nil_iff] at h
    rw [h, List.flatMap_nil]
  | cons d b ih =>
    obtain ⟨c, a, rfl, hc, ha⟩ := List.map_eq_cons_iff.1 h
    obtain ⟨hd, hb⟩ := List.forall_mem_cons.1 hb
    rw [List.flatMap_cons, lowerChar_of_toLower hd hc, ih ha hb]
    rfl

/-- So does upper case, for a text of ASCII characters in upper case. -/
theorem SameLetters.upper {a b : List Char} (h : SameLetters a b)
    (hb : ∀ c ∈ b, isLower c = false ∧ c.toNat < 128) : a.flatMap upperChar = b := by
  unfold SameLetters at h
  induction b generalizing a with
  | nil =>
    rw [List.map_nil, List.map_eq_nil_iff] at h
    rw [h, List.flatMap_nil]
  | cons d b ih =>
    obtain ⟨c, a, rfl, hc, ha⟩ := List.map_eq_cons_iff.1 h
    obtain ⟨hd, hb⟩ := List.forall_mem_cons.1 hb
    rw [List.flatMap_cons, upperChar_of_toLower hd.1 hd.2 hc, ih ha hb]
    rfl

/-- A text with the same letters as another one. -/
theorem SameLetters.forall_mem {a b : List Char} {P : Char → Prop} (h : SameLetters a b)
    (hP : ∀ c d : Char, c.toLower = d.toLower → P d → P c) (hb : ∀ c ∈ b, P c) :
    ∀ c ∈ a, P c := by
  intro c hc
  obtain ⟨d, hd, heq⟩ := List.mem_map.1 (h ▸ List.mem_map_of_mem hc)
  exact hP c d heq.symm (hb d hd)

/-- Write one character for another. -/
def replaceChar (old new : Char) (s : String) : String :=
  String.ofList (s.toList.map fun c => if c = old then new else c)

/-- The pattern of one character class followed by any number of characters of another. -/
def headThen (first rest : Char → Bool) : List Char → Bool
  | [] => false
  | c :: cs => first c && cs.all rest

/-- `part in s`. -/
def contains (part s : List Char) : Bool := s.tails.any fun t => part.isPrefixOf t

theorem contains_iff {part s : List Char} : contains part s = true ↔ part <:+: s := by
  simp [contains, List.infix_iff_prefix_suffix, List.mem_tails, and_comm]

/-- A part without a separator does not reach over one. -/
theorem infix_append_cons {α : Type*} {l a b : List α} {c : α} (hc : c ∉ l) :
    l <:+: a ++ c :: b ↔ l <:+: a ∨ l <:+: b := by
  constructor
  · intro h
    obtain ⟨s, t, h⟩ := h
    rw [List.append_assoc, List.append_eq_append_iff] at h
    rcases h with ⟨a', rfl, h⟩ | ⟨b', rfl, h⟩
    · rw [List.append_eq_append_iff] at h
      rcases h with ⟨a'', rfl, _⟩ | ⟨l', rfl, h⟩
      · exact .inl ⟨s, a'', List.append_assoc _ _ _⟩
      · cases l' with
        | nil => exact .inl ⟨s, [], by simp⟩
        | cons d l' =>
          cases h
          exact absurd (List.mem_append_right _ List.mem_cons_self) hc
    · cases b' with
      | nil =>
        cases l with
        | nil => exact .inl (List.nil_infix)
        | cons d l =>
          cases h
          exact absurd List.mem_cons_self hc
      | cons d b' =>
        cases h
        exact .inr ⟨b', t, List.append_assoc _ _ _⟩
  · intro h
    rcases h with ⟨s, t, rfl⟩ | ⟨s, t, rfl⟩
    · exact ⟨s, t ++ c :: b, by simp⟩
    · exact ⟨a ++ c :: s, t, by simp⟩

/-- A character between `!` and `~` is not white space. -/
theorem isSpace_of_graphic {c : Char} (h : inRange '!' '~' c = true) : isSpace c = false := by
  simp only [inRange, Bool.and_eq_true, decide_eq_true_eq, Char.reduceToNat] at h
  simp only [isSpace, Bool.or_eq_false_iff, Bool.and_eq_false_iff, decide_eq_false_iff_not,
    beq_eq_false_iff_ne]
  omega

/-- A text of such characters is left as it is. -/
theorem strip_of_graphic {cs : List Char} (h : ∀ c ∈ cs, inRange '!' '~' c = true) :
    strip cs = cs :=
  strip_eq_self (fun _ => isSpace_of_graphic (h _ (List.head_mem _)))
    fun _ => isSpace_of_graphic (h _ (List.getLast_mem _))

/-- A text that starts and ends with a character that is not white space. -/
structure Tight (cs : List Char) : Prop where
  head : ∃ c, cs.head? = some c ∧ isSpace c = false
  last : ∃ c, cs.getLast? = some c ∧ isSpace c = false

namespace Tight

variable {a b : List Char}

theorem strip_eq (h : Tight a) : strip a = a := by
  obtain ⟨c, hc, hcspace⟩ := h.head
  obtain ⟨d, hd, hdspace⟩ := h.last
  refine strip_eq_self (fun hne => ?_) fun hne => ?_
  · rw [List.head?_eq_some_head hne] at hc
    rwa [Option.some.inj hc]
  · rw [List.getLast?_eq_some_getLast hne] at hd
    rwa [Option.some.inj hd]

/-- Whatever stands between two such texts. -/
theorem append (ha : Tight a) (between : List Char) (hb : Tight b) :
    Tight (a ++ (between ++ b)) := by
  obtain ⟨c, hc, hcspace⟩ := ha.head
  obtain ⟨d, hd, hdspace⟩ := hb.last
  refine ⟨⟨c, ?_, hcspace⟩, ⟨d, ?_, hdspace⟩⟩
  · rw [List.head?_append, hc, Option.some_or]
  · rw [List.getLast?_append, List.getLast?_append, hd, Option.some_or, Option.some_or]

theorem of_graphic (hne : a ≠ []) (h : ∀ c ∈ a, inRange '!' '~' c = true) : Tight a :=
  ⟨⟨_, List.head?_eq_some_head hne, isSpace_of_graphic (h _ (List.head_mem hne))⟩,
    ⟨_, List.getLast?_eq_some_getLast hne, isSpace_of_graphic (h _ (List.getLast_mem hne))⟩⟩

/-- What stripping leaves. -/
theorem of_strip (h : strip a ≠ []) : Tight (strip a) := by
  have hd : a.dropWhile isSpace ≠ [] := by
    intro hnil
    rw [strip, hnil] at h
    exact h rfl
  refine ⟨⟨_, List.head?_eq_some_head h, ?_⟩, ⟨_, List.getLast?_eq_some_getLast h, ?_⟩⟩
  · have hhead : (strip a).head h = (a.dropWhile isSpace).head hd :=
      (List.rdropWhile_prefix isSpace _).head h
    rw [hhead]
    exact List.head_dropWhile_not isSpace hd
  · exact Bool.eq_false_iff.2 (List.rdropWhile_last_not isSpace _ h)

end Tight

theorem strip_strip (cs : List Char) : strip (strip cs) = strip cs := by
  by_cases h : strip cs = []
  · rw [h]
    rfl
  · exact (Tight.of_strip h).strip_eq

end Text

open Text

/-- The constraints on a string field: after stripping, its length in characters and its
pattern. -/
structure StringConstraints where
  minLength : Nat
  maxLength : Nat
  pattern : List Char → Bool

namespace StringConstraints

variable (C : StringConstraints)

/-- Nothing to strip, and length and pattern are right. -/
def accepts (s : String) : Bool :=
  strip s.toList = s.toList ∧ C.minLength ≤ s.toList.length ∧ s.toList.length ≤ C.maxLength ∧
    C.pattern s.toList

/-- What validation makes of a string: the stripped text, if it is accepted. -/
def validate (s : String) : Option String :=
  let t := String.ofList (strip s.toList)
  if C.accepts t then some t else none

end StringConstraints

/-- A string that passed validation under `C`. -/
structure Constrained (C : StringConstraints) where
  val : String
  ok : C.accepts val = true
  deriving DecidableEq

namespace Constrained

variable {C : StringConstraints}

@[ext] theorem ext {a b : Constrained C} (h : a.val = b.val) : a = b := by
  cases a; cases b; cases h; rfl

theorem val_inj {a b : Constrained C} : a.val = b.val ↔ a = b := ⟨ext, fun h => h ▸ rfl⟩

/-- Validating an accepted string changes nothing. -/
theorem validate_val (a : Constrained C) : C.validate a.val = some a.val := by
  have h := a.ok
  simp only [StringConstraints.accepts, decide_eq_true_eq] at h
  simp [StringConstraints.validate, h.1, a.ok]

end Constrained

/-- The validated string, as a value that carries its check. -/
def StringConstraints.parse (C : StringConstraints) (s : String) : Option (Constrained C) :=
  match h : C.validate s with
  | none => none
  | some t => some ⟨t, by
      simp only [StringConstraints.validate] at h
      split at h
      · cases h; assumption
      · cases h⟩

/-- Parsing an accepted text gives the value it is the text of. -/
theorem Constrained.parse_val {C : StringConstraints} (a : Constrained C) :
    C.parse a.val = some a := by
  unfold StringConstraints.parse
  split
  · rename_i h
    rw [a.validate_val] at h
    cases h
  · rename_i t h
    rw [a.validate_val] at h
    cases h
    rfl

/-- The stripped text is parsed if it is accepted. -/
theorem StringConstraints.parse_of_accepts {C : StringConstraints} {s : String}
    (h : C.accepts (String.ofList (strip s.toList)) = true) :
    C.parse s = some ⟨String.ofList (strip s.toList), h⟩ := by
  unfold StringConstraints.parse
  split
  · rename_i hnone
    rw [StringConstraints.validate, if_pos h] at hnone
    cases hnone
  · rename_i t ht
    rw [StringConstraints.validate, if_pos h] at ht
    cases ht
    rfl

/-- A parsed text is the stripped one. -/
theorem StringConstraints.val_of_parse {C : StringConstraints} {s : String} {v : Constrained C}
    (h : C.parse s = some v) : v.val = String.ofList (strip s.toList) := by
  unfold StringConstraints.parse at h
  split at h
  · cases h
  · rename_i t ht
    cases h
    simp only [StringConstraints.validate] at ht
    split_ifs at ht
    cases ht
    rfl

theorem StringConstraints.length_val {C : StringConstraints} (v : Constrained C) :
    v.val.length ≤ C.maxLength := by
  have h := v.ok
  simp only [StringConstraints.accepts, decide_eq_true_eq] at h
  exact h.2.2.1
