import AIHub.Domain.Json
import Mathlib.Data.String.Basic
import Mathlib.Tactic.IntervalCases

/-!
# JSON texts

`json.dump` with `sort_keys=True` and the compact separators, and `json.load`.

**Strings** are written in ASCII. A character beyond the 16-bit ones is escaped as two surrogates,
which the reader puts together again. A lone surrogate, which only an escape can denote, is read as
the replacement character.

**Values** are read with as much fuel as twice the length of the text, and that is enough for each
text that has been written (`loads_dumps`).

* `readString_escape`: a string is read back, up to its closing quote.
* `loads_dumps`: a value without floats, whose objects have their keys in order, is read back.
-/

namespace AIHub.JsonValue

/-! ## Strings -/

def hexDigit (n : Nat) : Char := Nat.digitChar (n % 16)

/-- Four hexadecimal digits. -/
def hexQuad (n : Nat) : List Char :=
  [hexDigit (n / 4096), hexDigit (n / 256), hexDigit (n / 16), hexDigit n]

def isHigh (n : Nat) : Bool := 0xD800 ≤ n && n < 0xDC00
def isLow (n : Nat) : Bool := 0xDC00 ≤ n && n < 0xE000

/-- The 16-bit units of a character. -/
def units (c : Char) : List Nat :=
  let n := c.toNat
  if n < 0x10000 then [n] else [0xD800 + (n - 0x10000) / 1024, 0xDC00 + (n - 0x10000) % 1024]

/-- A character inside a string. -/
def escapeChar (c : Char) : List Char :=
  if c = '"' then ['\\', '"']
  else if c = '\\' then ['\\', '\\']
  else if c = '\n' then ['\\', 'n']
  else if c = '\r' then ['\\', 'r']
  else if c = '\t' then ['\\', 't']
  else if c = '\x0c' then ['\\', 'f']
  else if c = '\x08' then ['\\', 'b']
  else if Text.inRange ' ' '~' c then [c]
  else (units c).flatMap fun n => '\\' :: 'u' :: hexQuad n

def quoted (s : String) : List Char := '"' :: (s.toList.flatMap escapeChar ++ ['"'])

def hexValue (c : Char) : Option Nat :=
  if Text.isDigit c then some (c.toNat - '0'.toNat)
  else if Text.inRange 'a' 'f' c then some (c.toNat - 'a'.toNat + 10)
  else if Text.inRange 'A' 'F' c then some (c.toNat - 'A'.toNat + 10)
  else none

/-- The number that four hexadecimal digits denote. -/
def readQuad (a b c d : Char) : Option Nat := do
  return 4096 * (← hexValue a) + 256 * (← hexValue b) + 16 * (← hexValue c) + (← hexValue d)

/-- What a backslash and a character denote. -/
def unescape (c : Char) : Option Nat :=
  if c = '"' ∨ c = '\\' ∨ c = '/' then some c.toNat
  else if c = 'n' then some 10
  else if c = 'r' then some 13
  else if c = 't' then some 9
  else if c = 'f' then some 12
  else if c = 'b' then some 8
  else none

/-- The units of a string up to its closing quote, and what follows that. -/
def readUnits : List Char → Option (List Nat × List Char)
  | [] => none
  | '"' :: cs => some ([], cs)
  | '\\' :: 'u' :: a :: b :: c :: d :: cs => do
    let n ← readQuad a b c d
    let (us, rest) ← readUnits cs
    return (n :: us, rest)
  | '\\' :: c :: cs => do
    let n ← unescape c
    let (us, rest) ← readUnits cs
    return (n :: us, rest)
  | c :: cs => do
    if c = '\\' ∨ c.toNat < 0x20 then none
    let (us, rest) ← readUnits cs
    return (c.toNat :: us, rest)

/-- A unit that stands alone. -/
def unitChar (n : Nat) : Char := if isHigh n || isLow n then Char.ofNat 0xFFFD else Char.ofNat n

/-- Put the surrogates together. -/
def joinUnits : List Nat → List Char
  | [] => []
  | [n] => [unitChar n]
  | n :: m :: us =>
    if isHigh n && isLow m then
      Char.ofNat (0x10000 + 1024 * (n - 0xD800) + (m - 0xDC00)) :: joinUnits us
    else unitChar n :: joinUnits (m :: us)

def readString (cs : List Char) : Option (String × List Char) :=
  (readUnits cs).map fun r => (String.ofList (joinUnits r.1), r.2)

theorem hexValue_hexDigit (n : Nat) : hexValue (hexDigit n) = some (n % 16) := by
  have hall : ∀ k < 16, hexValue (Nat.digitChar k) = some k := by decide
  exact hall _ (Nat.mod_lt _ (by decide))

theorem readUnits_hexQuad {n : Nat} (h : n < 65536) (cs : List Char) :
    readUnits ('\\' :: 'u' :: (hexQuad n ++ cs)) =
      (readUnits cs).map fun r => (n :: r.1, r.2) := by
  have hquad : readQuad (hexDigit (n / 4096)) (hexDigit (n / 256)) (hexDigit (n / 16))
      (hexDigit n) = some n := by
    simp only [readQuad, hexValue_hexDigit, Option.bind_eq_bind, Option.bind_some, pure]
    congr 1
    omega
  simp only [hexQuad, List.cons_append, List.nil_append]
  rw [readUnits, hquad]
  cases readUnits cs <;> rfl

/-- A character that is written as it is. -/
theorem readUnits_plain {c : Char} (h : Text.inRange ' ' '~' c = true) (hquote : c ≠ '"')
    (hslash : c ≠ '\\') (cs : List Char) :
    readUnits (c :: cs) = (readUnits cs).map fun r => (c.toNat :: r.1, r.2) := by
  have hlow : 0x20 ≤ c.toNat := by
    simp only [Text.inRange, Bool.and_eq_true, decide_eq_true_eq] at h
    exact h.1
  rw [readUnits.eq_5]
  · rw [if_neg (by simp only [hslash, false_or]; omega)]
    cases readUnits cs <;> rfl
  all_goals simp_all

theorem readUnits_unescape {c : Char} {n : Nat} (h : unescape c = some n) (cs : List Char) :
    readUnits ('\\' :: c :: cs) = (readUnits cs).map fun r => (n :: r.1, r.2) := by
  have hu : c ≠ 'u' := by
    rintro rfl
    cases h
  rw [readUnits.eq_4, h]
  · cases readUnits cs <;> rfl
  · simp_all

theorem readUnits_escapeChar (c : Char) (cs : List Char) :
    readUnits (escapeChar c ++ cs) = (readUnits cs).map fun r => (units c ++ r.1, r.2) := by
  unfold escapeChar
  split_ifs with hquote hslash hn hr ht hf hb hplain
  · subst hquote
    exact readUnits_unescape rfl cs
  · subst hslash
    exact readUnits_unescape rfl cs
  · subst hn
    exact readUnits_unescape rfl cs
  · subst hr
    exact readUnits_unescape rfl cs
  · subst ht
    exact readUnits_unescape rfl cs
  · subst hf
    exact readUnits_unescape rfl cs
  · subst hb
    exact readUnits_unescape rfl cs
  · rw [List.singleton_append, readUnits_plain hplain hquote hslash, units, if_pos]
    · rfl
    · simp only [Text.inRange, Bool.and_eq_true, decide_eq_true_eq] at hplain
      exact lt_of_le_of_lt hplain.2 (by decide)
  · have hvalid : c.toNat < 0xD800 ∨ 0xDFFF < c.toNat ∧ c.toNat < 0x110000 := c.valid
    unfold units
    dsimp only
    split_ifs with hsmall
    · simp only [List.flatMap_cons, List.flatMap_nil, List.append_nil, List.cons_append]
      rw [readUnits_hexQuad hsmall]
      rfl
    · simp only [List.flatMap_cons, List.flatMap_nil, List.append_nil, List.cons_append,
        List.append_assoc]
      rw [readUnits_hexQuad (by omega), readUnits_hexQuad (by omega), Option.map_map]
      rfl

theorem joinUnits_units (c : Char) (us : List Nat) :
    joinUnits (units c ++ us) = c :: joinUnits us := by
  have hvalid : c.toNat < 0xD800 ∨ 0xDFFF < c.toNat ∧ c.toNat < 0x110000 := c.valid
  unfold units
  dsimp only
  split_ifs with hsmall
  · have hhigh : isHigh c.toNat = false := by
      simp only [isHigh, Bool.and_eq_false_iff, decide_eq_false_iff_not]
      omega
    have hlow : isLow c.toNat = false := by
      simp only [isLow, Bool.and_eq_false_iff, decide_eq_false_iff_not]
      omega
    have hunit : unitChar c.toNat = c := by simp [unitChar, hhigh, hlow]
    cases us with
    | nil =>
      show [unitChar c.toNat] = [c]
      rw [hunit]
    | cons m us =>
      rw [List.singleton_append, joinUnits, hhigh, Bool.false_and, if_neg Bool.false_ne_true, hunit]
  · have hhigh : isHigh (0xD800 + (c.toNat - 0x10000) / 1024) = true := by
      simp only [isHigh, Bool.and_eq_true, decide_eq_true_eq]
      omega
    have hlow : isLow (0xDC00 + (c.toNat - 0x10000) % 1024) = true := by
      simp only [isLow, Bool.and_eq_true, decide_eq_true_eq]
      omega
    have hpair : 0x10000 + 1024 * (0xD800 + (c.toNat - 0x10000) / 1024 - 0xD800) +
        (0xDC00 + (c.toNat - 0x10000) % 1024 - 0xDC00) = c.toNat := by
      omega
    rw [List.cons_append, List.singleton_append, joinUnits, hhigh, hlow, Bool.and_self, if_pos rfl,
      hpair, Char.ofNat_toNat]

theorem readString_escape (s : String) (cs : List Char) :
    readString (s.toList.flatMap escapeChar ++ '"' :: cs) = some (s, cs) := by
  have hunits : ∀ ds : List Char, readUnits (ds.flatMap escapeChar ++ '"' :: cs) =
      some (ds.flatMap units, cs) := by
    intro ds
    induction ds with
    | nil => rfl
    | cons d ds ih =>
      rw [List.flatMap_cons, List.append_assoc, readUnits_escapeChar, ih]
      rfl
  have hjoin : ∀ ds : List Char, joinUnits (ds.flatMap units) = ds := by
    intro ds
    induction ds with
    | nil => rfl
    | cons d ds ih => rw [List.flatMap_cons, joinUnits_units, ih]
  rw [readString, hunits, Option.map_some, hjoin, String.ofList_toList]

/-! ## Numbers -/

/-- The text of an integer. -/
def intText (n : Int) : List Char :=
  if n < 0 then '-' :: Nat.toDigits 10 n.natAbs else Nat.toDigits 10 n.natAbs

/-- `(\.[0-9]+)?`, and what follows it. -/
def readFraction : List Char → List Char × List Char
  | '.' :: cs =>
    if (cs.takeWhile Text.isDigit) = [] then ([], '.' :: cs)
    else ('.' :: cs.takeWhile Text.isDigit, cs.dropWhile Text.isDigit)
  | cs => ([], cs)

def splitSign : List Char → List Char × List Char
  | [] => ([], [])
  | c :: cs => if c = '+' ∨ c = '-' then ([c], cs) else ([], c :: cs)

/-- `([eE][-+]?[0-9]+)?`, and what follows it. -/
def readExponent : List Char → List Char × List Char
  | [] => ([], [])
  | c :: cs =>
    let (sign, digits) := splitSign cs
    if (c = 'e' ∨ c = 'E') ∧ digits.takeWhile Text.isDigit ≠ [] then
      (c :: sign ++ digits.takeWhile Text.isDigit, digits.dropWhile Text.isDigit)
    else ([], c :: cs)

/-- The most digits that `int` takes. -/
def intMaxStrDigits : Nat := 4300

/-- A number without a sign, as its text and its value if it is an integer. -/
def readUnsigned (cs : List Char) : Option (JsonValue × List Char) :=
  let whole := if cs.head? = some '0' then ['0'] else cs.takeWhile Text.isDigit
  let (fraction, rest) := readFraction (cs.drop whole.length)
  let (exponent, rest) := readExponent rest
  if whole = [] then none
  else if fraction = [] ∧ exponent = [] then
    if intMaxStrDigits < whole.length then none else some (.int (Nat.ofDigitChars 10 whole 0), rest)
  else some (.float (String.ofList (whole ++ fraction ++ exponent)), rest)

/-- A number below zero. -/
def negate : JsonValue → JsonValue
  | .int n => .int (-n)
  | .float text => .float ("-" ++ text)
  | v => v

def readNumber : List Char → Option (JsonValue × List Char)
  | '-' :: cs => (readUnsigned cs).map fun r => (negate r.1, r.2)
  | cs => readUnsigned cs

/-- What follows a number does not go on with it. -/
def EndsNumber (cs : List Char) : Prop :=
  ∀ c ∈ cs.head?, c ∈ [',', ']', '}', '\n']

theorem isDigit_toDigits {n : Nat} {c : Char} (h : c ∈ Nat.toDigits 10 n) :
    Text.isDigit c = true := by
  have hdigit := Char.isDigit_iff_toNat.1 (Nat.isDigit_of_mem_toDigits (by decide) (by decide) h)
  rw [Text.isDigit, Text.inRange, decide_eq_true hdigit.1, decide_eq_true hdigit.2]
  rfl

/-- Only zero begins with a zero. -/
theorem head_toDigits {n : Nat} (h : n ≠ 0) : (Nat.toDigits 10 n).head? ≠ some '0' := by
  induction n using Nat.base_induction 10 (by decide) with
  | single m hm =>
    rw [Nat.toDigits_of_lt_base hm]
    have hall : ∀ k < 10, k ≠ 0 → [Nat.digitChar k].head? ≠ some '0' := by decide
    exact hall m hm h
  | digit m k hk hm ih =>
    rw [← Nat.toDigits_append_toDigits (by decide) hm hk, List.head?_append_of_ne_nil]
    · exact ih (Nat.ne_of_gt hm)
    · exact Nat.toDigits_ne_nil

theorem readUnsigned_toDigits {n : Nat} {cs : List Char}
    (h : (Nat.toDigits 10 n).length ≤ intMaxStrDigits) (hcs : EndsNumber cs) :
    readUnsigned (Nat.toDigits 10 n ++ cs) = some (.int n, cs) := by
  have hnodigit : cs.takeWhile Text.isDigit = [] := by
    cases cs with
    | nil => rfl
    | cons c cs =>
      have hc := hcs c rfl
      simp only [List.mem_cons, List.not_mem_nil, or_false] at hc
      rcases hc with rfl | rfl | rfl | rfl <;> rfl
  have hwhole : (if (Nat.toDigits 10 n ++ cs).head? = some '0' then ['0'] else
      (Nat.toDigits 10 n ++ cs).takeWhile Text.isDigit) = Nat.toDigits 10 n := by
    by_cases hn : n = 0
    · subst hn
      rfl
    · rw [List.head?_append_of_ne_nil _ Nat.toDigits_ne_nil, if_neg (head_toDigits hn),
        List.takeWhile_append_of_pos fun c hc => isDigit_toDigits hc, hnodigit, List.append_nil]
  have hrest : readFraction cs = ([], cs) ∧ readExponent cs = ([], cs) := by
    cases cs with
    | nil => exact ⟨rfl, rfl⟩
    | cons c cs =>
      have hc := hcs c rfl
      simp only [List.mem_cons, List.not_mem_nil, or_false] at hc
      rcases hc with rfl | rfl | rfl | rfl <;> exact ⟨rfl, by simp [readExponent]⟩
  simp only [readUnsigned, hwhole, List.drop_left, hrest.1, hrest.2]
  rw [if_neg Nat.toDigits_ne_nil, if_pos ⟨trivial, trivial⟩, if_neg (by omega),
    Nat.ofDigitChars_ten_toDigits]

/-! ## Values -/

mutual

/-- The text of a value. -/
def dumpChars : JsonValue → List Char
  | .null => "null".toList
  | .bool b => if b then "true".toList else "false".toList
  | .int n => intText n
  | .float text => text.toList
  | .string s => quoted s
  | .array items => '[' :: (dumpItems items ++ [']'])
  | .object members => '{' :: (dumpMembers members ++ ['}'])

def dumpItems : List JsonValue → List Char
  | [] => []
  | v :: items => dumpChars v ++ dumpNextItems items

def dumpNextItems : List JsonValue → List Char
  | [] => []
  | v :: items => ',' :: (dumpChars v ++ dumpNextItems items)

def dumpMembers : List (String × JsonValue) → List Char
  | [] => []
  | (key, v) :: members => quoted key ++ ':' :: (dumpChars v ++ dumpNextMembers members)

def dumpNextMembers : List (String × JsonValue) → List Char
  | [] => []
  | (key, v) :: members => ',' :: (quoted key ++ ':' :: (dumpChars v ++ dumpNextMembers members))

end

/-- `json.dumps(v, sort_keys=True, separators=(",", ":"))`. -/
def dumps (v : JsonValue) : String := String.ofList (dumpChars v)

def isBlank (c : Char) : Bool := c == ' ' || c == '\t' || c == '\n' || c == '\r'

def skipBlanks (cs : List Char) : List Char := cs.dropWhile isBlank

/-- The object with these members; the last one of a key counts. -/
def toObject (members : List (String × JsonValue)) : JsonObject :=
  members.foldl (fun o m => o.set m.1 m.2) []

mutual

/-- A value at the start of a text, and what follows it. -/
def readValue : Nat → List Char → Option (JsonValue × List Char)
  | 0, _ => none
  | fuel + 1, cs =>
    match cs with
    | '"' :: cs => (readString cs).map fun r => (.string r.1, r.2)
    | '{' :: cs =>
      match skipBlanks cs with
      | '}' :: rest => some (.object [], rest)
      | cs => (readMembers fuel cs).map fun r => (.object (toObject r.1), r.2)
    | '[' :: cs =>
      match skipBlanks cs with
      | ']' :: rest => some (.array [], rest)
      | cs => (readItems fuel cs).map fun r => (.array r.1, r.2)
    | 'n' :: 'u' :: 'l' :: 'l' :: rest => some (.null, rest)
    | 't' :: 'r' :: 'u' :: 'e' :: rest => some (.bool true, rest)
    | 'f' :: 'a' :: 'l' :: 's' :: 'e' :: rest => some (.bool false, rest)
    | 'N' :: 'a' :: 'N' :: rest => some (.float "NaN", rest)
    | 'I' :: 'n' :: 'f' :: 'i' :: 'n' :: 'i' :: 't' :: 'y' :: rest => some (.float "Infinity", rest)
    | '-' :: 'I' :: 'n' :: 'f' :: 'i' :: 'n' :: 'i' :: 't' :: 'y' :: rest =>
      some (.float "-Infinity", rest)
    | cs => readNumber cs

/-- The values up to the end of an array, at least one. -/
def readItems : Nat → List Char → Option (List JsonValue × List Char)
  | 0, _ => none
  | fuel + 1, cs => do
    let (v, rest) ← readValue fuel cs
    match skipBlanks rest with
    | ',' :: rest => (readItems fuel (skipBlanks rest)).map fun r => (v :: r.1, r.2)
    | ']' :: rest => some ([v], rest)
    | _ => none

/-- The members up to the end of an object, at least one. -/
def readMembers : Nat → List Char → Option (List (String × JsonValue) × List Char)
  | 0, _ => none
  | fuel + 1, cs =>
    match cs with
    | '"' :: cs => do
      let (key, rest) ← readString cs
      match skipBlanks rest with
      | ':' :: rest => do
        let (v, rest) ← readValue fuel (skipBlanks rest)
        match skipBlanks rest with
        | ',' :: rest => (readMembers fuel (skipBlanks rest)).map fun r => ((key, v) :: r.1, r.2)
        | '}' :: rest => some ([(key, v)], rest)
        | _ => none
      | _ => none
    | _ => none

end

/-- `json.loads`, unless that raises a `JSONDecodeError`, or a `ValueError` about the digits of a
number. -/
def loads (text : String) : Option JsonValue := do
  let cs := text.toList
  let (v, rest) ← readValue (2 * cs.length) (skipBlanks cs)
  if skipBlanks rest = [] then some v else none

/-! ## Round trip -/

mutual

/-- No float, no integer of too many digits, and the keys of each object in order. -/
def Canonical : JsonValue → Prop
  | .int n => (Nat.toDigits 10 n.natAbs).length ≤ intMaxStrDigits
  | .float _ => False
  | .array items => CanonicalItems items
  | .object members => (members.map Prod.fst).Pairwise (· < ·) ∧ CanonicalMembers members
  | .null | .bool _ | .string _ => True

def CanonicalItems : List JsonValue → Prop
  | [] => True
  | v :: items => v.Canonical ∧ CanonicalItems items

def CanonicalMembers : List (String × JsonValue) → Prop
  | [] => True
  | (_, v) :: members => v.Canonical ∧ CanonicalMembers members

end

/-- Texts of values begin with a character of their own. -/
theorem dumpChars_cons {v : JsonValue} (h : v.Canonical) : ∃ c cs, dumpChars v = c :: cs ∧
    isBlank c = false ∧ c ≠ ']' ∧ c ≠ '}' := by
  cases v with
  | null => exact ⟨'n', _, rfl, rfl, by decide, by decide⟩
  | bool b =>
    cases b
    · exact ⟨'f', _, rfl, rfl, by decide, by decide⟩
    · exact ⟨'t', _, rfl, rfl, by decide, by decide⟩
  | int n =>
    rw [dumpChars, intText]
    split_ifs with hneg
    · exact ⟨'-', _, rfl, rfl, by decide, by decide⟩
    · obtain ⟨c, cs, hcs⟩ := List.exists_cons_of_ne_nil
        (Nat.toDigits_ne_nil : Nat.toDigits 10 n.natAbs ≠ [])
      have hdigit : Text.isDigit c = true := isDigit_toDigits (hcs ▸ List.mem_cons_self)
      refine ⟨c, cs, hcs, ?_, ?_, ?_⟩
      · simp only [isBlank, Bool.or_eq_false_iff, beq_eq_false_iff_ne]
        refine ⟨⟨⟨?_, ?_⟩, ?_⟩, ?_⟩ <;> rintro rfl <;> cases hdigit
      · rintro rfl
        cases hdigit
      · rintro rfl
        cases hdigit
  | float text => exact h.elim
  | string s => exact ⟨'"', _, rfl, rfl, by decide, by decide⟩
  | array items => exact ⟨'[', _, rfl, rfl, by decide, by decide⟩
  | object members => exact ⟨'{', _, rfl, rfl, by decide, by decide⟩

theorem skipBlanks_cons {c : Char} (h : isBlank c = false) (cs : List Char) :
    skipBlanks (c :: cs) = c :: cs :=
  List.dropWhile_cons_of_neg (by simp [h])

theorem skipBlanks_dumpChars {v : JsonValue} (h : v.Canonical) (cs : List Char) :
    skipBlanks (dumpChars v ++ cs) = dumpChars v ++ cs := by
  obtain ⟨c, ds, hv, hblank, -⟩ := dumpChars_cons h
  rw [hv, List.cons_append, skipBlanks_cons hblank]

/-- Text that begins with a digit is read as a number. -/
theorem readValue_digit {fuel : Nat} {c : Char} (h : Text.isDigit c = true) (cs : List Char) :
    readValue (fuel + 1) (c :: cs) = readUnsigned (c :: cs) ∧
      readValue (fuel + 1) ('-' :: c :: cs) =
        (readUnsigned (c :: cs)).map fun r => (negate r.1, r.2) := by
  have hchar : ∃ k < 10, c = Nat.digitChar k := by
    simp only [Text.isDigit, Text.inRange, Bool.and_eq_true, decide_eq_true_eq] at h
    have hfirst : 48 ≤ c.toNat := h.1
    have hlast : c.toNat ≤ 57 := h.2
    refine ⟨c.toNat - 48, by omega, ?_⟩
    rw [← Char.toNat_inj, Nat.toNat_digitChar_of_lt_ten (by omega)]
    omega
  obtain ⟨k, hk, rfl⟩ := hchar
  interval_cases k <;> exact ⟨rfl, rfl⟩

theorem readValue_intText {fuel : Nat} {n : Int} {rest : List Char}
    (h : (Nat.toDigits 10 n.natAbs).length ≤ intMaxStrDigits) (hrest : EndsNumber rest) :
    readValue (fuel + 1) (intText n ++ rest) = some (.int n, rest) := by
  obtain ⟨c, cs, hcs⟩ := List.exists_cons_of_ne_nil
    (Nat.toDigits_ne_nil : Nat.toDigits 10 n.natAbs ≠ [])
  have hdigit : Text.isDigit c = true := isDigit_toDigits (hcs ▸ List.mem_cons_self)
  have hread := readUnsigned_toDigits h hrest
  rw [hcs, List.cons_append] at hread
  obtain ⟨hpositive, hnegative⟩ := @readValue_digit fuel c hdigit (cs ++ rest)
  unfold intText
  split_ifs with hneg <;> rw [hcs]
  · rw [List.cons_append, List.cons_append, hnegative, hread, Option.map_some, negate]
    congr 3
    omega
  · rw [List.cons_append, hpositive, hread]
    congr 3
    omega

/-- A key after all others comes last. -/
theorem set_last {o : JsonObject} {key : String} (h : ∀ k ∈ o.map Prod.fst, k < key)
    (v : JsonValue) : o.set key v = o ++ [(key, v)] := by
  induction o with
  | nil => rfl
  | cons m o ih =>
    obtain ⟨k, w⟩ := m
    have hlt : k < key := h k (by simp)
    rw [JsonObject.set, if_neg hlt.ne, if_neg hlt.asymm,
      ih fun k' hk' => h k' (List.mem_cons_of_mem _ hk')]
    rfl

/-- Members in key order are the members of an object. -/
theorem toObject_sorted {members : List (String × JsonValue)}
    (h : (members.map Prod.fst).Pairwise (· < ·)) : toObject members = members := by
  induction members using List.reverseRecOn with
  | nil => rfl
  | append_singleton members m ih =>
    rw [List.map_append, List.pairwise_append] at h
    have hlt : ∀ k ∈ members.map Prod.fst, k < m.1 := fun k hk => h.2.2 k hk m.1 (by simp)
    rw [toObject, List.foldl_append]
    show JsonObject.set m.1 m.2 (toObject members) = _
    rw [ih h.1, set_last hlt]

theorem readValue_array {fuel : Nat} {c : Char} (hblank : isBlank c = false) (hc : c ≠ ']')
    (cs : List Char) : readValue (fuel + 1) ('[' :: c :: cs) =
      (readItems fuel (c :: cs)).map fun r => (.array r.1, r.2) := by
  simp only [readValue, skipBlanks_cons hblank]
  split
  · rename_i heq
    cases heq
    exact absurd rfl hc
  · rfl

theorem readValue_object {fuel : Nat} (cs : List Char) : readValue (fuel + 1) ('{' :: '"' :: cs) =
    (readMembers fuel ('"' :: cs)).map fun r => (.object (toObject r.1), r.2) := rfl

/-- What has been written is read back with this much fuel. -/
structure ReadsBack (fuel : Nat) : Prop where
  value : ∀ (v : JsonValue) (rest : List Char), v.Canonical →
    2 * (dumpChars v).length ≤ fuel + 1 → EndsNumber rest →
    readValue fuel (dumpChars v ++ rest) = some (v, rest)
  items : ∀ (v : JsonValue) (items : List JsonValue) (rest : List Char), v.Canonical →
    CanonicalItems items → 2 * (dumpItems (v :: items)).length ≤ fuel →
    readItems fuel (dumpItems (v :: items) ++ ']' :: rest) = some (v :: items, rest)
  members : ∀ (key : String) (v : JsonValue) (members : List (String × JsonValue))
    (rest : List Char), v.Canonical → CanonicalMembers members →
    2 * (dumpMembers ((key, v) :: members)).length ≤ fuel →
    readMembers fuel (dumpMembers ((key, v) :: members) ++ '}' :: rest) =
      some ((key, v) :: members, rest)

section

variable {fuel : Nat} {rest : List Char}

theorem ReadsBack.value_succ (ih : ReadsBack fuel) {v : JsonValue} (h : v.Canonical)
    (hfuel : 2 * (dumpChars v).length ≤ fuel + 1 + 1) (hrest : EndsNumber rest) :
    readValue (fuel + 1) (dumpChars v ++ rest) = some (v, rest) := by
  cases v with
  | null => rfl
  | bool b => cases b <;> rfl
  | int n => exact readValue_intText h hrest
  | float text => exact h.elim
  | string s =>
    show (readString (s.toList.flatMap escapeChar ++ ['"'] ++ rest)).map _ = _
    rw [List.append_assoc, List.singleton_append, readString_escape]
    rfl
  | array items =>
    cases items with
    | nil => rfl
    | cons v items =>
      simp only [dumpChars, List.length_cons, List.length_append] at hfuel
      have hread := ih.items v items rest h.1 h.2 (by omega)
      obtain ⟨c, cs, hv, hblank, hbracket, -⟩ := dumpChars_cons h.1
      simp only [dumpChars, dumpItems, hv, List.cons_append, List.append_assoc, List.nil_append]
        at hread ⊢
      rw [readValue_array hblank hbracket, hread]
      rfl
  | object members =>
    cases members with
    | nil => rfl
    | cons m members =>
      obtain ⟨key, v⟩ := m
      simp only [dumpChars, List.length_cons, List.length_append] at hfuel
      have hread := ih.members key v members rest h.2.1 h.2.2 (by omega)
      simp only [dumpChars, dumpMembers, quoted, List.cons_append, List.append_assoc,
        List.nil_append] at hread ⊢
      rw [readValue_object, hread, Option.map_some, toObject_sorted h.1]

theorem ReadsBack.items_succ (ih : ReadsBack fuel) {v : JsonValue} {items : List JsonValue}
    (h : v.Canonical) (hitems : CanonicalItems items)
    (hfuel : 2 * (dumpItems (v :: items)).length ≤ fuel + 1) :
    readItems (fuel + 1) (dumpItems (v :: items) ++ ']' :: rest) = some (v :: items, rest) := by
  simp only [dumpItems, List.length_append] at hfuel
  cases items with
  | nil =>
    have hread := ih.value v (']' :: rest) h (by omega) (by simp [EndsNumber])
    simp only [dumpItems, dumpNextItems, List.append_nil, readItems, hread]
    rfl
  | cons w items =>
    have hread := ih.value v (',' :: (dumpItems (w :: items) ++ ']' :: rest)) h (by omega)
      (by simp [EndsNumber])
    have hnext := ih.items w items rest hitems.1 hitems.2 (by
      simp only [dumpNextItems, dumpItems, List.length_cons, List.length_append] at hfuel ⊢
      omega)
    have htext : dumpItems (v :: w :: items) ++ ']' :: rest =
        dumpChars v ++ ',' :: (dumpItems (w :: items) ++ ']' :: rest) := by
      simp [dumpItems, dumpNextItems]
    have hskip : skipBlanks (dumpItems (w :: items) ++ ']' :: rest) =
        dumpItems (w :: items) ++ ']' :: rest := by
      rw [dumpItems, List.append_assoc, skipBlanks_dumpChars hitems.1]
    rw [htext]
    simp only [readItems, hread, Option.bind_eq_bind, Option.bind_some,
      skipBlanks_cons (show isBlank ',' = false from rfl), hskip, hnext]
    rfl

theorem ReadsBack.members_succ (ih : ReadsBack fuel) {key : String} {v : JsonValue}
    {members : List (String × JsonValue)} (h : v.Canonical) (hmembers : CanonicalMembers members)
    (hfuel : 2 * (dumpMembers ((key, v) :: members)).length ≤ fuel + 1) :
    readMembers (fuel + 1) (dumpMembers ((key, v) :: members) ++ '}' :: rest) =
      some ((key, v) :: members, rest) := by
  simp only [dumpMembers, List.length_append, List.length_cons] at hfuel
  have htext : ∀ tail : List Char, dumpMembers ((key, v) :: members) ++ tail =
      '"' :: (key.toList.flatMap escapeChar ++ '"' :: ':' ::
        (dumpChars v ++ (dumpNextMembers members ++ tail))) := by
    intro tail
    simp [dumpMembers, quoted]
  rw [htext]
  simp only [readMembers, readString_escape, Option.bind_eq_bind, Option.bind_some,
    skipBlanks_cons (show isBlank ':' = false from rfl), skipBlanks_dumpChars h]
  cases members with
  | nil =>
    have hread := ih.value v ('}' :: rest) h (by omega) (by simp [EndsNumber])
    simp only [dumpNextMembers, List.nil_append, hread]
    rfl
  | cons m members =>
    obtain ⟨key', w⟩ := m
    have hread := ih.value v (',' :: (dumpMembers ((key', w) :: members) ++ '}' :: rest)) h
      (by omega) (by simp [EndsNumber])
    have hnext := ih.members key' w members rest hmembers.1 hmembers.2 (by
      simp only [dumpNextMembers, dumpMembers, List.length_cons, List.length_append] at hfuel ⊢
      omega)
    have hrest : dumpNextMembers ((key', w) :: members) ++ '}' :: rest =
        ',' :: (dumpMembers ((key', w) :: members) ++ '}' :: rest) := by
      simp [dumpMembers, dumpNextMembers]
    have hskip : skipBlanks (dumpMembers ((key', w) :: members) ++ '}' :: rest) =
        dumpMembers ((key', w) :: members) ++ '}' :: rest := by
      rw [dumpMembers, quoted]
      exact skipBlanks_cons rfl _
    rw [hrest, hread]
    simp only [Option.bind_some, skipBlanks_cons (show isBlank ',' = false from rfl), hskip, hnext]
    rfl

end

theorem readsBack (fuel : Nat) : ReadsBack fuel := by
  induction fuel with
  | zero =>
    have hpos : ∀ {v : JsonValue}, v.Canonical → 0 < (dumpChars v).length := by
      intro v h
      obtain ⟨c, cs, hv, -⟩ := dumpChars_cons h
      simp [hv]
    refine ⟨fun v rest h hfuel => ?_, fun v items rest h _ hfuel => ?_,
      fun key v members rest h _ hfuel => ?_⟩
    · have := hpos h
      omega
    · have := hpos h
      simp only [dumpItems, List.length_append] at hfuel
      omega
    · have := hpos h
      simp only [dumpMembers, List.length_append, List.length_cons] at hfuel
      omega
  | succ fuel ih =>
    exact ⟨fun _ _ => ih.value_succ, fun _ _ _ => ih.items_succ, fun _ _ _ _ => ih.members_succ⟩

/-- A value is read back from its text, and from its text with blanks after it. -/
theorem loads_dumps {v : JsonValue} (h : v.Canonical) {blanks : String}
    (hblanks : ∀ c ∈ blanks.toList, c = '\n') : loads (dumps v ++ blanks) = some v := by
  have hends : EndsNumber blanks.toList := by
    intro c hc
    rw [hblanks c (List.mem_of_mem_head? hc)]
    simp
  have hskip : skipBlanks blanks.toList = [] := by
    rw [skipBlanks, List.dropWhile_eq_nil_iff]
    intro c hc
    rw [hblanks c hc]
    rfl
  have hread := (readsBack (2 * (dumps v ++ blanks).toList.length)).value v blanks.toList h
    (by simp only [dumps, String.toList_append, String.toList_ofList, List.length_append]; omega)
    hends
  simp only [loads, dumps, String.toList_append, String.toList_ofList, skipBlanks_dumpChars h]
    at hread ⊢
  rw [hread]
  simp [hskip]

end AIHub.JsonValue
