import AIHub.Lib.Substitution
import Mathlib.Data.Bool.AllAny

/-!
# Patterns of credentials

The character classes of the patterns with which credentials are found in texts, and the patterns
that the redactors of logs, of gateway texts and of runtime outputs have in common.

Which characters beyond ASCII are letters or digits is a parameter of the patterns.
-/

namespace AIHub

open Regex

/-! ## Characters -/

/-- White space, `\s`. -/
def isBlank (c : Char) : Bool := Text.isSpace c || (0x1C ≤ c.toNat && c.toNat ≤ 0x1F)

/-- The class `[A-Za-z]` of a pattern that ignores case. Four characters beyond ASCII are taken for
letters. -/
def isLetterIgnoringCase (c : Char) : Bool :=
  Text.isLower c || Text.isUpper c || c.toNat == 0x130 || c.toNat == 0x131 || c.toNat == 0x17F ||
    c.toNat == 0x212A

def isAlnumIgnoringCase (c : Char) : Bool := Text.isDigit c || isLetterIgnoringCase c

/-- The word characters, `\w`. -/
def isWord (alnum : Char → Bool) (c : Char) : Bool :=
  isAlnumIgnoringCase c || c == '_' || (0x80 ≤ c.toNat && alnum c && !isBlank c)

/-- A lower case letter of a pattern that ignores case. -/
def sameLetter (p c : Char) : Bool :=
  c == p || c == p.toUpper || (p == 'i' && (c.toNat == 0x130 || c.toNat == 0x131)) ||
    (p == 's' && c.toNat == 0x17F) || (p == 'k' && c.toNat == 0x212A)

/-- The class `[_-]`. -/
def isJoint (c : Char) : Bool := c == '_' || c == '-'

/-- The class `[:=]`. -/
def isAssign (c : Char) : Bool := c == ':' || c == '='

/-- The class `[^\s,;]`. -/
def isValue (c : Char) : Bool := !(isBlank c || c == ',' || c == ';')

theorem not_alnum_of_blank {c : Char} (h : isBlank c = true) :
    (isAlnumIgnoringCase c || c == '_') = false := by
  have hunderscore : c ≠ '_' := by
    rintro rfl
    cases h
  simp only [isBlank, Text.isSpace, Bool.or_eq_true, Bool.and_eq_true, decide_eq_true_eq,
    beq_iff_eq] at h
  simp only [isAlnumIgnoringCase, isLetterIgnoringCase, Text.isDigit, Text.isLower, Text.isUpper,
    Text.inRange, Bool.or_eq_false_iff, Bool.and_eq_false_iff, decide_eq_false_iff_not,
    beq_eq_false_iff_ne, Char.reduceToNat, ne_eq, hunderscore, not_false_eq_true, and_true]
  omega

theorem isWord_of_blank {alnum : Char → Bool} {c : Char} (h : isBlank c = true) :
    isWord alnum c = false := by
  rw [isWord, not_alnum_of_blank h, h]
  simp

theorem isWord_of_alnum {alnum : Char → Bool} {c : Char} (h : isAlnumIgnoringCase c = true) :
    isWord alnum c = true := by
  rw [isWord, h]
  rfl

theorem isValue_of_word {alnum : Char → Bool} {c : Char} (h : isWord alnum c = true) :
    isValue c = true := by
  have hblank : isBlank c = false :=
    Bool.eq_false_iff.2 fun hb => Bool.false_ne_true ((isWord_of_blank hb).symm.trans h)
  have hcomma : c ≠ ',' := by
    rintro rfl
    cases h
  have hsemicolon : c ≠ ';' := by
    rintro rfl
    cases h
  simp [isValue, hblank, hcomma, hsemicolon]

/-! ## Patterns -/

/-- A lower case text of a pattern that ignores case. -/
def ignoringCase (s : String) : Regex := concat (s.toList.map fun p => char (sameLetter p))

/-- Two words with `[_-]?` between them. -/
def twoWords (s t : String) : Regex :=
  concat [ignoringCase s, opt (char isJoint), ignoringCase t]

/-- `\s*[:=]\s*`. -/
def assignmentSign : Regex :=
  concat [star true (char isBlank), char isAssign, star true (char isBlank)]

/-- `[A-Z0-9 ]*PRIVATE KEY`. -/
def pemLabel : Regex :=
  concat [star true (char fun c => Text.isUpper c || Text.isDigit c || c == ' '),
    literal "PRIVATE KEY"]

/-- `-----BEGIN ([A-Z0-9 ]*PRIVATE KEY)-----.*?-----END \1-----`. -/
def pemPrivateKey : Regex :=
  concat [literal "-----BEGIN ", group 1 pemLabel, literal "-----", star false (char fun _ => true),
    literal "-----END ", backref 1, literal "-----"]

/-- `\b(?:gh[pousr]_[A-Za-z0-9]{20,}|github_pat_[A-Za-z0-9_]{20,})\b`. -/
def githubToken : Regex :=
  concat [boundary,
    oneOf
      [concat [literal "gh", char "pousr".toList.contains, literal "_",
        atLeast 20 (char Text.isAlnum)],
        concat [literal "github_pat_", atLeast 20 (char fun c => Text.isAlnum c || c == '_')]],
    boundary]

/-- `(?i)\bBearer\s+[A-Za-z0-9._~+/=-]+`. -/
def bearerSecret : Regex :=
  concat [boundary, ignoringCase "bearer", plus (char isBlank),
    plus (char fun c => isAlnumIgnoringCase c || "._~+/=-".toList.contains c)]

theorem needs_ignoringCase {word q : Char → Bool} {s : String} {p : Char} (hp : p ∈ s.toList)
    (h : ∀ c, sameLetter p c = true → q c = true) : Needs word q (ignoringCase s) :=
  .concat (needs_char h) (List.mem_map_of_mem (f := fun p => char (sameLetter p)) hp)

/-- A letter whose other case is a letter. -/
def isCased (p : Char) : Bool := isLetterIgnoringCase p && isLetterIgnoringCase p.toUpper

theorem letter_of_sameLetter {p c : Char} (hp : isCased p = true) (h : sameLetter p c = true) :
    isLetterIgnoringCase c = true := by
  obtain ⟨hlower, hupper⟩ := Bool.and_eq_true_iff.1 hp
  simp only [sameLetter, Bool.or_eq_true, Bool.and_eq_true, beq_iff_eq] at h
  rcases h with (((rfl | rfl) | ⟨_, h⟩) | ⟨_, h⟩) | ⟨_, h⟩
  · exact hlower
  · exact hupper
  · rcases h with h | h <;> simp [isLetterIgnoringCase, h]
  · simp [isLetterIgnoringCase, h]
  · simp [isLetterIgnoringCase, h]

theorem begins_ignoringCase {word : Char → Bool} {s : String}
    (h : s.toList.head?.any isCased = true) :
    Begins word isLetterIgnoringCase (ignoringCase s) := by
  unfold ignoringCase
  cases hs : s.toList with
  | nil =>
    rw [hs] at h
    cases h
  | cons p ps =>
    rw [hs] at h
    exact .concat (begins_char fun c hc => letter_of_sameLetter h hc) _

theorem ends_ignoringCase {word : Char → Bool} {s : String}
    (h : s.toList.getLast?.any isCased = true) :
    Ends word isLetterIgnoringCase (ignoringCase s) := by
  unfold ignoringCase
  rcases List.eq_nil_or_concat' s.toList with hs | ⟨ps, p, hs⟩
  · rw [hs] at h
    cases h
  · rw [hs, List.getLast?_append] at h
    rw [hs, List.map_append]
    exact .concat (ends_char fun c hc => letter_of_sameLetter h hc) _

theorem begins_twoWords {word : Char → Bool} {s t : String}
    (h : s.toList.head?.any isCased = true) : Begins word isLetterIgnoringCase (twoWords s t) :=
  .concat (begins_ignoringCase h) _

theorem ends_twoWords {word : Char → Bool} {s t : String}
    (h : t.toList.getLast?.any isCased = true) : Ends word isLetterIgnoringCase (twoWords s t) :=
  .concat (ends_ignoringCase h) [ignoringCase s, opt (char isJoint)]

theorem githubToken_needs {alnum : Char → Bool} : Needs (isWord alnum) (· == '_') githubToken := by
  have hshort : Needs (isWord alnum) (· == '_')
      (concat [literal "gh", char "pousr".toList.contains, literal "_",
        atLeast 20 (char Text.isAlnum)]) :=
    .seq_right (.seq_right (.seq_left (needs_literal (c := '_') (by decide) rfl) _) _) _
  have hlong : Needs (isWord alnum) (· == '_')
      (concat [literal "github_pat_", atLeast 20 (char fun c => Text.isAlnum c || c == '_')]) :=
    .seq_left (needs_literal (c := '_') (by decide) rfl) _
  exact .seq_right (.seq_left (.alt hshort hlong) _) _

/-! ## Assignments -/

/-- A colon or an equals sign between blanks. -/
def IsAssignment (cs : List Char) : Prop :=
  ∃ a c b, cs = a ++ c :: b ∧ (∀ x ∈ a, isBlank x = true) ∧ isAssign c = true ∧
    ∀ x ∈ b, isBlank x = true

@[simp] theorem matches_assignment {word : Char → Bool} {prev : Option Char} {w rest : List Char}
    {groups groups' : Groups} :
    Matches word assignmentSign prev w rest groups groups' ↔ IsAssignment w ∧ groups' = groups := by
  simp only [assignmentSign, concat, matches_seq, matches_star_char, matches_char]
  constructor
  · intro h
    obtain ⟨a, _, _, rfl, ⟨ha, rfl⟩, _, b, _, rfl, ⟨c, rfl, hc, rfl⟩, hb, rfl⟩ := h
    exact ⟨⟨a, c, b, rfl, ha, hc, hb⟩, rfl⟩
  · intro h
    obtain ⟨⟨a, c, b, rfl, ha, hc, hb⟩, rfl⟩ := h
    exact ⟨a, c :: b, _, rfl, ⟨ha, rfl⟩, [c], b, _, rfl, ⟨c, rfl, hc, rfl⟩, hb, rfl⟩

/-- The one character of a class in a text is where the text has been put together. -/
theorem append_cons_inj {p : Char → Bool} {t v z y : List Char} {c d : Char}
    (ht : ∀ x ∈ t, p x = false) (hv : ∀ x ∈ v, p x = false) (hc : p c = true)
    (h : t ++ d :: v = z ++ c :: y) : t = z ∧ d = c ∧ v = y := by
  rcases List.append_eq_append_iff.1 h with ⟨a, rfl, hrest⟩ | ⟨a, rfl, hrest⟩
  · cases a with
    | nil =>
      obtain ⟨rfl, rfl⟩ := List.cons.inj hrest
      exact ⟨(List.append_nil t).symm, rfl, rfl⟩
    | cons x a =>
      obtain ⟨rfl, rfl⟩ := List.cons.inj hrest
      exact absurd hc (Bool.eq_false_iff.1 (hv c (List.mem_append_right a List.mem_cons_self)))
  · cases a with
    | nil =>
      obtain ⟨rfl, rfl⟩ := List.cons.inj hrest
      exact ⟨List.append_nil z, rfl, rfl⟩
    | cons x a =>
      obtain ⟨rfl, rfl⟩ := List.cons.inj hrest
      exact absurd hc (Bool.eq_false_iff.1 (ht c (List.mem_append_right z List.mem_cons_self)))

theorem IsAssignment.head (alnum : Char → Bool) {cs : List Char} (h : IsAssignment cs) :
    cs.head?.any (isWord alnum) = false := by
  obtain ⟨a, c, b, rfl, ha, hc, hb⟩ := h
  cases a with
  | nil =>
    rcases Bool.or_eq_true_iff.1 hc with hc | hc
    · obtain rfl := beq_iff_eq.1 hc
      rfl
    · obtain rfl := beq_iff_eq.1 hc
      rfl
  | cons x a => exact isWord_of_blank (ha x List.mem_cons_self)

/-! ## Blocks of private keys -/

section

variable {word : Char → Bool} {prev : Option Char} {w rest : List Char} {groups : Groups}

end

end AIHub
