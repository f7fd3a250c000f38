import AIHub.Observability.Patterns
import AIHub.Observability.Redaction

/-!
# Redaction of texts

`redactText` replaces credentials in a text, one pattern after the other. A secret that is logged as
a field is found by its key (`isSecretKey`). Written as `key=value`, it is found by a pattern with
names of its own.

* `hiddenAlike_iff`: a value that is hidden as a field is hidden in the text `key=value` exactly if
  the key, after its tokens have been replaced, ends in a name of the pattern.
-/

namespace AIHub

open Regex

/-! ## The patterns -/

/-- `\b(?:xox[baprs]-|xapp-)[A-Za-z0-9-]+\b`. -/
def slackToken : Regex :=
  concat [boundary,
    oneOf [concat [literal "xox", char "baprs".toList.contains, literal "-"], literal "xapp-"],
    plus (char fun c => Text.isAlnum c || c == '-'), boundary]

/-- `\bsk-[A-Za-z0-9_-]{8,}\b`. -/
def openaiToken : Regex :=
  concat [boundary, literal "sk-", atLeast 8 (char fun c => Text.isAlnum c || isJoint c), boundary]

/-- The names of secrets in a text. -/
def secretName : Regex :=
  oneOf
    [concat [star true (concat [plus (char isAlnumIgnoringCase), char isJoint]),
      ignoringCase "api", opt (char isJoint), ignoringCase "key"],
      ignoringCase "password",
      twoWords "client" "secret",
      twoWords "access" "token",
      twoWords "refresh" "token",
      ignoringCase "authorization"]

/-- `\b((name)\s*[:=]\s*)([^\s,;]+)`, with the names of `secretName`. -/
def assignedSecret : Regex :=
  concat [boundary, group 1 (concat [group 2 secretName, assignmentSign]),
    group 3 (plus (char isValue))]

/-- `(?i)(https?://)([^:/@\s]+):([^@\s]+)@`. -/
def urlCredentials : Regex :=
  concat [group 1 (concat [ignoringCase "http", opt (ignoringCase "s"), literal "://"]),
    group 2 (plus (char fun c => !(":/@".toList.contains c || isBlank c))), literal ":",
    group 3 (plus (char fun c => !(c == '@' || isBlank c))), literal "@"]

/-- What is written for a token. -/
def hideToken (_ : Found) : List Char := redacted.toList

/-- What is written for an assigned secret. -/
def hideAssigned (found : Found) : List Char := found.group 1 ++ redacted.toList

def textPatterns : List Pass :=
  [(pemPrivateKey, hideToken), (slackToken, hideToken), (openaiToken, hideToken),
    (githubToken, hideToken), (bearerSecret, fun _ => s!"Bearer {redacted}".toList),
    (assignedSecret, hideAssigned),
    (urlCredentials, fun found => found.group 1 ++ redacted.toList ++ ['@'])]

section

variable (alnum : Char → Bool)

def redactText (value : String) : String :=
  String.ofList (subAll (isWord alnum) textPatterns value.toList)

/-- A text after the patterns for tokens. -/
def redactTokens (cs : List Char) : List Char :=
  subAll (isWord alnum)
    [(slackToken, hideToken), (openaiToken, hideToken), (githubToken, hideToken)] cs

/-- A text with a name of a secret at its end. -/
def EndsInName (cs : List Char) : Prop :=
  ∃ before name groups, cs = before ++ name ∧
    Matches (isWord alnum) (seq boundary secretName) before.getLast? name [] [] groups

/-- The value of a secret key is hidden as a field and in the text `key=value`. -/
def HiddenAlike (key value : String) : Prop :=
  redactSecrets (redactText alnum) (.object [(key, .string value)]) =
      .object [(key, .string redacted)] ∧
    ¬ value.toList <:+: (redactText alnum (key ++ "=" ++ value)).toList

end

section

variable {alnum : Char → Bool} {f : Found → List Char}

/-! ## Tokens -/

/-- The text after a token pattern, for a text `key=value` whose value has no character that the
pattern needs. -/
theorem sub_assignment {r : Regex} {q : Char → Bool} (hr : r.consumes = true)
    (havoids : r.avoids '=' = true) (hneeds : Needs (isWord alnum) q r) (k : List Char)
    {v : List Char} (hv : ∀ c ∈ v, q c = false) :
    r.sub (isWord alnum) f (k ++ '=' :: v) = r.sub (isWord alnum) f k ++ '=' :: v := by
  rw [sub_append rfl havoids hr, sub_eq_self hneeds hv]

theorem slackToken_needs : Needs (isWord alnum) (· == '-') slackToken := by
  have hxox : Needs (isWord alnum) (· == '-')
      (concat [literal "xox", char "baprs".toList.contains, literal "-"]) :=
    .seq_right (.seq_right (needs_literal (c := '-') (by decide) rfl) _) _
  have hxapp : Needs (isWord alnum) (· == '-') (literal "xapp-") :=
    needs_literal (c := '-') (by decide) rfl
  exact .seq_right (.seq_left (.alt hxox hxapp) _) _

theorem openaiToken_needs : Needs (isWord alnum) (· == '-') openaiToken :=
  .seq_right (.seq_left (needs_literal (c := '-') (by decide) rfl) _) _

/-- Tokens are looked for in the key alone. -/
theorem redactTokens_assignment (k : List Char) {v : List Char}
    (hv : ∀ c ∈ v, isJoint c = false) :
    redactTokens alnum (k ++ '=' :: v) = redactTokens alnum k ++ '=' :: v := by
  have hunderscore : ∀ c ∈ v, (c == '_') = false := fun c hc => (Bool.or_eq_false_iff.1 (hv c hc)).1
  have hdash : ∀ c ∈ v, (c == '-') = false := fun c hc => (Bool.or_eq_false_iff.1 (hv c hc)).2
  simp only [redactTokens, subAll, List.foldl_cons, List.foldl_nil]
  rw [sub_assignment rfl rfl slackToken_needs k hdash,
    sub_assignment rfl rfl openaiToken_needs _ hdash,
    sub_assignment rfl rfl githubToken_needs _ hunderscore]

theorem mem_redactTokens {k : List Char} {c : Char} (h : c ∈ redactTokens alnum k) :
    c ∈ k ∨ c ∈ redacted.toList := by
  rcases mem_sub rfl h with h | ⟨_, h⟩
  · rcases mem_sub rfl h with h | ⟨_, h⟩
    · exact (mem_sub rfl h).imp_right fun h => h.elim fun _ h => h
    · exact .inr h
  · exact .inr h

theorem redacted_eq : redacted.toList = '[' :: ("REDACTED".toList ++ [']']) := by decide

/-- A text without brackets that stands in the text after the token patterns stands in the text
before, or in `REDACTED`. -/
theorem infix_redactTokens {ℓ k : List Char} (hopen : '[' ∉ ℓ) (hclose : ']' ∉ ℓ)
    (h : ℓ <:+: redactTokens alnum k) : ℓ <:+: k ∨ ℓ <:+: "REDACTED".toList := by
  have hsub : ∀ {r : Regex} {cs : List Char}, r.consumes = true →
      ℓ <:+: r.sub (isWord alnum) hideToken cs → ℓ <:+: cs ∨ ℓ <:+: "REDACTED".toList :=
    fun hr h => infix_sub_of_enclosed hr hopen hclose (fun _ => redacted_eq) h
  rcases hsub rfl h with h | h
  · rcases hsub rfl h with h | h
    · exact hsub rfl h
    · exact .inr h
  · exact .inr h

/-! ## Assigned secrets -/

/-- What the pattern for assigned secrets takes: a name, an assignment and the whole run of
characters of a value. -/
theorem assignedSecret_first {prev : Option Char} {w rest : List Char} {groups : Groups}
    (h : assignedSecret.first (isWord alnum) prev (w ++ rest) = some ⟨w, groups⟩) :
    ∃ name sep value groups₁, w = name ++ (sep ++ value) ∧
      Matches (isWord alnum) (seq boundary secretName) prev name (sep ++ value ++ rest) []
        groups₁ ∧
      IsAssignment sep ∧ value ≠ [] ∧ (∀ c ∈ value, isValue c = true) ∧
      (∀ c ∈ rest.head?, isValue c = false) ∧ Found.group ⟨w, groups⟩ 1 = name ++ sep := by
  have hstop : StopsAt (isWord alnum) isValue assignedSecret :=
    .seq (.seq (.group (stopsAt_plus isValue) 3) _) _
  have hrest := hstop _ _ _ _ _ h
  have hmatch := matches_of_first h
  simp only [assignedSecret, concat, matches_seq, matches_group, matches_boundary,
    matches_plus_char, matches_assignment] at hmatch
  obtain ⟨_, _, _, rfl, ⟨rfl, hboundary, rfl⟩, _, value, _, rfl,
    ⟨_, ⟨name, sep, _, rfl, ⟨groups₁, hname, rfl⟩, hsep, rfl⟩, rfl⟩, _, ⟨hne, hvalue, rfl⟩,
    rfl⟩ := hmatch
  refine ⟨name, sep, value, groups₁, by simp, ?_, hsep, hne, hvalue, hrest, rfl⟩
  rw [matches_seq]
  refine ⟨[], name, [], rfl, ?_, by simpa using hname⟩
  rw [matches_boundary]
  exact ⟨rfl, by simpa using hboundary, rfl⟩

/-- A name before an assignment and a value is a match. -/
theorem matches_assignedSecret {prev : Option Char} {name v : List Char} {groups : Groups}
    (h : Matches (isWord alnum) (seq boundary secretName) prev name [] [] groups) (hne : v ≠ [])
    (hv : ∀ c ∈ v, isValue c = true) : ∃ groups',
      Matches (isWord alnum) assignedSecret prev (name ++ '=' :: v) [] [] groups' := by
  have hname : Matches (isWord alnum) (seq boundary secretName) prev name ('=' :: v) [] groups := by
    unfold Matches at h ⊢
    rwa [List.append_nil, ← matchesAt_append (c := '=') rfl rfl prev name v []] at h
  rw [matches_seq] at hname
  obtain ⟨_, name, _, rfl, hboundary, hname⟩ := hname
  obtain ⟨rfl, hboundary, rfl⟩ := matches_boundary.1 hboundary
  have hassign : IsAssignment ['='] :=
    ⟨[], '=', [], rfl, List.forall_mem_nil _, rfl, List.forall_mem_nil _⟩
  simp only [assignedSecret, concat, matches_seq, matches_group, matches_boundary,
    matches_plus_char, matches_assignment]
  refine ⟨_, [], _, [], rfl, ⟨rfl, ?_, rfl⟩, name ++ ['='], v, _, ?_, ⟨_, ⟨name, ['='], _, rfl,
    ⟨groups, ?_, rfl⟩, hassign, rfl⟩, rfl⟩, _, ⟨hne, hv, rfl⟩, rfl⟩
  · simpa using hboundary
  · simp
  · simpa using hname

/-- A text with one assignment. It is hidden if a name of a secret ends before the assignment. -/
theorem sub_assignedSecret {t v : List Char}
    (ht : ∀ c ∈ t, isBlank c = false ∧ isAssign c = false) (hne : v ≠ [])
    (hv : ∀ c ∈ v, isValue c = true ∧ isAssign c = false) :
    (EndsInName alnum t → assignedSecret.sub (isWord alnum) hideAssigned (t ++ '=' :: v) =
      t ++ '=' :: redacted.toList) ∧
    (¬ EndsInName alnum t →
      assignedSecret.sub (isWord alnum) hideAssigned (t ++ '=' :: v) = t ++ '=' :: v) := by
  have hscan : Scanned (isWord alnum) assignedSecret none (t ++ '=' :: v) _ := scanned rfl none _
  rcases hscan.first_hit with
    ⟨hpieces, hnone⟩ | ⟨before, w, groups, rest, qs, hcs, hpieces, hfirst, hqs⟩
  · -- no match: the text stays, and no name ends at the assignment
    refine ⟨fun hends => ?_, fun _ => ?_⟩
    · obtain ⟨before, name, groups, rfl, hname⟩ := hends
      obtain ⟨groups', hmatch⟩ := matches_assignedSecret hname hne fun c hc => (hv c hc).1
      have hfirst := hnone before (name ++ '=' :: v) (List.append_assoc _ _ _) (by simp)
      refine absurd ?_ (first_eq_none.1 hfirst _ [] groups' (List.append_nil _).symm)
      rwa [lastOf, Option.or_none]
    · rw [sub, scan, hpieces, render_kept]
  · -- the match takes the name, the assignment and the whole value
    obtain ⟨name, sep, value, groups₁, rfl, hname, ⟨a, c, b, rfl, ha, hc, hb⟩, -, hvalue, hstop,
      hgroup⟩ := assignedSecret_first hfirst
    obtain ⟨rfl, rfl, rfl⟩ := append_cons_inj (z := before ++ name ++ a)
      (y := b ++ (value ++ rest)) (fun x hx => (ht x hx).2) (fun x hx => (hv x hx).2) hc
      (hcs.trans (by simp))
    obtain rfl : a = [] := List.eq_nil_iff_forall_not_mem.2 fun x hx =>
      Bool.false_ne_true ((ht x (List.mem_append_right _ hx)).1.symm.trans (ha x hx))
    obtain rfl : b = [] := List.eq_nil_iff_forall_not_mem.2 fun x hx => by
      have hx' := (hv x (List.mem_append_left _ hx)).1
      simp [isValue, hb x hx] at hx'
    obtain rfl : rest = [] := by
      cases rest with
      | nil => rfl
      | cons x rest =>
        have hx := (hv x (by simp)).1
        exact absurd hx (Bool.eq_false_iff.1 (hstop x rfl))
    obtain rfl : qs = [] := hqs.eq_scanFrom.trans (by rw [scanFrom])
    refine ⟨fun _ => ?_, fun hends => absurd ⟨before, name, groups₁, by simp, ?_⟩ hends⟩
    · rw [sub, scan, hpieces, render_append, render_kept]
      change before ++ (Found.group _ 1 ++ redacted.toList ++ []) = _
      rw [hgroup]
      simp
    · unfold Matches at hname ⊢
      rw [lastOf, Option.or_none] at hname
      rw [List.append_nil, ← matchesAt_append (c := '=') rfl rfl _ name value []]
      simpa using hname

/-! ## Fields and texts -/

/-- The patterns that a text `key=value` passes unchanged. -/
theorem sub_plain {r : Regex} {q : Char → Bool} {t v : List Char}
    (hneeds : Needs (isWord alnum) q r) (heq : q '=' = false) (ht : ∀ c ∈ t, q c = false)
    (hv : ∀ c ∈ v, q c = false) :
    r.sub (isWord alnum) f (t ++ '=' :: v) = t ++ '=' :: v := by
  refine sub_eq_self hneeds fun c hc => ?_
  rcases List.mem_append.1 hc with hc | hc
  · exact ht c hc
  · rcases List.mem_cons.1 hc with rfl | hc
    · exact heq
    · exact hv c hc

theorem pemPrivateKey_needs : Needs (isWord alnum) isBlank pemPrivateKey :=
  .seq_left (needs_literal (c := ' ') (by decide) rfl) _

theorem bearerSecret_needs : Needs (isWord alnum) isBlank bearerSecret :=
  .seq_right (.seq_right (.seq_left (.seq_left (needs_char fun _ h => h) _) _) _) _

theorem urlCredentials_needs : Needs (isWord alnum) (· == ':') urlCredentials :=
  .seq_right (.seq_right (.seq_left (needs_literal (c := ':') (by decide) rfl) _) _) _

theorem redactText_toList (value : String) : (redactText alnum value).toList =
    urlCredentials.sub (isWord alnum) (fun found => found.group 1 ++ redacted.toList ++ ['@'])
      (assignedSecret.sub (isWord alnum) hideAssigned
        (bearerSecret.sub (isWord alnum) (fun _ => s!"Bearer {redacted}".toList)
          (redactTokens alnum (pemPrivateKey.sub (isWord alnum) hideToken value.toList)))) := by
  simp only [redactText, redactTokens, subAll, textPatterns, List.foldl_cons,
    List.foldl_nil, String.toList_ofList]

/-- Of the patterns, those for tokens and the one for assigned secrets concern `key=value`. -/
theorem redactText_assignment {key value : String}
    (hkey : ∀ c ∈ key.toList, isBlank c = false ∧ isAssign c = false) (hne : value ≠ "")
    (hvalue : ∀ c ∈ value.toList, isValue c = true ∧ isAssign c = false ∧ isJoint c = false) :
    (EndsInName alnum (redactTokens alnum key.toList) →
      (redactText alnum (key ++ "=" ++ value)).toList =
        redactTokens alnum key.toList ++ '=' :: redacted.toList) ∧
    (¬ EndsInName alnum (redactTokens alnum key.toList) →
      (redactText alnum (key ++ "=" ++ value)).toList =
        redactTokens alnum key.toList ++ '=' :: value.toList) := by
  have htokens : ∀ c ∈ redactTokens alnum key.toList, isBlank c = false ∧ isAssign c = false := by
    intro c hc
    rcases mem_redactTokens hc with hc | hc
    · exact hkey c hc
    · have hmarker : ∀ c ∈ redacted.toList, isBlank c = false ∧ isAssign c = false :=
        List.all_iff_forall_prop.1 (by decide)
      exact hmarker c hc
  have hblank : ∀ c ∈ value.toList, isBlank c = false := by
    intro c hc
    have h := (hvalue c hc).1
    simp only [isValue, Bool.not_eq_true', Bool.or_eq_false_iff] at h
    exact h.1.1
  have hcolon : ∀ {c}, isAssign c = false → (c == ':') = false := fun h =>
    (Bool.or_eq_false_iff.1 h).1
  have htext : (redactText alnum (key ++ "=" ++ value)).toList =
      urlCredentials.sub (isWord alnum) (fun found => found.group 1 ++ redacted.toList ++ ['@'])
        (assignedSecret.sub (isWord alnum) hideAssigned
          (redactTokens alnum key.toList ++ '=' :: value.toList)) := by
    have hstart : (key ++ "=" ++ value).toList = key.toList ++ '=' :: value.toList := by simp
    rw [redactText_toList, hstart,
      sub_plain pemPrivateKey_needs rfl (fun c hc => (hkey c hc).1) hblank,
      redactTokens_assignment _ fun c hc => (hvalue c hc).2.2,
      sub_plain bearerSecret_needs rfl (fun c hc => (htokens c hc).1) hblank]
  obtain ⟨hhidden, hshown⟩ := @sub_assignedSecret alnum _ value.toList htokens
    (fun h => hne (String.toList_inj.1 h)) fun c hc => ⟨(hvalue c hc).1, (hvalue c hc).2.1⟩
  constructor
  · intro hends
    rw [htext, hhidden hends]
    refine sub_plain urlCredentials_needs rfl (fun c hc => hcolon (htokens c hc).2) ?_
    exact List.all_iff_forall_prop.1 (by decide)
  · intro hends
    rw [htext, hshown hends]
    exact sub_plain urlCredentials_needs rfl (fun c hc => hcolon (htokens c hc).2)
      fun c hc => hcolon (hvalue c hc).2.1

/-- A value that is hidden under its key is hidden in the text `key=value` exactly if the key, after
its tokens have been replaced, ends in a name of the pattern for assigned secrets. -/
theorem hiddenAlike_iff (alnum : Char → Bool) (key value : String)
    (hkey : ∀ c ∈ key.toList, isWord alnum c = true ∨ c = '-') (hsecret : isSecretKey key = true)
    (hne : value ≠ "") (hvalue : ∀ c ∈ value.toList, isWord alnum c = true ∧ c ≠ '_')
    (hmarker : ¬ value.toList <:+: redacted.toList) (hapart : ¬ value.toList <:+: key.toList) :
    HiddenAlike alnum key value ↔ EndsInName alnum (redactTokens alnum key.toList) := by
  have hassign : ∀ {c}, isWord alnum c = true → isAssign c = false := by
    intro c hc
    refine Bool.eq_false_iff.2 fun h => ?_
    rcases Bool.or_eq_true_iff.1 h with h | h
    · obtain rfl := beq_iff_eq.1 h
      cases hc
    · obtain rfl := beq_iff_eq.1 h
      cases hc
  have hjoint : ∀ {c}, isWord alnum c = true → c ≠ '_' → isJoint c = false := by
    intro c hc hunderscore
    refine Bool.eq_false_iff.2 fun h => ?_
    rcases Bool.or_eq_true_iff.1 h with h | h
    · exact hunderscore (beq_iff_eq.1 h)
    · obtain rfl := beq_iff_eq.1 h
      cases hc
  have hkey' : ∀ c ∈ key.toList, isBlank c = false ∧ isAssign c = false := by
    intro c hc
    rcases hkey c hc with h | rfl
    · refine ⟨Bool.eq_false_iff.2 fun hb => ?_, hassign h⟩
      exact Bool.false_ne_true ((isWord_of_blank hb).symm.trans h)
    · exact ⟨by decide, by decide⟩
  have hother : ∀ d, isWord alnum d = false → d ∉ value.toList := fun d hd hmem =>
    Bool.false_ne_true (hd.symm.trans (hvalue d hmem).1)
  obtain ⟨hhidden, hshown⟩ := redactText_assignment hkey' hne fun c hc =>
    ⟨isValue_of_word (hvalue c hc).1, hassign (hvalue c hc).1,
      hjoint (hvalue c hc).1 (hvalue c hc).2⟩
  have hfield : redactSecrets (redactText alnum) (.object [(key, .string value)]) =
      .object [(key, .string redacted)] := by
    simp [redactSecrets, redactWith, redactMembers, hsecret]
  constructor
  · intro h
    by_contra hends
    refine h.2 ?_
    rw [hshown hends]
    exact ⟨redactTokens alnum key.toList ++ ['='], [], by simp⟩
  · intro hends
    refine ⟨hfield, ?_⟩
    rw [hhidden hends, Text.infix_append_cons (hother '=' rfl)]
    rintro (h | h)
    · rcases infix_redactTokens (hother '[' rfl) (hother ']' rfl) h with h | h
      · exact hapart h
      · refine hmarker (h.trans ?_)
        rw [redacted_eq]
        exact ⟨['['], [']'], rfl⟩
    · exact hmarker h

/-- A password is hidden in both ways. -/
theorem hiddenAlike_sample :
    HiddenAlike (fun _ => true) "db_password" "hunter2" ↔
      EndsInName (fun _ => true) (redactTokens (fun _ => true) "db_password".toList) :=
  hiddenAlike_iff _ _ _ (List.all_iff_forall_prop.1 (by decide)) (by decide) (by decide)
    (List.all_iff_forall_prop.1 (by decide)) (by decide) (by decide)

/-- Each name has one of the letters `a`, `c`, `p` and `r`. -/
theorem secretName_needs :
    Needs (isWord alnum) (fun c => "acpr".toList.any (sameLetter · c)) secretName := by
  have hletter : ∀ {s : String} (p : Char), p ∈ s.toList → p ∈ "acpr".toList →
      Needs (isWord alnum) (fun c => "acpr".toList.any (sameLetter · c)) (ignoringCase s) :=
    fun p hs hp => needs_ignoringCase hs fun c hc => List.any_eq_true.2 ⟨p, hp, hc⟩
  refine .alt ?_ (.alt ?_ (.alt ?_ (.alt ?_ (.alt ?_ ?_))))
  · exact .seq_right (.seq_left (hletter 'a' (by decide) (by decide)) _) _
  · exact hletter 'a' (by decide) (by decide)
  · exact .seq_left (hletter 'c' (by decide) (by decide)) _
  · exact .seq_left (hletter 'a' (by decide) (by decide)) _
  · exact .seq_left (hletter 'r' (by decide) (by decide)) _
  · exact hletter 'a' (by decide) (by decide)

/-- A token is hidden as a field alone. -/
theorem token_shown : ¬ ∃ alnum : Char → Bool, ∀ key value : String,
    (∀ c ∈ key.toList, isWord alnum c = true ∨ c = '-') → isSecretKey key = true → value ≠ "" →
      (∀ c ∈ value.toList, isWord alnum c = true ∧ c ≠ '_') →
      ¬ value.toList <:+: redacted.toList → ¬ value.toList <:+: key.toList →
      HiddenAlike alnum key value := by
  intro h
  obtain ⟨alnum, h⟩ := h
  have htokens : redactTokens alnum "token".toList = "token".toList := by
    simp only [redactTokens, subAll, List.foldl_cons, List.foldl_nil]
    rw [sub_eq_self slackToken_needs (List.all_iff_forall_prop.1 (by decide)),
      sub_eq_self openaiToken_needs (List.all_iff_forall_prop.1 (by decide)),
      sub_eq_self githubToken_needs (List.all_iff_forall_prop.1 (by decide))]
  have hends : ¬ EndsInName alnum (redactTokens alnum "token".toList) := by
    rw [htokens]
    intro hends
    obtain ⟨before, name, groups, heq, hname⟩ := hends
    obtain ⟨c, hc, hletter⟩ := Needs.seq_right secretName_needs boundary _ _ _ _ _ hname
    have hnone : ∀ c ∈ "token".toList, ("acpr".toList.any (sameLetter · c)) = false :=
      List.all_iff_forall_prop.1 (by decide)
    exact Bool.false_ne_true ((hnone c (heq ▸ List.mem_append_right _ hc)).symm.trans hletter)
  have hshown : (redactText alnum ("token" ++ "=" ++ "abc")).toList = _ :=
    (redactText_assignment (List.all_iff_forall_prop.1 (by decide)) (by decide)
      (List.all_iff_forall_prop.1 (by decide))).2 hends
  rw [htokens] at hshown
  have hword : ∀ {s : String}, s.toList.all isAlnumIgnoringCase = true →
      ∀ c ∈ s.toList, isWord alnum c = true :=
    fun hs c hc => isWord_of_alnum (List.all_eq_true.1 hs c hc)
  have hvalue : ∀ c ∈ "abc".toList, isWord alnum c = true ∧ c ≠ '_' := by
    refine fun c hc => ⟨hword (by decide) c hc, ?_⟩
    rintro rfl
    exact absurd hc (by decide)
  have hidden := (h "token" "abc" (fun c hc => .inl (hword (by decide) c hc)) (by decide)
    (by decide) hvalue (by decide) (by decide)).2
  rw [hshown] at hidden
  exact hidden (by decide)

end

end AIHub
