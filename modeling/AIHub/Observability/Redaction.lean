import AIHub.Storage.Models

/-!
# Secret keys

Three rules say which keys of a document are secret: the check of event payloads, the check of
stored responses and the redaction of logs. Each walks the whole document, so a document passes a
rule exactly if none of its keys, at any depth, is secret under the rule: `findForbidden_eq_none`
and `replaced_eq_nil`.

The log redaction has a list of keys and a list of suffixes. The check of event payloads has the
same list and no suffixes. The check of stored responses has the same suffixes and a shorter list:
of the keys that are left out, all end in a suffix but `authorization_header`.

* `replaced_eq_nil_iff`: the paths in `replaced` are what redaction replaces because of a key.
* `classifiedAlike_iff`: when the three rules agree on a document.
-/

namespace AIHub

/-! ## Redaction of logs -/

def redacted : String := "[REDACTED]"

def secretKeys : List String :=
  ["access_token", "api_key", "apikey", "authorization", "authorization_header", "client_secret",
    "cookie", "credentials", "github_token", "openai_api_key", "password", "private_key",
    "refresh_token", "secret", "signing_secret", "slack_app_token", "slack_bot_token", "token"]

def secretSuffixes : List String :=
  ["_password", "_secret", "_token", "_api_key", "_private_key"]

/-- A normalised key with one of the suffixes. -/
def hasSecretSuffix (key : String) : Bool :=
  secretSuffixes.any fun suffix => suffix.toList.isSuffixOf key.toList

def isSecretKey (key : String) : Bool :=
  let normalized := normalizeKey key
  normalized ∈ secretKeys || hasSecretSuffix normalized

section

variable (marker : JsonValue) (redactText : String → String)

mutual

/-- `redact_secrets` with another value in the place of `REDACTED`. -/
def redactWith : JsonValue → JsonValue
  | .object members => .object (redactMembers members)
  | .array items => .array (redactItems items)
  | .string s => .string (redactText s)
  | .null => .null
  | .bool b => .bool b
  | .int n => .int n
  | .float text => .float text

def redactMembers : List (String × JsonValue) → List (String × JsonValue)
  | [] => []
  | (key, child) :: members =>
    (key, if isSecretKey key then marker else redactWith child) :: redactMembers members

def redactItems : List JsonValue → List JsonValue
  | [] => []
  | child :: items => redactWith child :: redactItems items

end

/-- A copy of a value without secrets. The patterns for secrets in texts are a parameter. -/
def redactSecrets (value : JsonValue) : JsonValue :=
  redactWith (.string redacted) redactText value

end

mutual

/-- The paths of the values that are replaced because of their key. -/
def replaced : JsonValue → String → List String
  | .object members, path => replacedMembers members path
  | .array items, path => replacedItems items path 0
  | _, _ => []

def replacedMembers : List (String × JsonValue) → String → List String
  | [], _ => []
  | (key, child) :: members, path =>
    (if isSecretKey key then [s!"{path}.{key}"] else replaced child s!"{path}.{key}") ++
      replacedMembers members path

def replacedItems : List JsonValue → String → Nat → List String
  | [], _, _ => []
  | child :: items, path, index =>
    replaced child s!"{path}[{index}]" ++ replacedItems items path (index + 1)

end

/-! ## What is replaced -/

mutual

/-- Redaction replaces nothing by its key if no key is secret. -/
theorem replaced_eq_nil (v : JsonValue) (path : String) :
    replaced v path = [] ↔ ∀ key ∈ v.keys, isSecretKey key = false := by
  cases v with
  | object members => exact replacedMembers_eq_nil members path
  | array items => exact replacedItems_eq_nil items path 0
  | _ => simp [replaced, JsonValue.keys]

theorem replacedMembers_eq_nil (members : List (String × JsonValue)) (path : String) :
    replacedMembers members path = [] ↔
      ∀ key ∈ memberKeys members, isSecretKey key = false := by
  cases members with
  | nil => simp [replacedMembers, memberKeys]
  | cons m members =>
    obtain ⟨key, child⟩ := m
    rw [replacedMembers, memberKeys, List.forall_mem_cons, List.forall_mem_append,
      List.append_eq_nil_iff]
    by_cases hkey : isSecretKey key = true
    · simp [hkey]
    · rw [if_neg hkey, replaced_eq_nil child, replacedMembers_eq_nil members path]
      exact (and_iff_right (Bool.eq_false_iff.2 hkey)).symm

theorem replacedItems_eq_nil (items : List JsonValue) (path : String) (index : Nat) :
    replacedItems items path index = [] ↔ ∀ key ∈ itemKeys items, isSecretKey key = false := by
  cases items with
  | nil => simp [replacedItems, itemKeys]
  | cons child items =>
    rw [replacedItems, itemKeys, List.forall_mem_append, List.append_eq_nil_iff,
      replaced_eq_nil child, replacedItems_eq_nil items path]

end

/-! ## What is replaced -/

section

variable {redactText : String → String} {marker marker' : JsonValue}

mutual

theorem redactWith_inj (hne : marker ≠ marker') (v : JsonValue) :
    redactWith marker redactText v = redactWith marker' redactText v ↔
      ∀ key ∈ v.keys, isSecretKey key = false := by
  cases v with
  | object members =>
    rw [redactWith, redactWith, JsonValue.object.injEq]
    exact redactMembers_inj hne members
  | array items =>
    rw [redactWith, redactWith, JsonValue.array.injEq]
    exact redactItems_inj hne items
  | _ => simp [redactWith, JsonValue.keys]

theorem redactMembers_inj (hne : marker ≠ marker') (members : List (String × JsonValue)) :
    redactMembers marker redactText members = redactMembers marker' redactText members ↔
      ∀ key ∈ memberKeys members, isSecretKey key = false := by
  cases members with
  | nil => simp [redactMembers, memberKeys]
  | cons m members =>
    obtain ⟨key, child⟩ := m
    rw [redactMembers, redactMembers, memberKeys, List.forall_mem_cons, List.forall_mem_append,
      List.cons.injEq, Prod.mk.injEq, redactMembers_inj hne members]
    by_cases hkey : isSecretKey key = true
    · simp [hkey, hne]
    · rw [if_neg hkey, if_neg hkey, redactWith_inj hne child, Bool.eq_false_iff.2 hkey]
      simp

theorem redactItems_inj (hne : marker ≠ marker') (items : List JsonValue) :
    redactItems marker redactText items = redactItems marker' redactText items ↔
      ∀ key ∈ itemKeys items, isSecretKey key = false := by
  cases items with
  | nil => simp [redactItems, itemKeys]
  | cons child items =>
    rw [redactItems, redactItems, itemKeys, List.forall_mem_append, List.cons.injEq,
      redactWith_inj hne child, redactItems_inj hne items]

end

/-- Nothing is replaced by its key exactly if another value in the place of `REDACTED` would make
no difference. -/
theorem replaced_eq_nil_iff (hmarker : marker ≠ .string redacted) (v : JsonValue) (path : String) :
    replaced v path = [] ↔ redactWith marker redactText v = redactSecrets redactText v := by
  rw [replaced_eq_nil, redactSecrets, redactWith_inj hmarker]

end

/-! ## The three rules on one key -/

theorem secretKeys_eq : secretKeys = forbiddenPayloadKeys := rfl

theorem responseSuffix_eq (key : String) :
    (forbiddenResponseSuffixes.any fun suffix => suffix.toList.isSuffixOf key.toList) =
      hasSecretSuffix key := rfl

/-- What the log rule has and the payload rule has not are the suffixes. -/
theorem isSecretKey_iff (key : String) :
    isSecretKey key = true ↔
      normalizeKey key ∈ forbiddenPayloadKeys ∨ hasSecretSuffix (normalizeKey key) = true := by
  rw [isSecretKey, Bool.or_eq_true, decide_eq_true_eq, secretKeys_eq]

/-- Of the listed keys, all but one are secret in a response. -/
theorem listed_response :
    ∀ key ∈ forbiddenPayloadKeys,
      key = "authorization_header" ∨ forbiddenResponseKey key = true := by
  decide

theorem response_listed : ∀ key ∈ forbiddenResponseKeys, key ∈ forbiddenPayloadKeys := by
  decide

/-- What the log rule has and the response rule has not is `authorization_header`. -/
theorem isSecretKey_iff_response (key : String) :
    isSecretKey key = true ↔
      normalizeKey key = "authorization_header" ∨
        forbiddenResponseKey (normalizeKey key) = true := by
  rw [isSecretKey_iff]
  constructor
  · intro h
    rcases h with hlisted | hsuffix
    · exact listed_response _ hlisted
    · refine .inr ?_
      rw [forbiddenResponseKey, responseSuffix_eq, hsuffix, Bool.or_true]
  · intro h
    rcases h with heq | hresponse
    · rw [heq]
      exact .inl (by decide)
    · rw [forbiddenResponseKey, responseSuffix_eq, Bool.or_eq_true, decide_eq_true_eq] at hresponse
      exact hresponse.imp_left (response_listed _)

/-! ## Agreement on documents -/

/-- The three rules classify a document alike. -/
def ClassifiedAlike (document : JsonObject) : Prop :=
  (findForbiddenPayloadKey document = none ↔ findForbiddenKey document = none) ∧
    (findForbiddenPayloadKey document = none ↔ replaced (.object document) "payload" = [])

section

variable {document : JsonObject}

theorem findForbiddenPayloadKey_eq_none :
    findForbiddenPayloadKey document = none ↔
      ¬ ∃ key ∈ memberKeys document, normalizeKey key ∈ forbiddenPayloadKeys := by
  unfold findForbiddenPayloadKey
  rw [findForbidden_eq_none]
  simp [JsonValue.keys]

theorem findForbiddenKey_eq_none :
    findForbiddenKey document = none ↔
      ¬ ∃ key ∈ memberKeys document, forbiddenResponseKey (normalizeKey key) = true := by
  unfold findForbiddenKey
  rw [findForbidden_eq_none]
  simp [JsonValue.keys]

theorem replaced_object_eq_nil {path : String} :
    replaced (.object document) path = [] ↔
      ¬ ∃ key ∈ memberKeys document, isSecretKey key = true := by
  rw [replaced_eq_nil]
  simp [JsonValue.keys]

/-- The payload of an event has passed the check. -/
theorem findForbiddenPayloadKey_payload (event : EventEnvelope) :
    findForbiddenPayloadKey event.payload = none := by
  have h := event.context
  unfold EventFields.validateContext at h
  split_ifs at h
  split at h
  · cases h
  · assumption

/-- Logs replace nothing by key in the payload of an event exactly if none of its keys has one of
the suffixes. -/
theorem replaced_payload (event : EventEnvelope) {path : String} :
    replaced (.object event.payload) path = [] ↔
      ∀ key ∈ memberKeys event.payload, hasSecretSuffix (normalizeKey key) = false := by
  have hnone := findForbiddenPayloadKey_eq_none.1 (findForbiddenPayloadKey_payload event)
  rw [replaced_object_eq_nil]
  constructor
  · intro h key hkey
    refine Bool.eq_false_iff.2 fun hsuffix => h ⟨key, hkey, ?_⟩
    exact (isSecretKey_iff key).2 (.inr hsuffix)
  · intro h hsecret
    obtain ⟨key, hkey, hsecret⟩ := hsecret
    rcases (isSecretKey_iff key).1 hsecret with hlisted | hsuffix
    · exact hnone ⟨key, hkey, hlisted⟩
    · exact Bool.false_ne_true ((h key hkey).symm.trans hsuffix)

end

/-- The three rules agree on a document exactly if a key that is secret by its suffix alone stands
beside a listed one, and `authorization_header` beside one that is secret in a response. Events
whose payload the logs redact by key are exactly those with a key that has one of the suffixes. -/
theorem classifiedAlike_iff (document : JsonObject) (event : EventEnvelope) :
    (ClassifiedAlike document ↔
      ((∃ key ∈ memberKeys document, hasSecretSuffix (normalizeKey key) = true) →
        ∃ key ∈ memberKeys document, normalizeKey key ∈ forbiddenPayloadKeys) ∧
      ((∃ key ∈ memberKeys document, normalizeKey key = "authorization_header") →
        ∃ key ∈ memberKeys document, forbiddenResponseKey (normalizeKey key) = true)) ∧
    (replaced (.object event.payload) "payload" = [] ↔
      ∀ key ∈ memberKeys event.payload, hasSecretSuffix (normalizeKey key) = false) := by
  constructor
  · have hsecret : (∃ key ∈ memberKeys document, isSecretKey key = true) ↔
        (∃ key ∈ memberKeys document, normalizeKey key ∈ forbiddenPayloadKeys) ∨
          ∃ key ∈ memberKeys document, hasSecretSuffix (normalizeKey key) = true := by
      simp only [isSecretKey_iff, and_or_left, exists_or]
    have hresponse : (∃ key ∈ memberKeys document, isSecretKey key = true) ↔
        (∃ key ∈ memberKeys document, normalizeKey key = "authorization_header") ∨
          ∃ key ∈ memberKeys document, forbiddenResponseKey (normalizeKey key) = true := by
      simp only [isSecretKey_iff_response, and_or_left, exists_or]
    have hheader : (∃ key ∈ memberKeys document, normalizeKey key = "authorization_header") →
        ∃ key ∈ memberKeys document, normalizeKey key ∈ forbiddenPayloadKeys := by
      intro h
      obtain ⟨key, hkey, heq⟩ := h
      exact ⟨key, hkey, heq ▸ by decide⟩
    rw [ClassifiedAlike, findForbiddenPayloadKey_eq_none, findForbiddenKey_eq_none,
      replaced_object_eq_nil, not_iff_not, not_iff_not]
    constructor
    · intro h
      obtain ⟨hlisted, hlogged⟩ := h
      exact ⟨fun hsuffix => hlogged.2 (hsecret.2 (.inr hsuffix)), fun h => hlisted.1 (hheader h)⟩
    · intro h
      obtain ⟨hsuffix, hbeside⟩ := h
      have hlogged : (∃ key ∈ memberKeys document, isSecretKey key = true) →
          ∃ key ∈ memberKeys document, normalizeKey key ∈ forbiddenPayloadKeys :=
        fun h => (hsecret.1 h).elim id hsuffix
      refine ⟨⟨fun hlisted => ?_, fun h => hlogged (hresponse.2 (.inr h))⟩,
        fun hlisted => hsecret.2 (.inl hlisted), hlogged⟩
      exact (hresponse.1 (hsecret.2 (.inl hlisted))).elim hbeside id
  · exact replaced_payload event

namespace Sample

/-- A payload with a key that is secret by its suffix alone. -/
def databaseConfig : JsonObject := [("config", .object [("db_password", .string "hunter2")])]

end Sample

open Sample in
/-- An event may carry what a response may not hold, and what the logs redact. -/
theorem suffix_key_unnoticed : ¬ ∀ document : JsonObject, ClassifiedAlike document := by
  intro h
  have hpayload : findForbiddenPayloadKey databaseConfig = none := by decide +kernel
  have hresponse : findForbiddenKey databaseConfig ≠ none := by decide +kernel
  exact hresponse ((h databaseConfig).1.1 hpayload)

end AIHub
