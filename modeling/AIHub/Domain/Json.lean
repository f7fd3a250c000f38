import AIHub.Lib.Text

/-!
# JSON values

The values of event payloads and stored responses. An object is the list of its members in key
order, which is the order the canonical text (`sort_keys=True`) writes them in, so two objects
with the same members are one value and texts are equal exactly when values are. `set` keeps a
member list in key order.
-/

namespace AIHub

/-- A JSON value. A number that is not an integer is kept as the text that denotes it. -/
inductive JsonValue where
  | null
  | bool (b : Bool)
  | int (n : Int)
  | float (text : String)
  | string (s : String)
  | array (items : List JsonValue)
  | object (members : List (String × JsonValue))

/-- The members of an object, in key order. -/
abbrev JsonObject := List (String × JsonValue)

namespace JsonValue

mutual

/-- Equality of values is decidable. -/
def decEq : (a b : JsonValue) → Decidable (a = b)
  | .null, .null => isTrue rfl
  | .bool a, .bool b => decidable_of_iff (a = b) (by simp)
  | .int a, .int b => decidable_of_iff (a = b) (by simp)
  | .float a, .float b => decidable_of_iff (a = b) (by simp)
  | .string a, .string b => decidable_of_iff (a = b) (by simp)
  | .array a, .array b =>
    match decEqItems a b with
    | isTrue h => isTrue (by rw [h])
    | isFalse h => isFalse (by simpa using h)
  | .object a, .object b =>
    match decEqMembers a b with
    | isTrue h => isTrue (by rw [h])
    | isFalse h => isFalse (by simpa using h)
  | .null, .bool _ | .null, .int _ | .null, .float _ | .null, .string _ | .null, .array _
  | .null, .object _ | .bool _, .null | .bool _, .int _ | .bool _, .float _ | .bool _, .string _
  | .bool _, .array _ | .bool _, .object _ | .int _, .null | .int _, .bool _ | .int _, .float _
  | .int _, .string _ | .int _, .array _ | .int _, .object _ | .float _, .null
  | .float _, .bool _ | .float _, .int _ | .float _, .string _ | .float _, .array _
  | .float _, .object _ | .string _, .null | .string _, .bool _ | .string _, .int _
  | .string _, .float _ | .string _, .array _ | .string _, .object _ | .array _, .null
  | .array _, .bool _ | .array _, .int _ | .array _, .float _ | .array _, .string _
  | .array _, .object _ | .object _, .null | .object _, .bool _ | .object _, .int _
  | .object _, .float _ | .object _, .string _ | .object _, .array _ => isFalse (by simp)

def decEqItems : (a b : List JsonValue) → Decidable (a = b)
  | [], [] => isTrue rfl
  | [], _ :: _ => isFalse (by simp)
  | _ :: _, [] => isFalse (by simp)
  | a :: as, b :: bs =>
    match decEq a b, decEqItems as bs with
    | isTrue h, isTrue h' => isTrue (by rw [h, h'])
    | isFalse h, _ => isFalse (by simp [h])
    | _, isFalse h => isFalse (by simp [h])

def decEqMembers : (a b : List (String × JsonValue)) → Decidable (a = b)
  | [], [] => isTrue rfl
  | [], _ :: _ => isFalse (by simp)
  | _ :: _, [] => isFalse (by simp)
  | (k, a) :: as, (l, b) :: bs =>
    if hk : k = l then
      match decEq a b, decEqMembers as bs with
      | isTrue h, isTrue h' => isTrue (by rw [hk, h, h'])
      | isFalse h, _ => isFalse (by simp [h])
      | _, isFalse h => isFalse (by simp [h])
    else isFalse (by simp [hk])

end

instance : DecidableEq JsonValue := decEq

end JsonValue

namespace JsonObject

/-- The value of a key. -/
def get? (o : JsonObject) (key : String) : Option JsonValue :=
  (o.find? fun m => m.1 = key).map Prod.snd

/-- Give a key a value, keeping the members in key order. -/
def set (key : String) (value : JsonValue) : JsonObject → JsonObject
  | [] => [(key, value)]
  | (k, v) :: o =>
    if k = key then (key, value) :: o
    else if key < k then (key, value) :: (k, v) :: o
    else (k, v) :: set key value o

@[simp] theorem get?_set_self (o : JsonObject) (key : String) (value : JsonValue) :
    get? (set key value o) key = some value := by
  induction o with
  | nil => simp [set, get?]
  | cons m o ih =>
    obtain ⟨k, v⟩ := m
    unfold set
    split_ifs with hk hlt
    · simp [get?]
    · simp [get?]
    · simpa [get?, hk] using ih

theorem mem_set {o : JsonObject} {key : String} {value : JsonValue} {m : String × JsonValue}
    (h : m ∈ set key value o) : m = (key, value) ∨ m ∈ o := by
  induction o with
  | nil => simpa [set] using h
  | cons n o ih =>
    obtain ⟨k, v⟩ := n
    unfold set at h
    split_ifs at h with hk hlt
    · rcases List.mem_cons.1 h with h | h
      · exact .inl h
      · exact .inr (List.mem_cons_of_mem _ h)
    · exact List.mem_cons.1 h
    · rcases List.mem_cons.1 h with rfl | h
      · exact .inr List.mem_cons_self
      · exact (ih h).imp_right (List.mem_cons_of_mem _)

end JsonObject

/-! ## Secret keys

`_find_forbidden_payload_key` and `_find_forbidden_key` walk a document the same way, depth
first and in key order, and return the path of the first key their own rule refuses. -/

/-- A key as the rules compare it. -/
def normalizeKey (key : String) : String := Text.replaceChar '-' '_' (Text.lower key)

section

variable (forbidden : String → Bool)

mutual

/-- The path of the first forbidden key of a value. -/
def findForbidden : JsonValue → String → Option String
  | .object members, path => findForbiddenMember members path
  | .array items, path => findForbiddenItem items path 0
  | _, _ => none

def findForbiddenMember : List (String × JsonValue) → String → Option String
  | [], _ => none
  | (key, child) :: members, path =>
    if forbidden (normalizeKey key) then some s!"{path}.{key}"
    else (findForbidden child s!"{path}.{key}").or (findForbiddenMember members path)

def findForbiddenItem : List JsonValue → String → Nat → Option String
  | [], _, _ => none
  | child :: items, path, index =>
    (findForbidden child s!"{path}[{index}]").or (findForbiddenItem items path (index + 1))

end

end

/-- Neither an array nor an object. -/
def JsonValue.isScalar : JsonValue → Bool
  | .array _ | .object _ => false
  | _ => true

/-- A scalar or an array of scalars. -/
def JsonValue.isFlat : JsonValue → Bool
  | .array items => items.all isScalar
  | v => v.isScalar

theorem findForbidden_scalar {forbidden : String → Bool} {v : JsonValue}
    (h : v.isScalar = true) (path : String) : findForbidden forbidden v path = none := by
  cases v with
  | array _ => cases h
  | object _ => cases h
  | _ => rfl

theorem findForbiddenItem_scalars {forbidden : String → Bool} {items : List JsonValue}
    (h : ∀ v ∈ items, v.isScalar = true) (path : String) (index : Nat) :
    findForbiddenItem forbidden items path index = none := by
  induction items generalizing index with
  | nil => rfl
  | cons v items ih =>
    rw [findForbiddenItem, findForbidden_scalar (h v List.mem_cons_self), Option.none_or]
    exact ih (fun w hw => h w (List.mem_cons_of_mem _ hw)) _

theorem findForbidden_flat {forbidden : String → Bool} {v : JsonValue} (h : v.isFlat = true)
    (path : String) : findForbidden forbidden v path = none := by
  cases v with
  | array items => exact findForbiddenItem_scalars (List.all_eq_true.1 h) path 0
  | object _ => cases h
  | _ => rfl

/-- An object of flat values is free of forbidden keys when its own keys are. -/
theorem findForbiddenMember_flat {forbidden : String → Bool} {o : JsonObject}
    (hv : ∀ m ∈ o, m.2.isFlat = true) (hk : ∀ m ∈ o, forbidden (normalizeKey m.1) = false)
    (path : String) : findForbiddenMember forbidden o path = none := by
  induction o with
  | nil => rfl
  | cons m o ih =>
    obtain ⟨key, child⟩ := m
    have ho := ih (fun m hm => hv m (List.mem_cons_of_mem _ hm))
      (fun m hm => hk m (List.mem_cons_of_mem _ hm))
    simp only [findForbiddenMember, hk (key, child) List.mem_cons_self, Bool.false_eq_true,
      if_false, findForbidden_flat (hv (key, child) List.mem_cons_self), Option.none_or]
    exact ho

/-! ## Keys of a document -/

mutual

/-- The keys of a value, at any depth. -/
def JsonValue.keys : JsonValue → List String
  | .object members => memberKeys members
  | .array items => itemKeys items
  | _ => []

def memberKeys : List (String × JsonValue) → List String
  | [] => []
  | (key, child) :: members => key :: (child.keys ++ memberKeys members)

def itemKeys : List JsonValue → List String
  | [] => []
  | child :: items => child.keys ++ itemKeys items

end

section

variable {forbidden : String → Bool}

mutual

/-- A check finds nothing if no key is forbidden. -/
theorem findForbidden_eq_none (v : JsonValue) (path : String) :
    findForbidden forbidden v path = none ↔
      ∀ key ∈ v.keys, forbidden (normalizeKey key) = false := by
  cases v with
  | object members => exact findForbiddenMember_eq_none members path
  | array items => exact findForbiddenItem_eq_none items path 0
  | _ => simp [findForbidden, JsonValue.keys]

theorem findForbiddenMember_eq_none (members : List (String × JsonValue)) (path : String) :
    findForbiddenMember forbidden members path = none ↔
      ∀ key ∈ memberKeys members, forbidden (normalizeKey key) = false := by
  cases members with
  | nil => simp [findForbiddenMember, memberKeys]
  | cons m members =>
    obtain ⟨key, child⟩ := m
    rw [findForbiddenMember, memberKeys, List.forall_mem_cons, List.forall_mem_append]
    by_cases hkey : forbidden (normalizeKey key) = true
    · simp [hkey]
    · rw [if_neg hkey, Option.or_eq_none_iff, findForbidden_eq_none child,
        findForbiddenMember_eq_none members path]
      exact (and_iff_right (Bool.eq_false_iff.2 hkey)).symm

theorem findForbiddenItem_eq_none (items : List JsonValue) (path : String) (index : Nat) :
    findForbiddenItem forbidden items path index = none ↔
      ∀ key ∈ itemKeys items, forbidden (normalizeKey key) = false := by
  cases items with
  | nil => simp [findForbiddenItem, itemKeys]
  | cons child items =>
    rw [findForbiddenItem, itemKeys, List.forall_mem_append, Option.or_eq_none_iff,
      findForbidden_eq_none child, findForbiddenItem_eq_none items path]

end

end

end AIHub
