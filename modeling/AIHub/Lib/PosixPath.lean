import Mathlib.Data.List.Infix

/-!
# Pure POSIX paths

A path is what its text starts with and the parts between its slashes, without empty parts and
single dots. `PurePosixPath` carries the proof that its parts are such parts, so reading the text
of a path gives the path again: `ofString_asPosix`. Parts that are two dots are kept.

`IsRelativeTo` says that a path lies in the tree of another. It is a partial order in which two
paths above one path are comparable, so two trees have a path in common exactly if one path lies
in the tree of the other: `exists_below_both`. On the texts of relative paths it is
`asPosix_prefix`.
-/

/-- The parts of a text that is split at a character do not have the character. -/
theorem List.mem_of_mem_splitOn {α : Type*} [DecidableEq α] {a : α} {cs part : List α}
    (h : part ∈ cs.splitOn a) : ∀ c ∈ part, c ∈ cs ∧ c ≠ a := by
  by_cases ha : a ∈ cs
  · -- the first part ends at the first `a`
    obtain ⟨first, rest, hcs, hfirst⟩ := List.eq_append_cons_of_mem ha
    have hshorter : rest.length < cs.length := by
      rw [hcs, List.length_append, List.length_cons]
      omega
    rw [hcs, List.splitOn_append_cons_self_of_not_mem hfirst] at h
    intro c hc
    rcases List.mem_cons.1 h with rfl | h
    · exact ⟨hcs ▸ List.mem_append_left _ hc, fun heq => hfirst (heq ▸ hc)⟩
    · obtain ⟨hrest, hne⟩ := mem_of_mem_splitOn h c hc
      exact ⟨hcs ▸ List.mem_append_right _ (List.mem_cons_of_mem _ hrest), hne⟩
  · rw [List.splitOn_eq_singleton ha, List.mem_singleton] at h
    subst h
    exact fun c hc => ⟨hc, fun heq => ha (heq ▸ hc)⟩
termination_by cs.length

theorem List.mem_intercalate_singleton {α : Type*} {a c : α} {parts : List (List α)}
    (h : c ∈ [a].intercalate parts) : c = a ∨ ∃ part ∈ parts, c ∈ part := by
  induction parts with
  | nil => cases h
  | cons part parts ih =>
    cases parts with
    | nil =>
      rw [List.intercalate_singleton] at h
      exact .inr ⟨part, List.mem_cons_self, h⟩
    | cons part' parts =>
      rw [List.intercalate_cons_cons, List.mem_append, List.mem_append, List.mem_singleton] at h
      rcases h with (h | h) | h
      · exact .inr ⟨part, List.mem_cons_self, h⟩
      · exact .inl h
      · refine (ih h).imp_right fun h => ?_
        obtain ⟨part'', hpart'', hc⟩ := h
        exact ⟨part'', List.mem_cons_of_mem _ hpart'', hc⟩

theorem List.intercalate_append {α : Type*} {sep : List α} {l m : List (List α)} (hl : l ≠ [])
    (hm : m ≠ []) :
    sep.intercalate (l ++ m) = sep.intercalate l ++ (sep ++ sep.intercalate m) := by
  induction l with
  | nil => exact absurd rfl hl
  | cons x l ih =>
    by_cases hnil : l = []
    · simp [hnil, List.intercalate_cons_of_ne_nil hm]
    · rw [List.cons_append, List.intercalate_cons_of_ne_nil (by simp [hnil]), ih hnil,
        List.intercalate_cons_of_ne_nil hnil]
      simp

/-- Where the parts of a split text stand in it. -/
theorem List.eq_of_splitOn_eq {α : Type*} [DecidableEq α] {a : α} {cs part : List α}
    {parts parts' : List (List α)} (h : cs.splitOn a = parts ++ part :: parts') :
    ∃ before after, cs = before ++ (part ++ after) ∧
      (before = [] ∨ ∃ cs', before = cs' ++ [a]) ∧
      (after = [] ∨ parts' ≠ [] ∧ ∃ cs', after = a :: cs') := by
  have hcs : [a].intercalate (cs.splitOn a) = cs := List.intercalate_splitOn a
  have hafter : ∃ after, [a].intercalate (part :: parts') = part ++ after ∧
      (after = [] ∨ parts' ≠ [] ∧ ∃ cs', after = a :: cs') := by
    cases parts' with
    | nil => exact ⟨[], by simp, .inl rfl⟩
    | cons part' parts' =>
      exact ⟨a :: [a].intercalate (part' :: parts'), by simp, .inr ⟨List.cons_ne_nil _ _, _, rfl⟩⟩
  obtain ⟨after, heq, hsep⟩ := hafter
  rw [h] at hcs
  by_cases hnil : parts = []
  · refine ⟨[], after, ?_, .inl rfl, hsep⟩
    rw [← hcs, hnil, List.nil_append, heq, List.nil_append]
  · refine ⟨[a].intercalate parts ++ [a], after, ?_, .inr ⟨_, rfl⟩, hsep⟩
    rw [← hcs, List.intercalate_append hnil (List.cons_ne_nil _ _), heq, List.append_assoc]

/-- What a path starts with. -/
inductive PathRoot where
  | none
  | slash
  | slashes
  deriving DecidableEq

/-- Neither empty nor a single dot, and without slashes. -/
def IsPathPart (part : List Char) : Prop := part ≠ [] ∧ part ≠ ['.'] ∧ '/' ∉ part

structure PurePosixPath where
  root : PathRoot
  tail : List (List Char)
  ok : ∀ part ∈ tail, IsPathPart part

namespace PurePosixPath

@[ext] theorem ext {p q : PurePosixPath} (hroot : p.root = q.root) (htail : p.tail = q.tail) :
    p = q := by
  cases p; cases q; cases hroot; cases htail; rfl

instance : DecidableEq PurePosixPath := fun p q =>
  decidable_of_iff (p.root = q.root ∧ p.tail = q.tail)
    ⟨fun h => ext h.1 h.2, fun h => h ▸ ⟨rfl, rfl⟩⟩

/-- `posixpath.splitroot`. -/
def splitRoot : List Char → PathRoot × List Char
  | '/' :: '/' :: '/' :: cs => (.slash, '/' :: '/' :: cs)
  | '/' :: '/' :: cs => (.slashes, cs)
  | '/' :: cs => (.slash, cs)
  | cs => (.none, cs)

/-- The parts of a text between its slashes, without empty ones and single dots. -/
def splitParts (cs : List Char) : List (List Char) :=
  (cs.splitOn '/').filter fun part => part ≠ [] ∧ part ≠ ['.']

theorem mem_splitParts {cs part : List Char} (h : part ∈ splitParts cs) : IsPathPart part := by
  obtain ⟨hpart, hkeep⟩ := List.mem_filter.1 h
  have hkeep := of_decide_eq_true hkeep
  exact ⟨hkeep.1, hkeep.2, fun hslash => (List.mem_of_mem_splitOn hpart _ hslash).2 rfl⟩

/-- `PurePosixPath(text)`. -/
def ofString (text : String) : PurePosixPath where
  root := (splitRoot text.toList).1
  tail := splitParts (splitRoot text.toList).2
  ok _ h := mem_splitParts h

def isAbsolute (p : PurePosixPath) : Bool := p.root ≠ .none

/-- The text of a root. -/
def rootText : PathRoot → List Char
  | .none => []
  | .slash => ['/']
  | .slashes => ['/', '/']

/-- `path.parts`, in which a root is a part. -/
def parts (p : PurePosixPath) : List (List Char) :=
  if p.root = .none then p.tail else rootText p.root :: p.tail

/-- The characters of `as_posix()`. -/
def chars (p : PurePosixPath) : List Char :=
  let text := rootText p.root ++ ['/'].intercalate p.tail
  if text = [] then ['.'] else text

def asPosix (p : PurePosixPath) : String := String.ofList p.chars

/-- `path / part`, for a part that is one. -/
def joined (p : PurePosixPath) (part : List Char) (h : IsPathPart part) : PurePosixPath where
  root := p.root
  tail := p.tail ++ [part]
  ok := by
    intro part' hpart'
    rcases List.mem_append.1 hpart' with hpart' | hpart'
    · exact p.ok part' hpart'
    · rwa [List.mem_singleton.1 hpart']

/-- `path / other`. -/
def join (p other : PurePosixPath) : PurePosixPath :=
  if other.isAbsolute then other
  else ⟨p.root, p.tail ++ other.tail, fun part h => (List.mem_append.1 h).elim (p.ok part)
    (other.ok part)⟩

/-- `path.joinpath(*text.split("/"))`. -/
def joinpath (p : PurePosixPath) (text : String) : PurePosixPath where
  root := p.root
  tail := p.tail ++ splitParts text.toList
  ok part h := (List.mem_append.1 h).elim (p.ok part) mem_splitParts

/-! ## Texts -/

/-- The parts of a path, written with slashes and read again. -/
theorem splitParts_intercalate {tail : List (List Char)} (h : ∀ part ∈ tail, IsPathPart part) :
    splitParts (['/'].intercalate tail) = tail := by
  cases tail with
  | nil => rfl
  | cons part tail =>
    rw [splitParts, List.splitOn_intercalate _ (fun part hpart => (h part hpart).2.2) (by simp)]
    refine List.filter_eq_self.2 fun part hpart => decide_eq_true ?_
    exact ⟨(h part hpart).1, (h part hpart).2.1⟩

/-- The text of a path without a root starts with no slash. -/
theorem head_intercalate {tail : List (List Char)} (h : ∀ part ∈ tail, IsPathPart part) :
    ∀ cs, ['/'].intercalate tail ≠ '/' :: cs := by
  intro cs hcs
  cases tail with
  | nil => cases hcs
  | cons part tail =>
    obtain ⟨hne, _, hslash⟩ := h part List.mem_cons_self
    obtain ⟨c, part, rfl⟩ := List.exists_cons_of_ne_nil hne
    rw [List.intercalate_cons_cons_left, List.cons.injEq] at hcs
    exact hslash (hcs.1 ▸ List.mem_cons_self)

theorem splitRoot_append (root : PathRoot) {cs : List Char} (h : ∀ ds, cs ≠ '/' :: ds) :
    splitRoot (rootText root ++ cs) = (root, cs) := by
  cases root with
  | none =>
    unfold splitRoot
    split
    · exact absurd ‹_› (h _)
    · exact absurd ‹_› (h _)
    · exact absurd ‹_› (h _)
    · rfl
  | slash =>
    cases cs with
    | nil => rfl
    | cons c cs =>
      have hc : c ≠ '/' := fun hc => h cs (hc ▸ rfl)
      simp [rootText, splitRoot, hc]
  | slashes =>
    cases cs with
    | nil => rfl
    | cons c cs => simp [rootText, splitRoot]

/-- A text without a root is split as a whole. -/
theorem splitParts_of_relative {text : String} (h : (ofString text).root = .none) :
    splitParts text.toList = (ofString text).tail := by
  have hsplit : (splitRoot text.toList).1 = .none → (splitRoot text.toList).2 = text.toList := by
    generalize text.toList = cs
    unfold splitRoot
    split <;> simp
  exact congrArg splitParts (hsplit h).symm

/-- A path is what its text stands for. -/
theorem ofString_asPosix (p : PurePosixPath) : ofString p.asPosix = p := by
  have hsplit := splitRoot_append p.root (head_intercalate p.ok)
  unfold asPosix chars ofString
  dsimp only
  split_ifs with hempty
  · obtain ⟨hroot, htail⟩ := List.append_eq_nil_iff.1 hempty
    rw [hempty] at hsplit
    have htail : p.tail = [] := by
      rw [← splitParts_intercalate p.ok, htail]
      rfl
    exact ext (congrArg Prod.fst hsplit) htail.symm
  · simp only [String.toList_ofList, hsplit, splitParts_intercalate p.ok]

theorem asPosix_inj {p q : PurePosixPath} : p.asPosix = q.asPosix ↔ p = q := by
  constructor
  · intro h
    rw [← ofString_asPosix p, h, ofString_asPosix]
  · exact congrArg asPosix

/-- Only the path without root and parts is written as a dot. -/
theorem asPosix_eq_dot {p : PurePosixPath} : p.asPosix = "." ↔ p.root = .none ∧ p.tail = [] := by
  have hdot : PurePosixPath.asPosix ⟨.none, [], nofun⟩ = "." := rfl
  rw [← hdot, asPosix_inj]
  constructor
  · intro h
    exact ⟨congrArg root h, congrArg tail h⟩
  · intro h
    exact ext h.1 h.2

theorem asPosix_ne_empty (p : PurePosixPath) : p.asPosix ≠ "" := by
  intro h
  have h := congrArg String.toList h
  rw [asPosix, String.toList_ofList, chars] at h
  split_ifs at h with hempty
  · cases h
  · exact hempty h

/-- The text of a path has no characters but those of its parts, slashes and the dot. -/
theorem mem_asPosix {p : PurePosixPath} {c : Char} (h : c ∈ p.asPosix.toList) :
    c = '.' ∨ c = '/' ∨ ∃ part ∈ p.tail, c ∈ part := by
  rw [asPosix, String.toList_ofList, chars] at h
  split_ifs at h
  · exact .inl (List.mem_singleton.1 h)
  · rcases List.mem_append.1 h with h | h
    · refine .inr (.inl ?_)
      cases hroot : p.root with
      | none => simp [hroot, rootText] at h
      | slash | slashes => simpa [hroot, rootText] using h
    · exact .inr (List.mem_intercalate_singleton h)

/-- The parts of a path have no characters but those of the text. -/
theorem mem_ofString {text : String} {part : List Char} {c : Char}
    (hpart : part ∈ (ofString text).tail) (hc : c ∈ part) : c ∈ text.toList := by
  have hrest : ∀ cs, (splitRoot cs).2 <:+ cs := by
    intro cs
    unfold splitRoot
    split
    · exact List.suffix_cons _ _
    · exact (List.suffix_cons _ _).trans (List.suffix_cons _ _)
    · exact List.suffix_cons _ _
    · exact List.suffix_refl _
  have hsplit := (List.mem_filter.1 hpart).1
  exact (hrest _).subset (List.mem_of_mem_splitOn hsplit c hc).1

/-! ## Trees -/

/-- `path.is_relative_to(other)`. -/
def IsRelativeTo (p other : PurePosixPath) : Prop := p.root = other.root ∧ other.tail <+: p.tail

instance (p other : PurePosixPath) : Decidable (p.IsRelativeTo other) :=
  inferInstanceAs (Decidable (_ ∧ _))

theorem isRelativeTo_refl (p : PurePosixPath) : p.IsRelativeTo p := ⟨rfl, List.prefix_refl _⟩

/-- Two paths above one path are comparable. -/
theorem IsRelativeTo.comparable {p q r : PurePosixPath} (hq : p.IsRelativeTo q)
    (hr : p.IsRelativeTo r) : q.IsRelativeTo r ∨ r.IsRelativeTo q := by
  rcases List.prefix_or_prefix_of_prefix hq.2 hr.2 with h | h
  · exact .inr ⟨hr.1.symm.trans hq.1, h⟩
  · exact .inl ⟨hq.1.symm.trans hr.1, h⟩

/-- Two trees have a path in common exactly if one path lies in the tree of the other. -/
theorem exists_below_both {q r : PurePosixPath} :
    (∃ p : PurePosixPath, p.IsRelativeTo q ∧ p.IsRelativeTo r) ↔
      q.IsRelativeTo r ∨ r.IsRelativeTo q := by
  constructor
  · intro h
    obtain ⟨p, hq, hr⟩ := h
    exact hq.comparable hr
  · intro h
    rcases h with h | h
    · exact ⟨q, isRelativeTo_refl q, h⟩
    · exact ⟨r, h, isRelativeTo_refl r⟩

/-- The text of a path without a root but with parts. -/
theorem toList_asPosix {p : PurePosixPath} (hroot : p.root = .none) (htail : p.tail ≠ []) :
    p.asPosix.toList = ['/'].intercalate p.tail := by
  have hne : ['/'].intercalate p.tail ≠ [] := by
    intro h
    have hsplit := splitParts_intercalate p.ok
    rw [h] at hsplit
    exact htail hsplit.symm
  simp [asPosix, chars, hroot, rootText, hne]

/-- A path lies below another exactly if its text goes on after the other's with a slash. -/
theorem asPosix_prefix {p q : PurePosixPath} (hp : p.root = .none) (hq : q.root = .none)
    (hne : q.tail ≠ []) :
    (p.IsRelativeTo q ∧ p ≠ q) ↔ q.asPosix.toList ++ ['/'] <+: p.asPosix.toList := by
  rw [toList_asPosix hq hne]
  constructor
  · intro h
    obtain ⟨⟨_, rest, hrest⟩, hpq⟩ := h
    have hrestne : rest ≠ [] := by
      intro hnil
      rw [hnil, List.append_nil] at hrest
      exact hpq (ext (hp.trans hq.symm) hrest.symm)
    have hpne : p.tail ≠ [] := hrest ▸ List.append_ne_nil_of_left_ne_nil hne _
    rw [toList_asPosix hp hpne, ← hrest]
    rw [List.intercalate_append hne hrestne, ← List.append_assoc]
    exact List.prefix_append _ _
  · intro h
    obtain ⟨text, htext⟩ := h
    have hpne : p.tail ≠ [] := by
      intro hnil
      have hdot := asPosix_eq_dot.2 ⟨hp, hnil⟩
      rw [hdot, List.append_assoc, List.singleton_append] at htext
      have hslash : '/' ∈ ".".toList := htext ▸ List.mem_append_right _ List.mem_cons_self
      exact absurd hslash (by decide)
    rw [toList_asPosix hp hpne, List.append_assoc, List.singleton_append] at htext
    -- the parts of the longer text are those before the slash and those after it
    have hsplit := congrArg (List.splitOn '/') htext
    rw [List.splitOn_append_cons_self,
      List.splitOn_intercalate _ (fun part hpart => (q.ok part hpart).2.2) hne,
      List.splitOn_intercalate _ (fun part hpart => (p.ok part hpart).2.2) hpne] at hsplit
    refine ⟨⟨hp.trans hq.symm, hsplit ▸ List.prefix_append _ _⟩, ?_⟩
    intro hpq
    rw [hpq, List.append_right_eq_self] at hsplit
    exact List.splitOn_ne_nil _ _ hsplit

/-- Joined to any path, one without a root lies strictly below it exactly if it has parts. -/
theorem join_below {p : PurePosixPath} (hroot : p.root = .none) (root : PurePosixPath) :
    ((root.join p).IsRelativeTo root ∧ root.join p ≠ root) ↔ p.tail ≠ [] := by
  have hjoin : (root.join p).root = root.root ∧ (root.join p).tail = root.tail ++ p.tail := by
    simp [join, isAbsolute, hroot]
  constructor
  · intro h hnil
    refine h.2 (ext hjoin.1 ?_)
    rw [hjoin.2, hnil, List.append_nil]
  · intro hne
    refine ⟨⟨hjoin.1, hjoin.2 ▸ List.prefix_append _ _⟩, fun heq => hne ?_⟩
    have htail := hjoin.2
    rw [heq] at htail
    exact List.append_right_eq_self.1 htail.symm

end PurePosixPath
