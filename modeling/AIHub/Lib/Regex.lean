import Mathlib.Data.List.Infix
import Mathlib.Data.List.TakeWhile
import Mathlib.Tactic.SplitIfs

/-!
# Backtracking regular expressions

A regular expression is matched at a place of a text by trying its alternatives in their order.
`matchesAt` lists what it matches there, the preferred one first, each as the characters it takes
and the groups it has set. A word boundary looks at the character before the place.

* `sound`: a match takes a start of the text.
* `matches_seq`, `matches_star`, …: what is matched, as a relation on words.
* `matchesAt_append`: a separator that the expression has in none of its classes ends all matches.
* `head_seq`, `head_star`: the match that is preferred; where it stops (`StopsAt`), and what it
  takes of a text (`Takes`).
-/

/-- The characters of the groups that are set, the latest first. -/
abbrev Groups := List (Nat × List Char)

inductive Regex where
  | empty
  /-- A character of a class. -/
  | char (p : Char → Bool)
  | seq (r s : Regex)
  | alt (r s : Regex)
  /-- As many times as possible first, or as few times as possible. -/
  | star (greedy : Bool) (r : Regex)
  | group (name : Nat) (r : Regex)
  /-- The characters of a group again. -/
  | backref (name : Nat)
  /-- Between a word character and another one. -/
  | boundary

/-- The characters that are taken, and the groups after them. -/
structure Found where
  text : List Char
  groups : Groups
  deriving DecidableEq

/-- The characters of a group. -/
def Found.group (found : Found) (name : Nat) : List Char := (found.groups.lookup name).getD []

namespace Regex

/-! ## Matching -/

/-- Matches at a place: the character before it, the text after it and the groups before. -/
abbrev Matcher := Option Char → List Char → Groups → List Found

/-- The last character that has been read. -/
def lastOf (prev : Option Char) (w : List Char) : Option Char := w.getLast?.or prev

/-- Go on after each match. -/
def chain (prev : Option Char) (rest : List Char) (found : List Found) (next : Matcher) :
    List Found :=
  found.flatMap fun f => (next (lastOf prev f.text) (rest.drop f.text.length) f.groups).map fun g =>
    ⟨f.text ++ g.text, g.groups⟩

/-- Matches one after the other, at most `n`. -/
def repeated (greedy : Bool) (next : Matcher) : Nat → Matcher
  | 0, _, _, groups => [⟨[], groups⟩]
  | n + 1, prev, rest, groups =>
    let more := chain prev rest ((next prev rest groups).filter fun f => f.text ≠ [])
      (repeated greedy next n)
    if greedy then more ++ [⟨[], groups⟩] else ⟨[], groups⟩ :: more

section

-- the word characters
variable (word : Char → Bool)

/-- What is matched at a place, in the order in which it is tried. -/
def matchesAt : Regex → Matcher
  | empty, _, _, groups => [⟨[], groups⟩]
  | char _, _, [], _ => []
  | char p, _, c :: _, groups => if p c then [⟨[c], groups⟩] else []
  | seq r s, prev, rest, groups => chain prev rest (r.matchesAt prev rest groups) s.matchesAt
  | alt r s, prev, rest, groups => r.matchesAt prev rest groups ++ s.matchesAt prev rest groups
  | star greedy r, prev, rest, groups => repeated greedy r.matchesAt rest.length prev rest groups
  | group name r, prev, rest, groups =>
    (r.matchesAt prev rest groups).map fun f => ⟨f.text, (name, f.text) :: f.groups⟩
  | backref name, _, rest, groups =>
    match groups.lookup name with
    | some w => if w.isPrefixOf rest then [⟨w, groups⟩] else []
    | none => []
  | boundary, prev, rest, groups =>
    if prev.any word != rest.head?.any word then [⟨[], groups⟩] else []

/-- The match that is preferred. -/
def first (r : Regex) (prev : Option Char) (rest : List Char) : Option Found :=
  (r.matchesAt word prev rest []).head?

end

/-! ## Other expressions -/

/-- Characters one after the other. -/
def chars : List Char → Regex
  | [] => empty
  | c :: cs => seq (char (· == c)) (chars cs)

def literal (s : String) : Regex := chars s.toList

/-- `r?`. -/
def opt (r : Regex) : Regex := alt r empty

/-- `r+`. -/
def plus (r : Regex) : Regex := seq r (star true r)

/-- `r{n,}`. -/
def atLeast : Nat → Regex → Regex
  | 0, r => star true r
  | n + 1, r => seq r (atLeast n r)

/-- One after the other. -/
def concat : List Regex → Regex
  | [] => empty
  | [r] => r
  | r :: rs => seq r (concat rs)

/-- One of some expressions. -/
def oneOf : List Regex → Regex
  | [] => char fun _ => false
  | [r] => r
  | r :: rs => alt r (oneOf rs)

/-! ## A match takes a start of the text -/

theorem mem_chain {prev : Option Char} {rest : List Char} {found : List Found} {next : Matcher}
    {h : Found} : h ∈ chain prev rest found next ↔ ∃ f ∈ found,
      ∃ g ∈ next (lastOf prev f.text) (rest.drop f.text.length) f.groups,
        ⟨f.text ++ g.text, g.groups⟩ = h := by
  simp [chain]

/-- All matches take starts of the text. -/
def Sound (m : Matcher) : Prop := ∀ prev rest groups, ∀ f ∈ m prev rest groups, f.text <+: rest

theorem chain_isPrefix {prev : Option Char} {rest : List Char} {found : List Found} {next : Matcher}
    (hfound : ∀ f ∈ found, f.text <+: rest) (hnext : Sound next) {h : Found}
    (hmem : h ∈ chain prev rest found next) : h.text <+: rest := by
  obtain ⟨f, hf, g, hg, rfl⟩ := mem_chain.1 hmem
  obtain ⟨after, rfl⟩ := hfound f hf
  have hstart := hnext _ _ _ g hg
  rw [List.drop_left] at hstart
  exact (List.prefix_append_right_inj f.text).2 hstart

theorem sound_repeated {m : Matcher} (hm : Sound m) (greedy : Bool) (n : Nat) :
    Sound (repeated greedy m n) := by
  induction n with
  | zero =>
    intro prev rest groups f hf
    obtain rfl := List.mem_singleton.1 hf
    exact List.nil_prefix
  | succ n ih =>
    intro prev rest groups f hf
    have hmore : ∀ f ∈ chain prev rest ((m prev rest groups).filter fun f => f.text ≠ [])
        (repeated greedy m n), f.text <+: rest := by
      intro f hf
      exact chain_isPrefix (fun f hf => hm _ _ _ f (List.mem_of_mem_filter hf)) ih hf
    unfold repeated at hf
    dsimp only at hf
    split_ifs at hf
    · rcases List.mem_append.1 hf with hf | hf
      · exact hmore f hf
      · obtain rfl := List.mem_singleton.1 hf
        exact List.nil_prefix
    · rcases List.mem_cons.1 hf with rfl | hf
      · exact List.nil_prefix
      · exact hmore f hf

section

variable {word : Char → Bool}

theorem sound (r : Regex) : Sound (r.matchesAt word) := by
  induction r with
  | empty =>
    intro prev rest groups f hf
    obtain rfl := List.mem_singleton.1 hf
    exact List.nil_prefix
  | char p =>
    intro prev rest groups f hf
    cases rest with
    | nil => cases hf
    | cons c rest =>
      unfold matchesAt at hf
      split_ifs at hf
      · obtain rfl := List.mem_singleton.1 hf
        exact List.prefix_append [c] rest
      · cases hf
  | seq r s hr hs => exact fun prev rest groups f hf => chain_isPrefix (hr prev rest groups) hs hf
  | alt r s hr hs =>
    intro prev rest groups f hf
    rcases List.mem_append.1 hf with hf | hf
    · exact hr _ _ _ f hf
    · exact hs _ _ _ f hf
  | star greedy r hr =>
    exact fun prev rest groups f hf => sound_repeated hr greedy rest.length prev rest groups f hf
  | group name r hr =>
    intro prev rest groups f hf
    obtain ⟨g, hg, rfl⟩ := List.mem_map.1 hf
    exact hr _ _ _ g hg
  | backref name =>
    intro prev rest groups f hf
    unfold matchesAt at hf
    split at hf
    · split_ifs at hf with hprefix
      · obtain rfl := List.mem_singleton.1 hf
        exact List.isPrefixOf_iff_prefix.1 hprefix
      · cases hf
    · cases hf
  | boundary =>
    intro prev rest groups f hf
    unfold matchesAt at hf
    split_ifs at hf
    · obtain rfl := List.mem_singleton.1 hf
      exact List.nil_prefix
    · cases hf

/-! ## What is matched -/

/-- The characters `w` can be taken before `rest`. -/
def Matches (word : Char → Bool) (r : Regex) (prev : Option Char) (w rest : List Char)
    (groups groups' : Groups) : Prop := ⟨w, groups'⟩ ∈ r.matchesAt word prev (w ++ rest) groups

variable {prev : Option Char} {w rest : List Char} {groups groups' : Groups}

/-- A match in a text takes some first characters. -/
theorem mem_matchesAt {r : Regex} {cs : List Char} {f : Found} :
    f ∈ r.matchesAt word prev cs groups ↔ ∃ rest, cs = f.text ++ rest ∧
      Matches word r prev f.text rest groups f.groups := by
  constructor
  · intro hf
    obtain ⟨rest, rfl⟩ := sound r _ _ _ f hf
    exact ⟨rest, rfl, hf⟩
  · intro h
    obtain ⟨rest, rfl, hf⟩ := h
    exact hf

@[simp] theorem matches_empty :
    Matches word empty prev w rest groups groups' ↔ w = [] ∧ groups' = groups := by
  simp [Matches, matchesAt]

@[simp] theorem matches_char {p : Char → Bool} :
    Matches word (char p) prev w rest groups groups' ↔
      ∃ c, w = [c] ∧ p c = true ∧ groups' = groups := by
  cases w with
  | nil =>
    refine iff_of_false (fun h => ?_) (by simp)
    cases rest with
    | nil => cases h
    | cons c rest =>
      unfold Matches matchesAt at h
      dsimp only [List.nil_append] at h
      split_ifs at h
      · exact absurd (List.mem_singleton.1 h) (by simp)
      · cases h
  | cons c w =>
    unfold Matches matchesAt
    dsimp only [List.cons_append]
    split_ifs with hp
    · simp [hp]
    · simp [hp]

@[simp] theorem matches_alt {r s : Regex} : Matches word (alt r s) prev w rest groups groups' ↔
    Matches word r prev w rest groups groups' ∨ Matches word s prev w rest groups groups' :=
  List.mem_append

theorem mem_chain_iff {found : List Found} {next : Matcher} {cs : List Char}
    (hcs : cs = w ++ rest) :
    ⟨w, groups'⟩ ∈ chain prev cs found next ↔ ∃ w₁ w₂ groups₁, w = w₁ ++ w₂ ∧
      ⟨w₁, groups₁⟩ ∈ found ∧ ⟨w₂, groups'⟩ ∈ next (lastOf prev w₁) (w₂ ++ rest) groups₁ := by
  subst hcs
  rw [mem_chain]
  constructor
  · intro h
    obtain ⟨f, hf, g, hg, heq⟩ := h
    obtain ⟨rfl, rfl⟩ := Found.mk.inj heq
    refine ⟨f.text, g.text, f.groups, rfl, hf, ?_⟩
    rwa [List.append_assoc, List.drop_left] at hg
  · intro h
    obtain ⟨w₁, w₂, groups₁, rfl, hf, hg⟩ := h
    refine ⟨_, hf, ⟨w₂, groups'⟩, ?_, rfl⟩
    rwa [List.append_assoc, List.drop_left]

@[simp] theorem matches_seq {r s : Regex} : Matches word (seq r s) prev w rest groups groups' ↔
    ∃ w₁ w₂ groups₁, w = w₁ ++ w₂ ∧ Matches word r prev w₁ (w₂ ++ rest) groups groups₁ ∧
      Matches word s (lastOf prev w₁) w₂ rest groups₁ groups' := by
  unfold Matches
  rw [matchesAt, mem_chain_iff rfl]
  constructor
  · intro h
    obtain ⟨w₁, w₂, groups₁, rfl, hr, hs⟩ := h
    exact ⟨w₁, w₂, groups₁, rfl, by rwa [← List.append_assoc], hs⟩
  · intro h
    obtain ⟨w₁, w₂, groups₁, rfl, hr, hs⟩ := h
    exact ⟨w₁, w₂, groups₁, rfl, by rwa [List.append_assoc], hs⟩

@[simp] theorem matches_group {name : Nat} {r : Regex} :
    Matches word (group name r) prev w rest groups groups' ↔ ∃ groups₁,
      Matches word r prev w rest groups groups₁ ∧ groups' = (name, w) :: groups₁ := by
  unfold Matches
  rw [matchesAt, List.mem_map]
  constructor
  · intro h
    obtain ⟨f, hf, heq⟩ := h
    obtain ⟨rfl, rfl⟩ := Found.mk.inj heq
    exact ⟨f.groups, hf, rfl⟩
  · intro h
    obtain ⟨groups₁, hf, rfl⟩ := h
    exact ⟨_, hf, rfl⟩

@[simp] theorem matches_backref {name : Nat} :
    Matches word (backref name) prev w rest groups groups' ↔
      groups.lookup name = some w ∧ groups' = groups := by
  unfold Matches
  rw [matchesAt]
  cases hlookup : groups.lookup name with
  | none => simp
  | some v =>
    dsimp only
    split_ifs with hprefix
    · simp only [List.mem_singleton, Found.mk.injEq, Option.some.injEq]
      exact and_congr_left fun _ => eq_comm
    · refine iff_of_false List.not_mem_nil fun h => hprefix ?_
      rw [Option.some.inj h.1]
      exact List.isPrefixOf_iff_prefix.2 (List.prefix_append w rest)

@[simp] theorem matches_boundary :
    Matches word boundary prev w rest groups groups' ↔
      w = [] ∧ prev.any word ≠ rest.head?.any word ∧ groups' = groups := by
  unfold Matches matchesAt
  split_ifs with h
  · constructor
    · intro hmem
      obtain ⟨rfl, rfl⟩ := Found.mk.inj (List.mem_singleton.1 hmem)
      exact ⟨rfl, by simpa using h, rfl⟩
    · intro hmem
      obtain ⟨rfl, _, rfl⟩ := hmem
      exact List.mem_singleton_self _
  · refine iff_of_false List.not_mem_nil fun hmem => h ?_
    obtain ⟨rfl, hne, _⟩ := hmem
    simpa using hne

/-! ## Repetition -/

/-- As many repetitions as there are characters are enough. -/
theorem repeated_succ {m : Matcher} (hm : Sound m) (greedy : Bool) {n : Nat} {cs : List Char}
    (h : cs.length ≤ n) :
    repeated greedy m (n + 1) prev cs groups = repeated greedy m n prev cs groups := by
  induction n generalizing prev cs groups with
  | zero =>
    obtain rfl := List.length_eq_zero_iff.1 (Nat.le_zero.1 h)
    have hnone : (m prev [] groups).filter (fun f => f.text ≠ []) = [] := by
      refine List.filter_eq_nil_iff.2 fun f hf => ?_
      simp [List.prefix_nil.1 (hm _ _ _ f hf)]
    unfold repeated
    dsimp only
    rw [hnone]
    cases greedy <;> rfl
  | succ n ih =>
    have hmore : chain prev cs ((m prev cs groups).filter fun f => f.text ≠ [])
          (repeated greedy m (n + 1)) =
        chain prev cs ((m prev cs groups).filter fun f => f.text ≠ []) (repeated greedy m n) := by
      refine List.flatMap_congr fun f hf => congrArg _ (ih ?_)
      have hne : f.text ≠ [] := of_decide_eq_true (List.mem_filter.1 hf).2
      have hpos := List.length_pos_iff.2 hne
      rw [List.length_drop]
      omega
    rw [repeated, hmore]
    rfl

theorem repeated_eq {m : Matcher} (hm : Sound m) (greedy : Bool) {n : Nat} {cs : List Char}
    (h : cs.length ≤ n) :
    repeated greedy m n prev cs groups = repeated greedy m cs.length prev cs groups := by
  induction n, h using Nat.le_induction with
  | base => rfl
  | succ n h ih => rw [repeated_succ hm greedy h, ih]

theorem mem_repeated_succ {m : Matcher} {greedy : Bool} {n : Nat} :
    ⟨w, groups'⟩ ∈ repeated greedy m (n + 1) prev (w ++ rest) groups ↔
      (w = [] ∧ groups' = groups) ∨ ∃ w₁ w₂ groups₁, w = w₁ ++ w₂ ∧ w₁ ≠ [] ∧
        ⟨w₁, groups₁⟩ ∈ m prev (w ++ rest) groups ∧
        ⟨w₂, groups'⟩ ∈ repeated greedy m n (lastOf prev w₁) (w₂ ++ rest) groups₁ := by
  have hchain : ⟨w, groups'⟩ ∈ chain prev (w ++ rest)
        ((m prev (w ++ rest) groups).filter fun f => f.text ≠ []) (repeated greedy m n) ↔
      ∃ w₁ w₂ groups₁, w = w₁ ++ w₂ ∧ w₁ ≠ [] ∧ ⟨w₁, groups₁⟩ ∈ m prev (w ++ rest) groups ∧
        ⟨w₂, groups'⟩ ∈ repeated greedy m n (lastOf prev w₁) (w₂ ++ rest) groups₁ := by
    rw [mem_chain_iff rfl]
    simp only [List.mem_filter, decide_eq_true_eq, and_assoc, and_left_comm]
  rw [← hchain, repeated]
  split_ifs
  · rw [List.mem_append, List.mem_singleton, Found.mk.injEq]
    exact or_comm
  · rw [List.mem_cons, Found.mk.injEq]

theorem matches_star {greedy : Bool} {r : Regex} :
    Matches word (star greedy r) prev w rest groups groups' ↔ (w = [] ∧ groups' = groups) ∨
      ∃ w₁ w₂ groups₁, w = w₁ ++ w₂ ∧ w₁ ≠ [] ∧
        Matches word r prev w₁ (w₂ ++ rest) groups groups₁ ∧
        Matches word (star greedy r) (lastOf prev w₁) w₂ rest groups₁ groups' := by
  unfold Matches
  rw [matchesAt, ← repeated_succ (sound r) greedy (le_refl _), mem_repeated_succ]
  refine or_congr_right ?_
  constructor
  · intro h
    obtain ⟨w₁, w₂, groups₁, rfl, hne, hr, hs⟩ := h
    refine ⟨w₁, w₂, groups₁, rfl, hne, by rwa [← List.append_assoc], ?_⟩
    rwa [repeated_eq (sound r) greedy (by simp)] at hs
  · intro h
    obtain ⟨w₁, w₂, groups₁, rfl, hne, hr, hs⟩ := h
    refine ⟨w₁, w₂, groups₁, rfl, hne, by rwa [List.append_assoc], ?_⟩
    rwa [repeated_eq (sound r) greedy (by simp)]

/-! ## What a match sets -/

theorem subset_of_matches_star {greedy : Bool} {r : Regex}
    (hr : ∀ {prev w rest groups groups'}, Matches word r prev w rest groups groups' →
      ∀ g ∈ groups', g ∈ groups ∨ g.2 ⊆ w)
    (h : Matches word (star greedy r) prev w rest groups groups') :
    ∀ g ∈ groups', g ∈ groups ∨ g.2 ⊆ w := by
  induction hn : w.length using Nat.strong_induction_on generalizing prev w groups with
  | _ n ih =>
    subst hn
    intro g hg
    rcases matches_star.1 h with ⟨rfl, rfl⟩ | ⟨w₁, w₂, groups₁, rfl, hne, hfirst, hrest⟩
    · exact .inl hg
    · have hpos := List.length_pos_of_ne_nil hne
      rcases ih w₂.length (by rw [List.length_append]; omega) hrest rfl g hg with hg | hg
      · rcases hr hfirst g hg with hg | hg
        · exact .inl hg
        · exact .inr (List.subset_append_of_subset_left _ hg)
      · exact .inr (List.subset_append_of_subset_right _ hg)

/-- The groups that a match sets hold characters that it takes. -/
theorem subset_of_matches {r : Regex} (h : Matches word r prev w rest groups groups') :
    ∀ g ∈ groups', g ∈ groups ∨ g.2 ⊆ w := by
  induction r generalizing prev w rest groups groups' with
  | empty =>
    obtain ⟨rfl, rfl⟩ := matches_empty.1 h
    exact fun g hg => .inl hg
  | char p =>
    obtain ⟨c, rfl, _, rfl⟩ := matches_char.1 h
    exact fun g hg => .inl hg
  | seq r s hr hs =>
    obtain ⟨w₁, w₂, groups₁, rfl, h₁, h₂⟩ := matches_seq.1 h
    intro g hg
    rcases hs h₂ g hg with hg | hg
    · rcases hr h₁ g hg with hg | hg
      · exact .inl hg
      · exact .inr (List.subset_append_of_subset_left _ hg)
    · exact .inr (List.subset_append_of_subset_right _ hg)
  | alt r s hr hs =>
    rcases matches_alt.1 h with h | h
    · exact hr h
    · exact hs h
  | star greedy r hr => exact subset_of_matches_star hr h
  | group name r hr =>
    obtain ⟨groups₁, hinner, rfl⟩ := matches_group.1 h
    intro g hg
    rcases List.mem_cons.1 hg with rfl | hg
    · exact .inr (List.Subset.refl _)
    · exact hr hinner g hg
  | backref name =>
    obtain ⟨_, rfl⟩ := matches_backref.1 h
    exact fun g hg => .inl hg
  | boundary =>
    obtain ⟨_, _, rfl⟩ := matches_boundary.1 h
    exact fun g hg => .inl hg

/-! ## What a match depends on -/

/-- Every match takes a character. -/
def consumes : Regex → Bool
  | char _ => true
  | seq r s => r.consumes || s.consumes
  | alt r s => r.consumes && s.consumes
  | group _ r => r.consumes
  | _ => false

theorem ne_nil_of_matches {r : Regex} (h : r.consumes = true)
    (hmatch : Matches word r prev w rest groups groups') : w ≠ [] := by
  induction r generalizing prev w rest groups groups' with
  | char p =>
    obtain ⟨c, rfl, _⟩ := matches_char.1 hmatch
    exact List.cons_ne_nil c []
  | seq r s hr hs =>
    obtain ⟨w₁, w₂, groups₁, rfl, hmatch₁, hmatch₂⟩ := matches_seq.1 hmatch
    rcases Bool.or_eq_true_iff.1 h with h | h
    · exact List.append_ne_nil_of_left_ne_nil (hr h hmatch₁) w₂
    · exact List.append_ne_nil_of_right_ne_nil w₁ (hs h hmatch₂)
  | alt r s hr hs =>
    obtain ⟨hr', hs'⟩ := Bool.and_eq_true_iff.1 h
    rcases matches_alt.1 hmatch with hmatch | hmatch
    · exact hr hr' hmatch
    · exact hs hs' hmatch
  | group name r hr =>
    obtain ⟨_, hmatch, _⟩ := matches_group.1 hmatch
    exact hr h hmatch
  | empty | star | backref | boundary => cases h

/-- No character class of the expression has `c`. -/
def avoids (c : Char) : Regex → Bool
  | empty | boundary => true
  | char p => !p c
  | seq r s | alt r s => r.avoids c && s.avoids c
  | star _ r | group _ r => r.avoids c
  | backref _ => false

theorem chain_congr {prev' : Option Char} {cs cs' : List Char} {found found' : List Found}
    {next next' : Matcher} (hfound : found' = found)
    (hnext : ∀ f ∈ found, next' (lastOf prev' f.text) (cs'.drop f.text.length) f.groups =
      next (lastOf prev f.text) (cs.drop f.text.length) f.groups) :
    chain prev' cs' found' next' = chain prev cs found next := by
  subst hfound
  exact List.flatMap_congr fun f hf => by rw [hnext f hf]

theorem chain_append {c : Char} {more cs : List Char} {found found' : List Found}
    {next next' : Matcher} (hfound : found' = found) (hstart : ∀ f ∈ found, f.text <+: cs)
    (hnext : ∀ f ∈ found, next' (lastOf prev f.text)
        (cs.drop f.text.length ++ c :: more) f.groups =
      next (lastOf prev f.text) (cs.drop f.text.length) f.groups) :
    chain prev (cs ++ c :: more) found' next' = chain prev cs found next := by
  refine chain_congr hfound fun f hf => ?_
  rw [List.drop_append_of_le_length (hstart f hf).length_le, hnext f hf]

/-- What is matched before a separator does not depend on it, nor on what follows it. -/
theorem matchesAt_append {c : Char} (hword : word c = false) {r : Regex} (h : r.avoids c = true)
    (prev : Option Char) (cs more : List Char) (groups : Groups) :
    r.matchesAt word prev (cs ++ c :: more) groups = r.matchesAt word prev cs groups := by
  induction r generalizing prev cs groups with
  | empty => rfl
  | char p =>
    cases cs with
    | nil =>
      have hp : p c = false := by simpa [avoids] using h
      simp [matchesAt, hp]
    | cons d cs => rfl
  | seq r s hr hs =>
    obtain ⟨hr', hs'⟩ := Bool.and_eq_true_iff.1 h
    exact chain_append (hr hr' prev cs groups) (sound r _ _ _) fun f _ => hs hs' _ _ _
  | alt r s hr hs =>
    obtain ⟨hr', hs'⟩ := Bool.and_eq_true_iff.1 h
    rw [matchesAt, matchesAt, hr hr', hs hs']
  | star greedy r hr =>
    have hrepeated : ∀ n prev cs groups, repeated greedy (r.matchesAt word) n prev
          (cs ++ c :: more) groups =
        repeated greedy (r.matchesAt word) n prev cs groups := by
      intro n
      induction n with
      | zero => exact fun _ _ _ => rfl
      | succ n ih =>
        intro prev cs groups
        unfold repeated
        rw [chain_append (congrArg _ (hr h prev cs groups))
          (fun f hf => sound r _ _ _ f (List.mem_of_mem_filter hf)) fun f _ => ih _ _ _]
    rw [matchesAt, matchesAt, hrepeated]
    exact repeated_eq (sound r) greedy (by simp)
  | group name r hr => rw [matchesAt, matchesAt, hr h]
  | backref => cases h
  | boundary =>
    cases cs with
    | nil => simp [matchesAt, hword]
    | cons d cs => rfl

theorem any_lastOf {prev' : Option Char} (h : prev.any word = prev'.any word) (w : List Char) :
    (lastOf prev w).any word = (lastOf prev' w).any word := by
  unfold lastOf
  cases w.getLast? with
  | none => exact h
  | some c => rfl

/-- Of what stands before the place, only matters whether it is a word character. -/
theorem matchesAt_prev {prev' : Option Char} (h : prev.any word = prev'.any word) (r : Regex)
    (cs : List Char) (groups : Groups) :
    r.matchesAt word prev cs groups = r.matchesAt word prev' cs groups := by
  induction r generalizing prev prev' cs groups with
  | empty => rfl
  | char p => cases cs <;> rfl
  | seq r s hr hs => exact chain_congr (hr h cs groups) fun f _ => hs (any_lastOf h _) _ _
  | alt r s hr hs => rw [matchesAt, matchesAt, hr h, hs h]
  | star greedy r hr =>
    have hrepeated : ∀ n prev prev' cs groups, prev.any word = prev'.any word →
        repeated greedy (r.matchesAt word) n prev cs groups =
          repeated greedy (r.matchesAt word) n prev' cs groups := by
      intro n
      induction n with
      | zero => exact fun _ _ _ _ _ => rfl
      | succ n ih =>
        intro prev prev' cs groups h
        unfold repeated
        rw [chain_congr (congrArg _ (hr h cs groups)) fun f _ => ih _ _ _ _ (any_lastOf h _)]
    exact hrepeated _ _ _ _ _ h
  | group name r hr => rw [matchesAt, matchesAt, hr h]
  | backref => rfl
  | boundary => rw [matchesAt, matchesAt, h]

/-- The characters around a place are word characters for both classes, or for none. -/
def Agree (word word' : Char → Bool) (prev : Option Char) (cs : List Char) : Prop :=
  (∀ c ∈ prev, word c = word' c) ∧ ∀ c ∈ cs, word c = word' c

theorem Agree.next {word' : Char → Bool} {v : List Char} (h : Agree word word' prev (v ++ w)) :
    Agree word word' (lastOf prev v) w := by
  refine ⟨fun c hc => ?_, fun c hc => h.2 c (List.mem_append_right v hc)⟩
  cases hlast : v.getLast? with
  | none => exact h.1 c (by simpa [lastOf, hlast] using hc)
  | some d =>
    obtain rfl : d = c := by simpa [lastOf, hlast] using hc
    exact h.2 d (List.mem_append_left w (List.mem_of_getLast? hlast))

@[simp] theorem lastOf_nil : lastOf prev [] = prev := rfl

theorem lastOf_append {v : List Char} : lastOf prev (v ++ w) = lastOf (lastOf prev v) w := by
  unfold lastOf
  rw [List.getLast?_append, Option.or_assoc]

theorem lastOf_cons {c : Char} : lastOf prev (c :: w) = lastOf (some c) w :=
  lastOf_append (v := [c])

/-! ## The other expressions -/

@[simp] theorem matches_chars {cs : List Char} :
    Matches word (chars cs) prev w rest groups groups' ↔ w = cs ∧ groups' = groups := by
  induction cs generalizing prev w rest groups with
  | nil => exact matches_empty
  | cons c cs ih =>
    simp only [chars, matches_seq, matches_char, ih, beq_iff_eq]
    constructor
    · intro h
      obtain ⟨_, _, _, rfl, ⟨_, rfl, rfl, rfl⟩, rfl, rfl⟩ := h
      exact ⟨rfl, rfl⟩
    · intro h
      obtain ⟨rfl, rfl⟩ := h
      exact ⟨[c], cs, groups', rfl, ⟨c, rfl, rfl, rfl⟩, rfl, rfl⟩

@[simp] theorem matches_literal {s : String} :
    Matches word (literal s) prev w rest groups groups' ↔ w = s.toList ∧ groups' = groups :=
  matches_chars

@[simp] theorem matches_opt {r : Regex} : Matches word (opt r) prev w rest groups groups' ↔
    Matches word r prev w rest groups groups' ∨ (w = [] ∧ groups' = groups) := by
  rw [opt, matches_alt, matches_empty]

/-- Repetitions of a class. -/
@[simp] theorem matches_star_char {greedy : Bool} {p : Char → Bool} :
    Matches word (star greedy (char p)) prev w rest groups groups' ↔
      (∀ c ∈ w, p c = true) ∧ groups' = groups := by
  induction w generalizing prev with
  | nil =>
    rw [matches_star]
    simp
  | cons c w ih =>
    rw [matches_star]
    simp only [matches_char]
    constructor
    · intro h
      obtain ⟨hnil, _⟩ | ⟨_, _, _, hw, _, ⟨d, rfl, hp, rfl⟩, hmatch⟩ := h
      · cases hnil
      · obtain ⟨rfl, rfl⟩ := List.cons.inj hw
        obtain ⟨hall, rfl⟩ := ih.1 hmatch
        exact ⟨List.forall_mem_cons.2 ⟨hp, hall⟩, rfl⟩
    · intro h
      obtain ⟨hall, rfl⟩ := h
      obtain ⟨hp, hall⟩ := List.forall_mem_cons.1 hall
      exact .inr ⟨[c], w, _, rfl, List.cons_ne_nil c [], ⟨c, rfl, hp, rfl⟩, ih.2 ⟨hall, rfl⟩⟩

@[simp] theorem matches_atLeast_char {n : Nat} {p : Char → Bool} :
    Matches word (atLeast n (char p)) prev w rest groups groups' ↔
      n ≤ w.length ∧ (∀ c ∈ w, p c = true) ∧ groups' = groups := by
  induction n generalizing prev w rest groups with
  | zero => simp [atLeast]
  | succ n ih =>
    rw [atLeast]
    simp only [matches_seq, matches_char, ih]
    constructor
    · intro h
      obtain ⟨_, w, _, rfl, ⟨c, rfl, hp, rfl⟩, hn, hall, rfl⟩ := h
      exact ⟨Nat.succ_le_succ hn, List.forall_mem_cons.2 ⟨hp, hall⟩, rfl⟩
    · intro h
      obtain ⟨hn, hall, rfl⟩ := h
      obtain ⟨c, w, rfl⟩ := List.exists_cons_of_length_pos (Nat.lt_of_lt_of_le n.succ_pos hn)
      obtain ⟨hp, hall⟩ := List.forall_mem_cons.1 hall
      exact ⟨[c], w, _, rfl, ⟨c, rfl, hp, rfl⟩, Nat.le_of_succ_le_succ hn, hall, rfl⟩

@[simp] theorem matches_plus_char {p : Char → Bool} :
    Matches word (plus (char p)) prev w rest groups groups' ↔
      w ≠ [] ∧ (∀ c ∈ w, p c = true) ∧ groups' = groups := by
  rw [← List.length_pos_iff]
  exact matches_atLeast_char (n := 1)

@[simp] theorem matches_oneOf {rs : List Regex} :
    Matches word (oneOf rs) prev w rest groups groups' ↔
      ∃ r ∈ rs, Matches word r prev w rest groups groups' := by
  induction rs with
  | nil => simp [oneOf]
  | cons r rs ih =>
    cases rs with
    | nil => simp [oneOf]
    | cons s rs =>
      rw [oneOf, matches_alt, ih, List.exists_mem_cons_iff (a := r)]
      exact List.cons_ne_nil s rs

/-! ## Expressions that look at nothing around -/

/-- Every match begins with a character of the class `q`. -/
def Begins (word q : Char → Bool) (r : Regex) : Prop :=
  ∀ prev w rest groups groups', Matches word r prev w rest groups groups' →
    w.head?.any q = true

/-- Every match ends with a character of the class `q`. -/
def Ends (word q : Char → Bool) (r : Regex) : Prop :=
  ∀ prev w rest groups groups', Matches word r prev w rest groups groups' →
    w.getLast?.any q = true

theorem begins_char {p q : Char → Bool} (h : ∀ c, p c = true → q c = true) :
    Begins word q (char p) := by
  intro prev w rest groups groups' hmatch
  obtain ⟨c, rfl, hp, _⟩ := matches_char.1 hmatch
  exact h c hp

theorem ends_char {p q : Char → Bool} (h : ∀ c, p c = true → q c = true) :
    Ends word q (char p) := by
  intro prev w rest groups groups' hmatch
  obtain ⟨c, rfl, hp, _⟩ := matches_char.1 hmatch
  exact h c hp

theorem begins_literal {q : Char → Bool} {s : String} (h : s.toList.head?.any q = true) :
    Begins word q (literal s) := by
  intro prev w rest groups groups' hmatch
  obtain ⟨rfl, _⟩ := matches_literal.1 hmatch
  exact h

theorem Begins.seq {q : Char → Bool} {r : Regex} (h : Begins word q r) (s : Regex) :
    Begins word q (seq r s) := by
  intro prev w rest groups groups' hmatch
  obtain ⟨w₁, w₂, _, rfl, hmatch, _⟩ := matches_seq.1 hmatch
  have hbegins := h _ _ _ _ _ hmatch
  cases w₁ with
  | nil => cases hbegins
  | cons c w₁ => exact hbegins

theorem Ends.seq {q : Char → Bool} {s : Regex} (h : Ends word q s) (r : Regex) :
    Ends word q (seq r s) := by
  intro prev w rest groups groups' hmatch
  obtain ⟨w₁, w₂, _, rfl, _, hmatch⟩ := matches_seq.1 hmatch
  have hends := h _ _ _ _ _ hmatch
  rw [List.getLast?_append]
  cases hlast : w₂.getLast? with
  | none =>
    rw [hlast] at hends
    cases hends
  | some c =>
    rw [hlast] at hends
    exact hends

theorem Begins.concat {q : Char → Bool} {r : Regex} (h : Begins word q r) (rs : List Regex) :
    Begins word q (concat (r :: rs)) := by
  cases rs with
  | nil => exact h
  | cons s rs => exact h.seq _

theorem Ends.concat {q : Char → Bool} {r : Regex} (h : Ends word q r) (rs : List Regex) :
    Ends word q (concat (rs ++ [r])) := by
  induction rs with
  | nil => exact h
  | cons s rs ih =>
    obtain ⟨s', rs', heq⟩ := List.exists_cons_of_ne_nil
      (List.append_ne_nil_of_right_ne_nil rs (List.cons_ne_nil r []))
    rw [List.cons_append, heq, Regex.concat, ← heq]
    · exact ih.seq s
    · intro hnil
      cases hnil

theorem Begins.oneOf {q : Char → Bool} {rs : List Regex} (h : ∀ r ∈ rs, Begins word q r) :
    Begins word q (oneOf rs) := by
  intro prev w rest groups groups' hmatch
  obtain ⟨r, hr, hmatch⟩ := matches_oneOf.1 hmatch
  exact h r hr _ _ _ _ _ hmatch

theorem Ends.oneOf {q : Char → Bool} {rs : List Regex} (h : ∀ r ∈ rs, Ends word q r) :
    Ends word q (oneOf rs) := by
  intro prev w rest groups groups' hmatch
  obtain ⟨r, hr, hmatch⟩ := matches_oneOf.1 hmatch
  exact h r hr _ _ _ _ _ hmatch

/-! ## The match that is preferred -/

theorem head_seq {r s : Regex} {cs : List Char} {h : Found}
    (hhead : ((seq r s).matchesAt word prev cs groups).head? = some h) :
    ∃ f ∈ r.matchesAt word prev cs groups, ∃ g,
      (s.matchesAt word (lastOf prev f.text) (cs.drop f.text.length) f.groups).head? = some g ∧
        h = ⟨f.text ++ g.text, g.groups⟩ := by
  rw [matchesAt, chain, List.head?_flatMap] at hhead
  obtain ⟨f, hf, hsome⟩ := List.exists_of_findSome?_eq_some hhead
  rw [List.head?_map] at hsome
  obtain ⟨g, hg, rfl⟩ := Option.map_eq_some_iff.1 hsome
  exact ⟨f, hf, g, hg, rfl⟩

theorem head_repeated {p : Char → Bool} {n : Nat} {cs : List Char} (h : cs.length ≤ n) :
    (repeated true ((char p).matchesAt word) n prev cs groups).head? =
      some ⟨cs.takeWhile p, groups⟩ := by
  induction n generalizing prev cs with
  | zero =>
    obtain rfl := List.length_eq_zero_iff.1 (Nat.le_zero.1 h)
    rfl
  | succ n ih =>
    cases cs with
    | nil => rfl
    | cons c cs =>
      rw [repeated, matchesAt]
      by_cases hp : p c = true
      · simp [hp, chain, ih (Nat.le_of_succ_le_succ h)]
      · simp [hp, chain]

/-- A class is repeated as often as possible. -/
theorem head_star {p : Char → Bool} {cs : List Char} :
    ((star true (char p)).matchesAt word prev cs groups).head? =
      some ⟨cs.takeWhile p, groups⟩ :=
  head_repeated (le_refl _)

theorem head_plus {p : Char → Bool} {cs : List Char} {h : Found}
    (hhead : ((plus (char p)).matchesAt word prev cs groups).head? = some h) :
    h = ⟨cs.takeWhile p, groups⟩ := by
  obtain ⟨f, hf, g, hg, rfl⟩ := head_seq hhead
  obtain ⟨rest, rfl, hmatch⟩ := mem_matchesAt.1 hf
  obtain ⟨c, hc, hp, hgroups⟩ := matches_char.1 hmatch
  rw [hc] at hg ⊢
  rw [head_star] at hg
  obtain rfl := Option.some.inj hg
  simp [hp, hgroups]

/-- The preferred match ends where no character of the class `p` follows. -/
def StopsAt (word : Char → Bool) (p : Char → Bool) (r : Regex) : Prop :=
  ∀ prev w rest groups groups',
    (r.matchesAt word prev (w ++ rest) groups).head? = some ⟨w, groups'⟩ →
      ∀ c ∈ rest.head?, p c = false

theorem stopsAt_plus (p : Char → Bool) : StopsAt word p (plus (char p)) := by
  intro prev w rest groups groups' hhead
  obtain ⟨hw, _⟩ := Found.mk.inj (head_plus hhead)
  intro c hc
  cases rest with
  | nil => cases hc
  | cons d rest =>
    obtain rfl := Option.some.inj hc
    have hall : ∀ c ∈ w, p c = true := by
      rw [hw]
      exact fun c hc => List.mem_takeWhile_imp hc
    rw [List.takeWhile_append_of_pos hall, List.takeWhile_cons] at hw
    by_contra hp
    rw [if_pos (Bool.of_not_eq_false hp)] at hw
    exact List.cons_ne_nil _ _ (List.append_right_eq_self.1 hw.symm)

theorem StopsAt.seq {p : Char → Bool} {s : Regex} (h : StopsAt word p s) (r : Regex) :
    StopsAt word p (seq r s) := by
  intro prev w rest groups groups' hhead
  obtain ⟨f, hf, g, hg, heq⟩ := head_seq hhead
  obtain ⟨rfl, rfl⟩ := Found.mk.inj heq
  rw [List.append_assoc, List.drop_left] at hg
  exact h _ _ _ _ _ hg

theorem StopsAt.group {p : Char → Bool} {r : Regex} (h : StopsAt word p r) (name : Nat) :
    StopsAt word p (group name r) := by
  intro prev w rest groups groups' hhead
  rw [matchesAt, List.head?_map] at hhead
  obtain ⟨f, hf, heq⟩ := Option.map_eq_some_iff.1 hhead
  obtain ⟨rfl, rfl⟩ := Found.mk.inj heq
  exact h _ _ _ _ _ hf

/-- Before `rest`, the preferred match is `w`. -/
def Takes (word : Char → Bool) (r : Regex) (prev : Option Char) (w rest : List Char)
    (groups groups' : Groups) : Prop :=
  (r.matchesAt word prev (w ++ rest) groups).head? = some ⟨w, groups'⟩

theorem Takes.seq {r s : Regex} {v : List Char} {groups₁ : Groups}
    (hr : Takes word r prev v (w ++ rest) groups groups₁)
    (hs : Takes word s (lastOf prev v) w rest groups₁ groups') :
    Takes word (seq r s) prev (v ++ w) rest groups groups' := by
  obtain ⟨found, hfound⟩ := List.head?_eq_some_iff.1 hr
  unfold Takes
  rw [matchesAt, chain, List.append_assoc, hfound, List.flatMap_cons, List.head?_append,
    List.head?_map, List.drop_left, hs]
  rfl

theorem takes_char {p : Char → Bool} {c : Char} (h : p c = true) :
    Takes word (char p) prev [c] rest groups groups := by
  unfold Takes
  rw [matchesAt.eq_def]
  simp [h]

/-- Characters of some classes, one after the other. -/
theorem takes_chars {α : Type*} {p : α → Char → Bool} {as : List α}
    (h : List.Forall₂ (fun a c => p a c = true) as w) :
    Takes word (as.foldr (fun a r => seq (char (p a)) r) empty) prev w rest groups groups := by
  induction h generalizing prev with
  | nil => rfl
  | cons h _ ih => exact (takes_char h).seq ih

theorem takes_literal (s : String) : Takes word (literal s) prev s.toList rest groups groups := by
  unfold literal
  generalize s.toList = cs
  induction cs generalizing prev with
  | nil => rfl
  | cons c cs ih => exact (takes_char (beq_self_eq_true c)).seq ih

theorem takes_star {p : Char → Bool} (h : ∀ c ∈ w, p c = true)
    (hrest : ∀ c ∈ rest.head?, p c = false) :
    Takes word (star true (char p)) prev w rest groups groups := by
  have hstop : rest.takeWhile p = [] := by
    cases rest with
    | nil => rfl
    | cons c rest => exact List.takeWhile_cons_of_neg (by simp [hrest c rfl])
  unfold Takes
  rw [head_star, List.takeWhile_append_of_pos h, hstop, List.append_nil]

theorem takes_plus {p : Char → Bool} (hne : w ≠ []) (h : ∀ c ∈ w, p c = true)
    (hrest : ∀ c ∈ rest.head?, p c = false) :
    Takes word (plus (char p)) prev w rest groups groups := by
  cases w with
  | nil => exact absurd rfl hne
  | cons c w =>
    obtain ⟨hc, hw⟩ := List.forall_mem_cons.1 h
    have hchar : Takes word (char p) prev [c] (w ++ rest) groups groups := takes_char hc
    exact hchar.seq (takes_star hw hrest)

end

end Regex
