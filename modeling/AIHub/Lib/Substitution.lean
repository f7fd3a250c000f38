import AIHub.Lib.Regex
import AIHub.Lib.Text

/-!
# Substitution of a regular expression

`scan` goes through a text from the left. It takes the first match at each place, and goes on after
it. What lies between the matches is kept. `sub` puts other texts in the place of the matches.

* `scanned`: the pieces of a text, one after the other. The proofs about a scan are inductions on
  this relation.
* `sub_eq_self`: a text without a character that all matches have is left as it is.
* `sub_append`: what stands before a separator and what stands after it are replaced apart.
* `infix_render_iff`: what stands in an output has been kept, or lies over a replacement.
-/

namespace Regex

/-! ## Scanning -/

inductive Piece where
  | kept (c : Char)
  | hit (found : Found)
  deriving DecidableEq

/-- What a piece stands for in the text. -/
def Piece.source : Piece → List Char
  | kept c => [c]
  | hit found => found.text

/-- The characters of some pieces. -/
def source (pieces : List Piece) : List Char := pieces.flatMap Piece.source

section

variable (word : Char → Bool) (r : Regex)

/-- The pieces of a text of which the first characters have been taken by a match. The expression
must not match the empty text. -/
def scanFrom : Nat → Option Char → List Char → List Piece
  | _, _, [] => []
  | skip + 1, _, c :: cs => scanFrom skip (some c) cs
  | 0, prev, c :: cs =>
    match r.first word prev (c :: cs) with
    | some found => .hit found :: scanFrom (found.text.length - 1) (some c) cs
    | none => .kept c :: scanFrom 0 (some c) cs

def scan (cs : List Char) : List Piece := r.scanFrom word 0 none cs

/-- What is put in the place of a piece. -/
def Piece.render (f : Found → List Char) : Piece → List Char
  | kept c => [c]
  | hit found => f found

def render (f : Found → List Char) (pieces : List Piece) : List Char :=
  pieces.flatMap (Piece.render f)

/-- `pattern.sub(replacement, text)`. -/
def sub (f : Found → List Char) (cs : List Char) : List Char := render f (r.scan word cs)

end

/-! ## Scanning a text -/

section

variable {word : Char → Bool} {r : Regex} {prev : Option Char} {cs : List Char}
  {pieces : List Piece}

theorem mem_of_first {found : Found} (h : r.first word prev cs = some found) :
    found ∈ r.matchesAt word prev cs [] :=
  List.mem_of_mem_head? h

theorem first_eq_none :
    r.first word prev cs = none ↔ ∀ w rest groups, cs = w ++ rest →
      ¬ Matches word r prev w rest [] groups := by
  unfold first
  rw [List.head?_eq_none_iff, List.eq_nil_iff_forall_not_mem]
  constructor
  · intro h w rest groups hcs hmatch
    exact h ⟨w, groups⟩ (mem_matchesAt.2 ⟨rest, hcs, hmatch⟩)
  · intro h f hf
    obtain ⟨rest, hcs, hmatch⟩ := mem_matchesAt.1 hf
    exact h f.text rest f.groups hcs hmatch

/-- The first match is one of those that are possible. -/
theorem matches_of_first {w rest : List Char} {groups : Groups}
    (h : r.first word prev (w ++ rest) = some ⟨w, groups⟩) :
    Matches word r prev w rest [] groups :=
  mem_of_first h

/-- The pieces of a text that stands after `prev`. -/
inductive Scanned (word : Char → Bool) (r : Regex) :
    Option Char → List Char → List Piece → Prop
  | nil {prev : Option Char} : Scanned word r prev [] []
  | kept {prev : Option Char} {c : Char} {cs : List Char} {pieces : List Piece} :
    r.first word prev (c :: cs) = none → Scanned word r (some c) cs pieces →
    Scanned word r prev (c :: cs) (.kept c :: pieces)
  | hit {prev : Option Char} {w : List Char} {groups : Groups} {cs : List Char}
    {pieces : List Piece} : w ≠ [] → r.first word prev (w ++ cs) = some ⟨w, groups⟩ →
    Scanned word r (lastOf prev w) cs pieces →
    Scanned word r prev (w ++ cs) (.hit ⟨w, groups⟩ :: pieces)

theorem scanFrom_append (w : List Char) (prev : Option Char) (cs : List Char) :
    r.scanFrom word w.length prev (w ++ cs) = r.scanFrom word 0 (lastOf prev w) cs := by
  induction w generalizing prev with
  | nil => rfl
  | cons c w ih =>
    rw [List.length_cons, List.cons_append, scanFrom, ih, lastOf_cons]

theorem scanFrom_hit {w : List Char} {groups : Groups} (hne : w ≠ [])
    (h : r.first word prev (w ++ cs) = some ⟨w, groups⟩) :
    r.scanFrom word 0 prev (w ++ cs) =
      .hit ⟨w, groups⟩ :: r.scanFrom word 0 (lastOf prev w) cs := by
  obtain ⟨c, w, rfl⟩ := List.exists_cons_of_ne_nil hne
  rw [List.cons_append, scanFrom, ← List.cons_append, h]
  dsimp only
  rw [List.length_cons, Nat.add_sub_cancel, scanFrom_append, lastOf_cons]

/-- There is one way to read a text. -/
theorem Scanned.eq_scanFrom (h : Scanned word r prev cs pieces) :
    pieces = r.scanFrom word 0 prev cs := by
  induction h with
  | nil => rfl
  | kept hnone _ ih => rw [scanFrom, hnone, ih]
  | hit hne hsome _ ih => rw [scanFrom_hit hne hsome, ih]

/-- The induction on the pieces of a text. -/
theorem scanned (h : r.consumes = true) (prev : Option Char) (cs : List Char) :
    Scanned word r prev cs (r.scanFrom word 0 prev cs) := by
  induction hn : cs.length using Nat.strong_induction_on generalizing prev cs with
  | _ n ih =>
    subst hn
    cases cs with
    | nil => exact .nil
    | cons c cs =>
      cases hfirst : r.first word prev (c :: cs) with
      | none =>
        rw [scanFrom, hfirst]
        exact .kept hfirst (ih _ (Nat.lt_succ_self _) _ _ rfl)
      | some found =>
        obtain ⟨rest, hcs, hmatch⟩ := mem_matchesAt.1 (mem_of_first hfirst)
        have hne := ne_nil_of_matches h hmatch
        rw [hcs] at hfirst ⊢
        rw [scanFrom_hit hne hfirst]
        refine .hit hne hfirst (ih _ ?_ _ _ rfl)
        have hpos := List.length_pos_iff.2 hne
        rw [hcs, List.length_append]
        omega

theorem Scanned.source_eq (h : Scanned word r prev cs pieces) : source pieces = cs := by
  induction h with
  | nil => rfl
  | kept _ _ ih => exact congrArg (List.cons _) ih
  | hit _ _ _ ih => exact congrArg (_ ++ ·) ih

/-- The pieces of a text, put together, are the text. -/
theorem scan_source (h : r.consumes = true) (cs : List Char) : source (r.scan word cs) = cs :=
  (scanned h none cs).source_eq

end

/-! ## Substitution -/

section

variable {word : Char → Bool} {r : Regex} {f : Found → List Char} {prev : Option Char}
  {cs : List Char} {pieces : List Piece}

@[simp] theorem render_kept (ℓ : List Char) : render f (ℓ.map .kept) = ℓ := by
  induction ℓ with
  | nil => rfl
  | cons c ℓ ih => exact congrArg (List.cons c) ih

@[simp] theorem source_kept (ℓ : List Char) : source (ℓ.map .kept) = ℓ := by
  induction ℓ with
  | nil => rfl
  | cons c ℓ ih => exact congrArg (List.cons c) ih

@[simp] theorem render_append (ps qs : List Piece) :
    render f (ps ++ qs) = render f ps ++ render f qs :=
  List.flatMap_append

@[simp] theorem source_append (ps qs : List Piece) : source (ps ++ qs) = source ps ++ source qs :=
  List.flatMap_append

/-- The characters of an output are those of the text and of the replacements. -/
theorem mem_render {c : Char} (h : c ∈ render f pieces) :
    c ∈ source pieces ∨ ∃ found, .hit found ∈ pieces ∧ c ∈ f found := by
  obtain ⟨p, hp, hc⟩ := List.mem_flatMap.1 h
  cases p with
  | kept d => exact .inl (List.mem_flatMap.2 ⟨_, hp, hc⟩)
  | hit found => exact .inr ⟨found, hp, hc⟩

theorem mem_sub (hr : r.consumes = true) {c : Char} (h : c ∈ r.sub word f cs) :
    c ∈ cs ∨ ∃ found, c ∈ f found := by
  rcases mem_render h with h | ⟨found, _, h⟩
  · exact .inl (scan_source hr cs ▸ h)
  · exact .inr ⟨found, h⟩

theorem Scanned.subset_of_hit (h : Scanned word r prev cs pieces) {found : Found}
    (hfound : .hit found ∈ pieces) : found.text ⊆ cs ∧ ∀ g ∈ found.groups, g.2 ⊆ found.text := by
  induction h with
  | nil => cases hfound
  | kept _ _ ih =>
    rcases List.mem_cons.1 hfound with hfound | hfound
    · cases hfound
    · exact ⟨List.subset_cons_of_subset _ (ih hfound).1, (ih hfound).2⟩
  | hit _ hfirst _ ih =>
    rcases List.mem_cons.1 hfound with hfound | hfound
    · cases hfound
      refine ⟨List.subset_append_left _ _, fun g hg => ?_⟩
      exact (subset_of_matches (matches_of_first hfirst) g hg).resolve_left List.not_mem_nil
    · exact ⟨List.subset_append_of_subset_right _ (ih hfound).1, (ih hfound).2⟩

/-- What is true of the characters of a text is true of those of the output, if the replacements
keep it. -/
theorem forall_sub {P : Char → Prop} (hr : r.consumes = true)
    (hf : ∀ found : Found, (∀ c ∈ found.text, P c) → (∀ g ∈ found.groups, ∀ c ∈ g.2, P c) →
      ∀ c ∈ f found, P c)
    (hcs : ∀ c ∈ cs, P c) : ∀ c ∈ r.sub word f cs, P c := by
  intro c hc
  rcases mem_render hc with hc | ⟨found, hfound, hc⟩
  · exact hcs c (scan_source hr cs ▸ hc)
  · obtain ⟨htext, hgroups⟩ := (scanned hr none cs).subset_of_hit hfound
    exact hf found (fun d hd => hcs d (htext hd))
      (fun g hg d hd => hcs d (htext (hgroups g hg hd))) c hc

/-- A text with a character of a kind keeps one, if every replacement has one. -/
theorem exists_sub {Q : Char → Prop} (hr : r.consumes = true) (hf : ∀ found, ∃ c ∈ f found, Q c)
    (hcs : ∃ c ∈ cs, Q c) : ∃ c ∈ r.sub word f cs, Q c := by
  by_cases hhit : ∃ found, .hit found ∈ r.scan word cs
  · obtain ⟨found, hfound⟩ := hhit
    obtain ⟨c, hc, hq⟩ := hf found
    exact ⟨c, List.mem_flatMap.2 ⟨_, hfound, hc⟩, hq⟩
  · obtain ⟨c, hc, hq⟩ := hcs
    rw [← scan_source hr cs] at hc
    obtain ⟨p, hp, hc⟩ := List.mem_flatMap.1 hc
    cases p with
    | kept d => exact ⟨c, List.mem_flatMap.2 ⟨_, hp, hc⟩, hq⟩
    | hit found => exact absurd ⟨found, hp⟩ hhit

/-- There is no match in a text, or a first one. -/
theorem Scanned.first_hit (h : Scanned word r prev cs pieces) :
    (pieces = cs.map .kept ∧
      ∀ a b, cs = a ++ b → b ≠ [] → r.first word (lastOf prev a) b = none) ∨
    ∃ a w groups b qs, cs = a ++ (w ++ b) ∧ pieces = a.map .kept ++ .hit ⟨w, groups⟩ :: qs ∧
      r.first word (lastOf prev a) (w ++ b) = some ⟨w, groups⟩ ∧
      Scanned word r (lastOf (lastOf prev a) w) b qs := by
  induction h with
  | nil =>
    refine .inl ⟨rfl, fun a b hcs hb => ?_⟩
    exact absurd (List.append_eq_nil_iff.1 hcs.symm).2 hb
  | @kept prev c cs pieces hnone hrest ih =>
    rcases ih with ⟨rfl, hfirst⟩ | ⟨a, w, groups, b, qs, rfl, rfl, hsome, hqs⟩
    · refine .inl ⟨rfl, fun a b hcs hb => ?_⟩
      rcases List.cons_eq_append_iff.1 hcs with ⟨rfl, rfl⟩ | ⟨a, rfl, rfl⟩
      · exact hnone
      · rw [lastOf_cons]
        exact hfirst a b rfl hb
    · refine .inr ⟨c :: a, w, groups, b, qs, rfl, rfl, ?_, ?_⟩ <;> rwa [lastOf_cons]
  | hit hne hsome hrest => exact .inr ⟨[], _, _, _, _, rfl, rfl, hsome, hrest⟩

/-- A text without a match is left as it is. -/
theorem scanFrom_eq_kept
    (h : ∀ a b, cs = a ++ b → b ≠ [] → r.first word (lastOf prev a) b = none) :
    r.scanFrom word 0 prev cs = cs.map .kept := by
  induction cs generalizing prev with
  | nil => rfl
  | cons c cs ih =>
    have hnone := h [] (c :: cs) rfl (List.cons_ne_nil c cs)
    rw [lastOf_nil] at hnone
    rw [scanFrom, hnone]
    refine congrArg (List.cons _) (ih fun a b hcs hb => ?_)
    rw [← lastOf_cons]
    exact h (c :: a) b (congrArg _ hcs) hb

/-- Every match has a character of the class `q`. -/
def Needs (word : Char → Bool) (q : Char → Bool) (r : Regex) : Prop :=
  ∀ prev w rest groups groups', Matches word r prev w rest groups groups' → ∃ c ∈ w, q c = true

theorem needs_char {q p : Char → Bool} (h : ∀ c, p c = true → q c = true) :
    Needs word q (char p) := by
  intro prev w rest groups groups' hmatch
  obtain ⟨c, rfl, hp, _⟩ := matches_char.1 hmatch
  exact ⟨c, List.mem_singleton_self c, h c hp⟩

theorem needs_literal {q : Char → Bool} {s : String} {c : Char} (hc : c ∈ s.toList)
    (hq : q c = true) : Needs word q (literal s) := by
  intro prev w rest groups groups' hmatch
  obtain ⟨rfl, _⟩ := matches_literal.1 hmatch
  exact ⟨c, hc, hq⟩

theorem Needs.seq_left {q : Char → Bool} (h : Needs word q r) (s : Regex) :
    Needs word q (seq r s) := by
  intro prev w rest groups groups' hmatch
  obtain ⟨w₁, w₂, groups₁, rfl, hmatch, _⟩ := matches_seq.1 hmatch
  obtain ⟨c, hc, hq⟩ := h _ _ _ _ _ hmatch
  exact ⟨c, List.mem_append_left _ hc, hq⟩

theorem Needs.seq_right {q : Char → Bool} {s : Regex} (h : Needs word q s) (r : Regex) :
    Needs word q (seq r s) := by
  intro prev w rest groups groups' hmatch
  obtain ⟨w₁, w₂, groups₁, rfl, _, hmatch⟩ := matches_seq.1 hmatch
  obtain ⟨c, hc, hq⟩ := h _ _ _ _ _ hmatch
  exact ⟨c, List.mem_append_right _ hc, hq⟩

theorem Needs.concat {q : Char → Bool} (h : Needs word q r) {rs : List Regex} (hr : r ∈ rs) :
    Needs word q (concat rs) := by
  induction rs with
  | nil => cases hr
  | cons s rs ih =>
    cases rs with
    | nil =>
      obtain rfl := List.mem_singleton.1 hr
      exact h
    | cons s' rs =>
      rcases List.mem_cons.1 hr with rfl | hr
      · exact h.seq_left _
      · exact (ih hr).seq_right s

theorem Needs.alt {q : Char → Bool} {s : Regex} (hr : Needs word q r) (hs : Needs word q s) :
    Needs word q (alt r s) := by
  intro prev w rest groups groups' hmatch
  rcases matches_alt.1 hmatch with hmatch | hmatch
  · exact hr _ _ _ _ _ hmatch
  · exact hs _ _ _ _ _ hmatch

theorem Needs.group {q : Char → Bool} (h : Needs word q r) (name : Nat) :
    Needs word q (group name r) := by
  intro prev w rest groups groups' hmatch
  obtain ⟨_, hmatch, _⟩ := matches_group.1 hmatch
  exact h _ _ _ _ _ hmatch

theorem first_eq_none_of_needs {q : Char → Bool} (h : Needs word q r)
    (hcs : ∀ c ∈ cs, q c = false) : r.first word prev cs = none := by
  refine first_eq_none.2 fun w rest groups hsplit hmatch => ?_
  obtain ⟨c, hc, hq⟩ := h _ _ _ _ _ hmatch
  exact Bool.false_ne_true ((hcs c (hsplit ▸ List.mem_append_left _ hc)).symm.trans hq)

/-- A text without characters that are needed is left as it is. -/
theorem sub_eq_self {q : Char → Bool} (h : Needs word q r) (hcs : ∀ c ∈ cs, q c = false) :
    r.sub word f cs = cs := by
  rw [sub, scan, scanFrom_eq_kept, render_kept]
  intro a b hsplit hb
  exact first_eq_none_of_needs h fun c hc => hcs c (hsplit ▸ List.mem_append_right _ hc)

/-- Only whether the character before the text is a word character matters. -/
theorem scanFrom_prev (prev' : Option Char) (h : prev.any word = prev'.any word) :
    r.scanFrom word 0 prev cs = r.scanFrom word 0 prev' cs := by
  cases cs with
  | nil => rfl
  | cons c cs => rw [scanFrom, scanFrom, first, first, matchesAt_prev h]

theorem Scanned.append {c : Char} (hword : word c = false) (hc : r.avoids c = true)
    {more : List Char} {qs : List Piece} (hqs : Scanned word r none more qs)
    (hr : r.consumes = true) (h : Scanned word r prev cs pieces) :
    Scanned word r prev (cs ++ c :: more) (pieces ++ .kept c :: qs) := by
  have hfirst : ∀ prev cs, r.first word prev (cs ++ c :: more) = r.first word prev cs :=
    fun prev cs => congrArg List.head? (matchesAt_append hword hc prev cs more [])
  induction h with
  | @nil prev =>
    refine .kept ?_ ?_
    · rw [← List.nil_append (c :: more), hfirst]
      refine first_eq_none.2 fun w rest groups hsplit hmatch => ?_
      exact ne_nil_of_matches hr hmatch (List.append_eq_nil_iff.1 hsplit.symm).1
    · rw [hqs.eq_scanFrom, scanFrom_prev (some c) (by simpa using hword.symm)]
      exact scanned hr (some c) more
  | @kept prev d cs pieces hnone hrest ih => exact .kept ((hfirst prev (d :: cs)).trans hnone) ih
  | @hit prev w groups cs pieces hne hsome hrest ih =>
    rw [List.append_assoc]
    refine .hit hne ?_ ih
    rw [← List.append_assoc, hfirst, hsome]

/-- What stands before a separator and what stands after it are replaced apart. -/
theorem sub_append {c : Char} (hword : word c = false) (hc : r.avoids c = true)
    (hr : r.consumes = true) (a b : List Char) :
    r.sub word f (a ++ c :: b) = r.sub word f a ++ c :: r.sub word f b := by
  have h := Scanned.append hword hc (scanned hr none b) hr (scanned hr none a)
  unfold sub scan
  rw [← h.eq_scanFrom, render_append]
  rfl

/-- In the output, `ℓ` lies over a replacement. -/
def Spelled (f : Found → List Char) (pieces : List Piece) (ℓ : List Char) : Prop :=
  ∃ ps found qs before after, pieces = ps ++ .hit found :: qs ∧
    render f pieces = before ++ (ℓ ++ after) ∧
    before.length < (render f ps ++ f found).length ∧ (render f ps).length < (before ++ ℓ).length

/-- The pieces at the start of an output. -/
theorem start_of_render {ℓ after : List Char} (h : render f pieces = ℓ ++ after) :
    (∃ qs, pieces = ℓ.map .kept ++ qs ∧ render f qs = after) ∨
      ∃ ps found qs, pieces = ps ++ .hit found :: qs ∧ (render f ps).length < ℓ.length := by
  induction pieces generalizing ℓ with
  | nil =>
    obtain ⟨rfl, rfl⟩ := List.append_eq_nil_iff.1 h.symm
    exact .inl ⟨[], rfl, rfl⟩
  | cons p pieces ih =>
    cases ℓ with
    | nil => exact .inl ⟨p :: pieces, rfl, h⟩
    | cons d ℓ =>
      cases p with
      | hit found => exact .inr ⟨[], found, pieces, rfl, Nat.succ_pos _⟩
      | kept c =>
        obtain ⟨rfl, hrest⟩ := List.cons.inj h
        rcases ih hrest with ⟨qs, rfl, hqs⟩ | ⟨ps, found, qs, rfl, hlt⟩
        · exact .inl ⟨qs, rfl, hqs⟩
        · exact .inr ⟨.kept c :: ps, found, qs, rfl, Nat.succ_lt_succ hlt⟩

/-- What stands in an output has been kept, or lies over a replacement. -/
theorem place_of_render {ℓ before after : List Char} (hne : ℓ ≠ [])
    (h : render f pieces = before ++ (ℓ ++ after)) :
    (∃ ps qs, pieces = ps ++ (ℓ.map .kept ++ qs) ∧ render f ps = before ∧ render f qs = after) ∨
      Spelled f pieces ℓ := by
  induction pieces generalizing before with
  | nil =>
    exact absurd (List.append_eq_nil_iff.1 (List.append_eq_nil_iff.1 h.symm).2).1 hne
  | cons p pieces ih =>
    have hpos := List.length_pos_iff.2 hne
    by_cases hlt : before.length < (p.render f).length
    · cases p with
      | hit found =>
        refine .inr ⟨[], found, pieces, before, after, rfl, h, hlt, ?_⟩
        rw [List.length_append]
        exact Nat.add_pos_right _ hpos
      | kept c =>
        obtain rfl := List.length_eq_zero_iff.1 (Nat.lt_one_iff.1 hlt)
        obtain ⟨d, ℓ, rfl⟩ := List.exists_cons_of_ne_nil hne
        obtain ⟨rfl, hrest⟩ := List.cons.inj h
        rcases start_of_render hrest with ⟨qs, rfl, hqs⟩ | ⟨ps, found, qs, rfl, hover⟩
        · exact .inl ⟨[], qs, rfl, rfl, hqs⟩
        · refine .inr ⟨.kept c :: ps, found, qs, [], after, rfl, h, Nat.succ_pos _, ?_⟩
          exact Nat.succ_lt_succ hover
    · have hsplit : p.render f ++ render f pieces = before ++ (ℓ ++ after) := h
      obtain ⟨before, rfl⟩ : p.render f <+: before :=
        List.prefix_of_prefix_length_le (List.prefix_append _ _) ⟨_, hsplit.symm⟩
          (Nat.le_of_not_lt hlt)
      rw [List.append_assoc, List.append_cancel_left_eq] at hsplit
      rcases ih hsplit with ⟨ps, qs, rfl, rfl, hqs⟩ | hspelled
      · exact .inl ⟨p :: ps, qs, rfl, rfl, hqs⟩
      · obtain ⟨ps, found, qs, before', after', rfl, hrender, hlt₁, hlt₂⟩ := hspelled
        refine .inr ⟨p :: ps, found, qs, p.render f ++ before', after', rfl, ?_, ?_, ?_⟩
        · change p.render f ++ render f (ps ++ .hit found :: qs) = _
          rw [hrender, List.append_assoc]
        · simp only [render, List.flatMap_cons, List.length_append] at hlt₁ ⊢
          omega
        · simp only [render, List.flatMap_cons, List.length_append] at hlt₂ ⊢
          omega

/-- A piece that puts in nothing of `ℓ`. -/
def Piece.apart (f : Found → List Char) (ℓ : List Char) : Piece → Bool
  | kept _ => true
  | hit found => f found ≠ [] && ℓ.all fun c => !(f found).contains c

/-- A text without the ends of the replacement stands in an output where it stood before, or inside
the replacement. -/
theorem infix_render_of_enclosed {ℓ m : List Char} {a b : Char} (ha : a ∉ ℓ) (hb : b ∉ ℓ)
    (hf : ∀ found, f found = a :: (m ++ [b])) (before : List Char)
    (h : ℓ <:+: before ++ render f pieces) : ℓ <:+: before ++ source pieces ∨ ℓ <:+: m := by
  induction pieces generalizing before with
  | nil => exact .inl h
  | cons p pieces ih =>
    cases p with
    | kept c =>
      have hnext := ih (before ++ [c]) (by rw [List.append_assoc]; exact h)
      rw [List.append_assoc] at hnext
      exact hnext
    | hit found =>
      have hsplit : before ++ render f (.hit found :: pieces) =
          before ++ a :: (m ++ b :: ([] ++ render f pieces)) := by
        simp [render, Piece.render, hf]
      rw [hsplit, Text.infix_append_cons ha, Text.infix_append_cons hb] at h
      rcases h with h | h | h
      · exact .inl (h.trans (List.prefix_append _ _).isInfix)
      · exact .inr h
      · refine (ih [] h).imp_left fun h => h.trans (List.IsSuffix.isInfix ?_)
        exact ⟨before ++ found.text, by simp [source, Piece.source]⟩

theorem infix_sub_of_enclosed (hr : r.consumes = true) {ℓ m : List Char} {a b : Char} (ha : a ∉ ℓ)
    (hb : b ∉ ℓ) (hf : ∀ found, f found = a :: (m ++ [b])) (h : ℓ <:+: r.sub word f cs) :
    ℓ <:+: cs ∨ ℓ <:+: m := by
  have h' := infix_render_of_enclosed ha hb hf [] h
  rwa [List.nil_append, scan_source hr] at h'

end

/-! ## One pass after the other -/

/-- A pattern and what is put in the place of its matches. -/
abbrev Pass := Regex × (Found → List Char)

section

variable (word : Char → Bool)

def subAll (passes : List Pass) (cs : List Char) : List Char :=
  passes.foldl (fun cs p => p.1.sub word p.2 cs) cs

/-- A property of each pass and of the pieces of the text before it. -/
def EachPass (P : Pass → List Piece → Prop) : List Pass → List Char → Prop
  | [], _ => True
  | p :: passes, cs => P p (p.1.scan word cs) ∧ EachPass P passes (p.1.sub word p.2 cs)

/-- No pass spells `ℓ` with what it puts in. -/
def SpelledByNone (passes : List Pass) (cs ℓ : List Char) : Prop :=
  EachPass word (fun p pieces => ¬ Spelled p.2 pieces ℓ) passes cs

end

/-- A match ends inside `core`, or at its end, where `ℓ` follows. -/
def EndsInside (pieces : List Piece) (core ℓ : List Char) : Prop :=
  ∃ ps found qs x y after, pieces = ps ++ .hit found :: qs ∧ core = x ++ y ∧ x ≠ [] ∧
    x <:+ source ps ++ found.text ∧ source qs = y ++ (ℓ ++ after)

/-- Wherever `ℓ` stands, `core` stands before it, and no word character before that. -/
def Follows (word : Char → Bool) (core ℓ cs : List Char) : Prop :=
  ∀ before after, cs = before ++ (ℓ ++ after) →
    ∃ b, before = b ++ core ∧ b.getLast?.any word = false

section

variable {word : Char → Bool} {passes : List Pass} {cs ℓ core : List Char}

theorem EachPass.imp {P Q : Pass → List Piece → Prop} (h : ∀ p pieces, P p pieces → Q p pieces)
    (hP : EachPass word P passes cs) : EachPass word Q passes cs := by
  induction passes generalizing cs with
  | nil => exact trivial
  | cons p passes ih => exact ⟨h _ _ hP.1, ih hP.2⟩

instance decidableEachPass {P : Pass → List Piece → Prop} [∀ p pieces, Decidable (P p pieces)] :
    ∀ (passes : List Pass) (cs : List Char), Decidable (EachPass word P passes cs)
  | [], _ => isTrue trivial
  | p :: passes, cs =>
    @instDecidableAnd _ _ inferInstance (decidableEachPass passes (p.1.sub word p.2 cs))

theorem forall_subAll {P : Char → Prop} (hr : ∀ p ∈ passes, p.1.consumes = true)
    (hf : ∀ p ∈ passes, ∀ found : Found, (∀ c ∈ found.text, P c) →
      (∀ g ∈ found.groups, ∀ c ∈ g.2, P c) → ∀ c ∈ p.2 found, P c)
    (hcs : ∀ c ∈ cs, P c) : ∀ c ∈ subAll word passes cs, P c := by
  induction passes generalizing cs with
  | nil => exact hcs
  | cons p passes ih =>
    obtain ⟨hp, hr⟩ := List.forall_mem_cons.1 hr
    obtain ⟨hpf, hf⟩ := List.forall_mem_cons.1 hf
    exact ih hr hf (forall_sub hp hpf hcs)

theorem exists_subAll {Q : Char → Prop} (hr : ∀ p ∈ passes, p.1.consumes = true)
    (hf : ∀ p ∈ passes, ∀ found, ∃ c ∈ p.2 found, Q c) (hcs : ∃ c ∈ cs, Q c) :
    ∃ c ∈ subAll word passes cs, Q c := by
  induction passes generalizing cs with
  | nil => exact hcs
  | cons p passes ih =>
    obtain ⟨hp, hr⟩ := List.forall_mem_cons.1 hr
    obtain ⟨hpf, hf⟩ := List.forall_mem_cons.1 hf
    exact ih hr hf (exists_sub hp hpf hcs)

/-- A part that no match ends in is kept with what follows it. -/
theorem kept_of_not_endsInside {ps qs : List Piece} {b : List Char}
    (hsource : source ps = b ++ core)
    (hends : ¬ EndsInside (ps ++ (ℓ.map .kept ++ qs)) core ℓ) :
    ∃ ps₁, ps = ps₁ ++ core.map .kept ∧ source ps₁ = b := by
  have hstep : ∀ x y ps₁, core = x ++ y → ps = ps₁ ++ y.map .kept → source ps₁ = b ++ x →
      ∃ ps₂, ps = ps₂ ++ core.map .kept ∧ source ps₂ = b := by
    intro x
    induction x using List.reverseRecOn with
    | nil =>
      intro y ps₁ hcore hps hsource
      obtain rfl : core = y := hcore
      exact ⟨ps₁, hps, hsource.trans (List.append_nil b)⟩
    | append_singleton x c ih =>
      intro y ps₁ hcore hps hsource
      rcases List.eq_nil_or_concat' ps₁ with rfl | ⟨ps₁, p, rfl⟩
      · exact absurd hsource (by simp [source])
      · cases p with
        | kept d =>
          rw [source_append, ← List.append_assoc] at hsource
          obtain ⟨hrest, heq⟩ := List.append_inj' hsource rfl
          obtain rfl : d = c := (List.cons.inj heq).1
          refine ih (d :: y) ps₁ ?_ ?_ hrest
          · rw [hcore, List.append_assoc]
            rfl
          · rw [hps, List.append_assoc]
            rfl
        | hit found =>
          refine absurd ⟨ps₁, found, y.map .kept ++ (ℓ.map .kept ++ qs), x ++ [c], y, source qs, ?_,
            hcore, by simp, ⟨b, ?_⟩, ?_⟩ hends
          · rw [hps]
            simp
          · rw [← hsource, source_append]
            exact congrArg _ (List.append_nil _)
          · simp
  exact hstep core [] ps (List.append_nil core).symm (List.append_nil ps).symm hsource

theorem getLast_render {f : Found → List Char} {ps : List Piece}
    (hf : ∀ found, (f found).getLast?.any (fun c => !word c) = true)
    (h : (source ps).getLast?.any word = false) : (render f ps).getLast?.any word = false := by
  rcases List.eq_nil_or_concat' ps with rfl | ⟨ps, p, rfl⟩
  · rfl
  · cases p with
    | kept c =>
      have hc : word c = false := by simpa [source, Piece.source] using h
      simpa [render, Piece.render] using hc
    | hit found =>
      have hlast := hf found
      rw [render_append]
      change (render f ps ++ (f found ++ [])).getLast?.any word = false
      rw [List.append_nil, List.getLast?_append]
      cases hw : (f found).getLast? with
      | none =>
        rw [hw] at hlast
        cases hlast
      | some c =>
        rw [hw] at hlast
        simpa using hlast

/-- One pass. -/
theorem Follows.sub {p : Pass} (hne : ℓ ≠ []) (hp : p.1.consumes = true)
    (hlast : ∀ found, (p.2 found).getLast?.any (fun c => !word c) = true)
    (hspelled : ¬ Spelled p.2 (p.1.scan word cs) ℓ)
    (hends : ¬ EndsInside (p.1.scan word cs) core ℓ) (h : Follows word core ℓ cs) :
    Follows word core ℓ (p.1.sub word p.2 cs) := by
  intro before after hcs
  rcases place_of_render hne hcs with ⟨ps, qs, hpieces, rfl, -⟩ | hspell
  · have hsource : source (p.1.scan word cs) = cs := scan_source hp cs
    rw [hpieces, source_append, source_append, source_kept] at hsource
    obtain ⟨b, hb, hfree⟩ := h _ _ hsource.symm
    rw [hpieces] at hends
    obtain ⟨ps, rfl, rfl⟩ := kept_of_not_endsInside hb hends
    exact ⟨render p.2 ps, by rw [render_append, render_kept], getLast_render hlast hfree⟩
  · exact absurd hspell hspelled

/-- All passes. -/
theorem Follows.subAll (hne : ℓ ≠ []) (hr : ∀ p ∈ passes, p.1.consumes = true)
    (hlast : ∀ p ∈ passes, ∀ found, (p.2 found).getLast?.any (fun c => !word c) = true)
    (hspelled : SpelledByNone word passes cs ℓ)
    (hends : EachPass word (fun _ pieces => ¬ EndsInside pieces core ℓ) passes cs)
    (h : Follows word core ℓ cs) : Follows word core ℓ (subAll word passes cs) := by
  induction passes generalizing cs with
  | nil => exact h
  | cons p passes ih =>
    obtain ⟨hp, hr⟩ := List.forall_mem_cons.1 hr
    obtain ⟨hlast', hlast⟩ := List.forall_mem_cons.1 hlast
    exact ih hr hlast hspelled.2 hends.2 (h.sub hne hp hlast' hspelled.1 hends.1)

end

end Regex
