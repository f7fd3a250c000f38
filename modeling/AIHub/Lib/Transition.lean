import Mathlib.Data.List.Basic

/-!
# Labelled transition systems

A concurrent program is a set of initial states and a step relation whose labels say which
party moves and what its environment answered. A *run* is a list of labels; what holds along
every run is proved by the invariant rule (`Invariant.reachable`).

* `Run`, `Reachable`: finite runs, and the states they end in.
* `guard C`: the same system, restricted to steps whose state and label meet `C`. A property
  that needs every step of a run to meet `C` is a property of the runs of `guard C`.
* `Run.exists_entry`: a run that starts outside `P` and ends inside it contains the step that
  enters `P`.
* `Run.exists_unless`: a run that leaves `P`, where `P` is only left for `Q`, passes through `Q`.
* `Simulation.reachable`: where an abstract system matches every step of `M`, a reachable state
  of `M` stands for a reachable abstract state, and has what the abstract invariants say of it.
* `ofNext`, `exec`: systems given by a partial function, whose runs can be evaluated.
-/

namespace Transition

universe u v w x

/-- A labelled transition system. -/
structure System (σ : Type u) (α : Type v) where
  init : σ → Prop
  step : σ → α → σ → Prop

namespace System

variable {σ : Type u} {α : Type v}

/-- `M.Run s as t`: the steps labelled `as` lead from `s` to `t`. -/
inductive Run (M : System σ α) : σ → List α → σ → Prop
  | nil (s : σ) : Run M s [] s
  | cons {s t u : σ} {a : α} {as : List α} : M.step s a t → Run M t as u → Run M s (a :: as) u

/-- The end of a run from an initial state. -/
def Reachable (M : System σ α) (t : σ) : Prop := ∃ s as, M.init s ∧ M.Run s as t

/-- Only the steps whose state and label meet `C`. -/
def guard (M : System σ α) (C : σ → α → Prop) : System σ α :=
  { M with step := fun s a t => C s a ∧ M.step s a t }

/-- `I` holds initially and every step keeps it. -/
structure Invariant (M : System σ α) (I : σ → Prop) : Prop where
  init : ∀ s, M.init s → I s
  step : ∀ s a t, I s → M.step s a t → I t

variable {M : System σ α} {s t u : σ} {a : α} {as bs : List α}

/-! ## Runs -/

theorem Run.append (h : M.Run s as t) (h' : M.Run t bs u) : M.Run s (as ++ bs) u := by
  induction h with
  | nil => exact h'
  | cons hs _ ih => exact .cons hs (ih h')

theorem Run.single (h : M.step s a t) : M.Run s [a] t := .cons h (.nil t)

theorem Run.snoc (h : M.Run s as t) (h' : M.step t a u) : M.Run s (as ++ [a]) u :=
  h.append (.single h')

/-- A run over a concatenation passes through an intermediate state. -/
theorem Run.split (h : M.Run s (as ++ bs) u) : ∃ t, M.Run s as t ∧ M.Run t bs u := by
  induction as generalizing s with
  | nil => exact ⟨s, .nil s, h⟩
  | cons a as ih =>
    cases h with
    | cons hs ht =>
      obtain ⟨t, h₁, h₂⟩ := ih ht
      exact ⟨t, .cons hs h₁, h₂⟩

theorem Reachable.of_init (h : M.init s) : M.Reachable s := ⟨s, [], h, .nil s⟩

theorem Reachable.run (h : M.Reachable s) (hr : M.Run s as t) : M.Reachable t := by
  obtain ⟨r, bs, hi, hb⟩ := h
  exact ⟨r, bs ++ as, hi, hb.append hr⟩

theorem Reachable.step (h : M.Reachable s) (hs : M.step s a t) : M.Reachable t :=
  h.run (.single hs)

/-- A system with fewer steps has fewer runs. -/
theorem Run.mono {N : System σ α} (hstep : ∀ s a t, M.step s a t → N.step s a t)
    (h : M.Run s as t) : N.Run s as t := by
  induction h with
  | nil s => exact .nil s
  | cons hst _ ih => exact .cons (hstep _ _ _ hst) ih

/-- A system with fewer initial states and fewer steps reaches fewer states. -/
theorem Reachable.mono {N : System σ α} (hinit : ∀ s, M.init s → N.init s)
    (hstep : ∀ s a t, M.step s a t → N.step s a t) (h : M.Reachable t) : N.Reachable t := by
  obtain ⟨s, as, hi, hr⟩ := h
  exact ⟨s, as, hinit s hi, hr.mono hstep⟩

/-! ## Guarded runs -/

theorem Run.of_guard {C : σ → α → Prop} (h : (M.guard C).Run s as t) : M.Run s as t :=
  Run.mono (M := M.guard C) (fun _ _ _ hst => hst.2) h

theorem Reachable.of_guard {C : σ → α → Prop} (h : (M.guard C).Reachable t) : M.Reachable t :=
  Reachable.mono (M := M.guard C) (fun _ hs => hs) (fun _ _ _ hst => hst.2) h

/-- A run whose steps do not all meet `C` has a step that does not. -/
theorem Run.guard_or_exists {C : σ → α → Prop} (h : M.Run s as t) :
    (M.guard C).Run s as t ∨ ∃ bs u a v cs, M.Run s bs u ∧ ¬ C u a ∧ M.step u a v ∧
      M.Run v cs t := by
  induction h with
  | nil s => exact .inl (.nil s)
  | @cons s v t a as hst hr ih =>
    by_cases hC : C s a
    · rcases ih with hguard | ⟨bs, u, b, w, cs, h₁, hb, h₂, h₃⟩
      · exact .inl (.cons ⟨hC, hst⟩ hguard)
      · exact .inr ⟨a :: bs, u, b, w, cs, .cons hst h₁, hb, h₂, h₃⟩
    · exact .inr ⟨[], s, a, v, as, .nil s, hC, hst, hr⟩

/-- Where every step decreases a number, runs are bounded by it. -/
theorem Run.length_le {μ : σ → Nat} (hstep : ∀ s a t, M.step s a t → μ t < μ s)
    (h : M.Run s as t) : as.length + μ t ≤ μ s := by
  induction h with
  | nil => simp
  | cons hst _ ih =>
    have hlt := hstep _ _ _ hst
    rw [List.length_cons]
    omega

/-! ## Invariants -/

theorem Run.keeps {I : σ → Prop} (hstep : ∀ s a t, I s → M.step s a t → I t)
    (h : M.Run s as t) (hs : I s) : I t := by
  induction h with
  | nil => exact hs
  | cons hst _ ih => exact ih (hstep _ _ _ hs hst)

theorem Invariant.reachable {I : σ → Prop} (hI : M.Invariant I) (h : M.Reachable t) : I t := by
  obtain ⟨s, as, hi, hr⟩ := h
  exact hr.keeps hI.step (hI.init s hi)

/-- An invariant whose step may use that the state before is reachable. -/
theorem Reachable.induct {I : σ → Prop} (hinit : ∀ s, M.init s → I s)
    (hstep : ∀ s a t, M.Reachable s → I s → M.step s a t → I t) (h : M.Reachable t) : I t := by
  have hI : M.Invariant fun s => M.Reachable s ∧ I s := {
    init := fun s hs => ⟨.of_init hs, hinit s hs⟩
    step := fun s a t hs hst => ⟨hs.1.step hst, hstep s a t hs.1 hs.2 hst⟩ }
  exact (hI.reachable h).2

/-- What the state determines and every step keeps, a whole run keeps. -/
theorem Run.keeps_from {I : σ → Prop}
    (hstep : ∀ s a t, M.Reachable s → I s → M.step s a t → I t)
    (hr : M.Reachable s) (h : M.Run s as t) (hs : I s) : I t := by
  induction h with
  | nil => exact hs
  | cons hst _ ih => exact ih (hr.step hst) (hstep _ _ _ hr hs hst)

/-- A run that starts outside `P` and ends inside it has a step that enters `P`. -/
theorem Run.exists_entry {P : σ → Prop} (h : M.Run s as t) (hs : ¬ P s) (ht : P t) :
    ∃ as₁ a as₂ u v, as = as₁ ++ a :: as₂ ∧ M.Run s as₁ u ∧ M.step u a v ∧ M.Run v as₂ t ∧
      ¬ P u ∧ P v := by
  induction h with
  | nil => exact absurd ht hs
  | @cons s v t a as hst hr ih =>
    by_cases hv : P v
    · exact ⟨[], a, as, s, v, rfl, .nil s, hst, hr, hs, hv⟩
    · obtain ⟨as₁, b, as₂, u, w, rfl, h₁, h₂, h₃, h₄⟩ := ih hv ht
      exact ⟨a :: as₁, b, as₂, u, w, rfl, .cons hst h₁, h₂, h₃, h₄⟩

/-- The rule of *unless*: where `P` is only left for `Q`, a run that leaves `P` passes through
`Q`. -/
theorem Run.exists_unless {P Q : σ → Prop} (hstep : ∀ s a t, P s → M.step s a t → P t ∨ Q t)
    (h : M.Run s as t) (hs : P s ∨ Q s) (ht : ¬ P t) :
    ∃ bs cs u, as = bs ++ cs ∧ M.Run s bs u ∧ M.Run u cs t ∧ Q u := by
  induction h with
  | nil s => exact ⟨[], [], s, rfl, .nil s, .nil s, hs.resolve_left ht⟩
  | @cons s v t a as hst hr ih =>
    rcases hs with hs | hs
    · obtain ⟨bs, cs, u, rfl, h₁, h₂, hu⟩ := ih (hstep s a v hs hst) ht
      exact ⟨a :: bs, cs, u, rfl, .cons hst h₁, h₂, hu⟩
    · exact ⟨[], a :: as, s, rfl, .nil s, .cons hst hr, hs⟩

/-! ## Simulation -/

/-- Under `R`, the abstract system `A` matches every step of `M` by a run. -/
structure Simulation {τ : Type w} {β : Type x} (M : System σ α) (A : System τ β)
    (R : σ → τ → Prop) : Prop where
  init : ∀ s, M.init s → ∃ t, A.init t ∧ R s t
  step : ∀ s a s' t, M.Reachable s → A.Reachable t → R s t → M.step s a s' →
    ∃ bs t', A.Run t bs t' ∧ R s' t'

theorem Simulation.reachable {τ : Type w} {β : Type x} {A : System τ β} {R : σ → τ → Prop}
    (h : Simulation M A R) (hs : M.Reachable s) : ∃ t, A.Reachable t ∧ R s t := by
  refine hs.induct (I := fun s => ∃ t, A.Reachable t ∧ R s t) ?_ ?_
  · intro s hs
    obtain ⟨t, ht, hR⟩ := h.init s hs
    exact ⟨t, .of_init ht, hR⟩
  · rintro s a s' hs ⟨t, ht, hR⟩ hst
    obtain ⟨bs, t', hr, hR'⟩ := h.step s a s' t hs ht hR hst
    exact ⟨t', ht.run hr, hR'⟩

/-- Where every step of `M` is a step of `A` between the abstractions of its states, every run is
a run of `A`. -/
theorem Run.map {τ : Type w} {β : Type x} {A : System τ β} {f : σ → τ}
    (hstep : ∀ s a t, M.Reachable s → M.step s a t → ∃ b, A.step (f s) b (f t))
    (hs : M.Reachable s) (h : M.Run s as t) : ∃ bs, A.Run (f s) bs (f t) := by
  induction h with
  | nil s => exact ⟨[], .nil (f s)⟩
  | cons hst _ ih =>
    obtain ⟨b, hb⟩ := hstep _ _ _ hs hst
    obtain ⟨bs, hbs⟩ := ih (hs.step hst)
    exact ⟨b :: bs, .cons hb hbs⟩

theorem Reachable.map {τ : Type w} {β : Type x} {A : System τ β} {f : σ → τ}
    (hinit : ∀ s, M.init s → A.init (f s))
    (hstep : ∀ s a t, M.Reachable s → M.step s a t → ∃ b, A.step (f s) b (f t))
    (h : M.Reachable s) : A.Reachable (f s) := by
  obtain ⟨r, as, hi, hr⟩ := h
  obtain ⟨bs, hbs⟩ := Run.map hstep (.of_init hi) hr
  exact ⟨f r, bs, hinit r hi, hbs⟩

/-! ## Systems given by a partial function -/

/-- The system whose step from `s` under `a` is `next s a`, when that is defined. -/
def ofNext (init : σ → Prop) (next : σ → α → Option σ) : System σ α where
  init := init
  step s a t := next s a = some t

/-- Take the steps of a list in order. -/
def exec (next : σ → α → Option σ) : σ → List α → Option σ
  | s, [] => some s
  | s, a :: as => (next s a).bind fun t => exec next t as

theorem run_of_exec {init : σ → Prop} {next : σ → α → Option σ} :
    ∀ {as : List α} {s t : σ}, exec next s as = some t → (ofNext init next).Run s as t
  | [], s, t, h => by
    cases h
    exact .nil s
  | a :: as, s, t, h => by
    obtain ⟨u, hu, ht⟩ := Option.bind_eq_some_iff.1 h
    exact .cons hu (run_of_exec ht)

/-- The partial function of a guarded system. -/
def guardNext (C : σ → α → Prop) [∀ s a, Decidable (C s a)] (next : σ → α → Option σ) (s : σ)
    (a : α) : Option σ :=
  if C s a then next s a else none

theorem ofNext_guard {C : σ → α → Prop} [∀ s a, Decidable (C s a)] {init : σ → Prop}
    {next : σ → α → Option σ} :
    (ofNext init next).guard C = ofNext init (guardNext C next) := by
  have hstep : ((ofNext init next).guard C).step = (ofNext init (guardNext C next)).step := by
    funext s a t
    simp [guard, ofNext, guardNext]
  exact congrArg (mk init) hstep

/-- The state after a list of steps, where these are all defined. -/
def execD (next : σ → α → Option σ) (s : σ) (as : List α) : σ := (exec next s as).getD s

theorem run_execD {init : σ → Prop} {next : σ → α → Option σ}
    (h : (exec next s as).isSome = true) : (ofNext init next).Run s as (execD next s as) := by
  obtain ⟨t, ht⟩ := Option.isSome_iff_exists.1 h
  refine run_of_exec ?_
  rw [execD, ht]
  rfl

/-- Where the steps are all defined and lead to `p`, so does the run that they make. -/
theorem run_execD_any {init : σ → Prop} {next : σ → α → Option σ} (p : σ → Prop)
    [DecidablePred p] (h : (exec next s as).any (fun t => p t) = true) :
    (ofNext init next).Run s as (execD next s as) ∧ p (execD next s as) := by
  obtain ⟨t, ht, hp⟩ := (Option.any_eq_true _ _).1 h
  rw [execD, ht]
  exact ⟨run_of_exec ht, of_decide_eq_true hp⟩

theorem step_execD {init : σ → Prop} {next : σ → α → Option σ}
    (h : (exec next s [a]).isSome = true) : (ofNext init next).step s a (execD next s [a]) := by
  have hrun : (ofNext init next).Run s [a] _ := run_execD h
  cases hrun with
  | cons hst hnil =>
    cases hnil
    exact hst

/-- The states that a list of steps passes through. -/
def states (next : σ → α → Option σ) : σ → List α → List σ
  | s, [] => [s]
  | s, a :: as => s :: (next s a).elim [] fun t => states next t as

theorem head_mem_states {next : σ → α → Option σ} : s ∈ states next s as := by
  cases as <;> simp [states]

theorem mem_states {init : σ → Prop} {next : σ → α → Option σ}
    (h : (ofNext init next).Run s as t) : t ∈ states next s (as ++ bs) := by
  induction h with
  | nil => exact head_mem_states
  | cons hst _ ih =>
    have hnext : next _ _ = some _ := hst
    simp [states, hnext, ih]

end System

end Transition
