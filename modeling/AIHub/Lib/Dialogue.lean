import AIHub.Lib.Worker
import Mathlib.Data.List.Basic

/-!
# What a program asks

A *dialogue* is the list of the questions of a program with their answers. `Asks` and `Ends` say
which question, or which result, a program comes to along a dialogue, and `Meets` is its weakest
precondition.

**The judgement** (`Meets A J Q log p`). After the dialogue `log`, as long as the environment gives
answers that `A` admits, each question of `p` meets `J` and its result meets `Q`; both are told the
dialogue so far.

**Rules.** `meets_bind` for sequencing, and for a program with exceptions `MeetsE` with one more
postcondition: `meetsE_pure`, `meetsE_throw`, `meetsE_bind`, `meetsE_tryCatch`, `meetsE_ask`.

* `Meets.asks`, `Meets.ends`: what has been proved holds along every dialogue.
* `runWith`: the dialogue with a given environment, which can be evaluated.
-/

universe u v w

namespace Program

variable {Op : Type u} {Ans : Op → Type v} {α β : Type w}

/-- Questions with their answers, the first one first. -/
abbrev Dialogue (Op : Type u) (Ans : Op → Type v) := List (Σ o, Ans o)

/-- Answered as in the dialogue, the program asks `o` next. -/
inductive Asks : Program Op Ans α → Dialogue Op Ans → Op → Prop
  | now (o : Op) (next : Ans o → Program Op Ans α) : Asks (.ask o next) [] o
  | later {o o' : Op} {next : Ans o → Program Op Ans α} {log : Dialogue Op Ans} (x : Ans o)
    (h : Asks (next x) log o') : Asks (.ask o next) (⟨o, x⟩ :: log) o'

/-- Answered as in the dialogue, the program ends with the result. -/
inductive Ends : Program Op Ans α → Dialogue Op Ans → α → Prop
  | done (a : α) : Ends (.done a) [] a
  | ask {o : Op} {next : Ans o → Program Op Ans α} {log : Dialogue Op Ans} {a : α} (x : Ans o)
    (h : Ends (next x) log a) : Ends (.ask o next) (⟨o, x⟩ :: log) a

/-- The environment gives answers that `A` admits. -/
def Answered (A : (o : Op) → Ans o → Prop) (log : Dialogue Op Ans) : Prop :=
  ∀ e ∈ log, A e.1 e.2

/-- After `log`, each question of the program meets `J`, and its result meets `Q`. -/
def Meets (A : (o : Op) → Ans o → Prop) (J : Dialogue Op Ans → Op → Prop)
    (Q : α → Dialogue Op Ans → Prop) : Dialogue Op Ans → Program Op Ans α → Prop
  | log, .done a => Q a log
  | log, .ask o next => J log o ∧ ∀ x, A o x → Meets A J Q (log ++ [⟨o, x⟩]) (next x)

variable {A : (o : Op) → Ans o → Prop} {J : Dialogue Op Ans → Op → Prop}
  {Q : α → Dialogue Op Ans → Prop} {log log' : Dialogue Op Ans} {p : Program Op Ans α}

/-! ## Soundness -/

theorem Meets.asks {o : Op} (h : Meets A J Q log p) (ha : p.Asks log' o) (hA : Answered A log') :
    J (log ++ log') o := by
  induction ha generalizing log with
  | now o next => simpa using h.1
  | later x ha ih =>
    rw [List.append_cons]
    exact ih (h.2 x (hA _ List.mem_cons_self)) fun e he => hA e (List.mem_cons_of_mem _ he)

theorem Meets.ends {a : α} (h : Meets A J Q log p) (he : p.Ends log' a) (hA : Answered A log') :
    Q a (log ++ log') := by
  induction he generalizing log with
  | done a => exact (List.append_nil log).symm ▸ h
  | ask x he ih =>
    rw [List.append_cons]
    exact ih (h.2 x (hA _ List.mem_cons_self)) fun e he => hA e (List.mem_cons_of_mem _ he)

/-! ## Runs -/

/-- The dialogue with an environment that answers as `answers` says, and the result. -/
def runWith (answers : (o : Op) → Ans o) : Program Op Ans α → Dialogue Op Ans × α
  | .done a => ([], a)
  | .ask o next =>
    let r := runWith answers (next (answers o))
    (⟨o, answers o⟩ :: r.1, r.2)

theorem ends_runWith (answers : (o : Op) → Ans o) (p : Program Op Ans α) :
    p.Ends (p.runWith answers).1 (p.runWith answers).2 := by
  induction p with
  | done a => exact .done a
  | ask o next ih => exact .ask (answers o) (ih (answers o))

theorem answered_runWith {answers : (o : Op) → Ans o} (h : ∀ o, A o (answers o)) :
    Answered A (p.runWith answers).1 := by
  induction p with
  | done a => nofun
  | ask o next ih =>
    intro e he
    rcases List.mem_cons.1 he with rfl | he
    · exact h o
    · exact ih (answers o) e he

theorem asks_runWith {answers : (o : Op) → Ans o} {n : Nat} {o : Op}
    (h : (p.runWith answers).1[n]?.map Sigma.fst = some o) :
    p.Asks ((p.runWith answers).1.take n) o := by
  induction p generalizing n with
  | done a => simp [runWith] at h
  | ask o' next ih =>
    cases n with
    | zero =>
      obtain rfl : o' = o := by simpa [runWith] using h
      exact .now o' next
    | succ n => exact .later (answers o') (ih (answers o') (by simpa [runWith] using h))

/-! ## Rules -/

theorem Meets.mono {J' : Dialogue Op Ans → Op → Prop} {Q' : α → Dialogue Op Ans → Prop}
    (hJ : ∀ log o, J log o → J' log o) (hQ : ∀ a log, Q a log → Q' a log)
    (h : Meets A J Q log p) : Meets A J' Q' log p := by
  induction p generalizing log with
  | done a => exact hQ a log h
  | ask o next ih => exact ⟨hJ log o h.1, fun x hx => ih x (h.2 x hx)⟩

theorem meets_bind {k : α → Program Op Ans β} {Q : β → Dialogue Op Ans → Prop} :
    Meets A J Q log (p.bind k) ↔ Meets A J (fun a log => Meets A J Q log (k a)) log p := by
  induction p generalizing log with
  | done a => exact Iff.rfl
  | ask o next ih =>
    simp only [Program.bind, Meets]
    exact and_congr_right fun _ => forall₂_congr fun x _ => ih x

/-! ## Programs with exceptions -/

section

variable {ε : Type w}

/-- `Q` of a value, `R` of an exception. -/
def Either (Q : α → Dialogue Op Ans → Prop) (R : ε → Dialogue Op Ans → Prop) :
    Except ε α → Dialogue Op Ans → Prop
  | .ok a => Q a
  | .error e => R e

/-- `Meets` for a program with exceptions, which meet `R`. -/
def MeetsE (A : (o : Op) → Ans o → Prop) (J : Dialogue Op Ans → Op → Prop)
    (Q : α → Dialogue Op Ans → Prop) (R : ε → Dialogue Op Ans → Prop) (log : Dialogue Op Ans)
    (x : ExceptT ε (Program Op Ans) α) : Prop :=
  Meets A J (Either Q R) log x.run

variable {R : ε → Dialogue Op Ans → Prop} {x : ExceptT ε (Program Op Ans) α}

@[simp] theorem meetsE_pure {a : α} :
    MeetsE A J Q R log (pure a : ExceptT ε (Program Op Ans) α) ↔ Q a log := Iff.rfl

@[simp] theorem meetsE_throw {e : ε} :
    MeetsE A J Q R log (throw e : ExceptT ε (Program Op Ans) α) ↔ R e log := Iff.rfl

@[simp] theorem meetsE_bind {k : α → ExceptT ε (Program Op Ans) β}
    {Q : β → Dialogue Op Ans → Prop} :
    MeetsE A J Q R log (x >>= k) ↔ MeetsE A J (fun a log => MeetsE A J Q R log (k a)) R log x := by
  refine meets_bind.trans ⟨Meets.mono (fun _ _ h => h) ?_, Meets.mono (fun _ _ h => h) ?_⟩ <;>
  · rintro (e | a) log h <;> exact h

@[simp] theorem meetsE_tryCatch {k : ε → ExceptT ε (Program Op Ans) α} :
    MeetsE A J Q R log (tryCatch x k) ↔
      MeetsE A J Q (fun e log => MeetsE A J Q R log (k e)) log x := by
  refine meets_bind.trans ⟨Meets.mono (fun _ _ h => h) ?_, Meets.mono (fun _ _ h => h) ?_⟩ <;>
  · rintro (e | a) log h <;> exact h

/-- The program that asks one question. -/
@[simp] theorem meetsE_ask {Ans : Op → Type w} {A : (o : Op) → Ans o → Prop}
    {J : Dialogue Op Ans → Op → Prop} {R : ε → Dialogue Op Ans → Prop} {log : Dialogue Op Ans}
    {o : Op} {Q : Ans o → Dialogue Op Ans → Prop} :
    MeetsE A J Q R log (ExceptT.lift (.ask o .done) : ExceptT ε (Program Op Ans) (Ans o)) ↔
      J log o ∧ ∀ x, A o x → Q x (log ++ [⟨o, x⟩]) := Iff.rfl

end

end Program
