/-!
# Programs, and calls in worker threads

A `Program` computes until it asks its environment something, and goes on with the answer; it is
the tree of all its runs. A `Call` is a function that was handed to a worker thread and is
awaited by another: cancelling the await drops the call as long as it is queued, and does nothing
to one that has been started.
-/

universe u v w

/-- A program that asks `o : Op` and is answered in `Ans o`. -/
inductive Program (Op : Type u) (Ans : Op → Type v) (α : Type w) : Type (max u v w) where
  | done (a : α)
  | ask (o : Op) (next : Ans o → Program Op Ans α)

namespace Program

variable {Op : Type u} {Ans : Op → Type v} {α β : Type w}

protected def bind : Program Op Ans α → (α → Program Op Ans β) → Program Op Ans β
  | done a, k => k a
  | ask o next, k => ask o fun x => (next x).bind k

instance : Monad (Program Op Ans) where
  pure := done
  bind := Program.bind

/-- `p.Returns a`: some run of the program ends with the result. -/
inductive Returns : Program Op Ans α → α → Prop
  | done (a : α) : Returns (.done a) a
  | ask {o : Op} {next : Ans o → Program Op Ans α} {a : α} (x : Ans o) (h : Returns (next x) a) :
    Returns (.ask o next) a

theorem Returns.of_bind {p : Program Op Ans α} {k : α → Program Op Ans β} {b : β}
    (h : (p.bind k).Returns b) : ∃ a, p.Returns a ∧ (k a).Returns b := by
  induction p with
  | done a => exact ⟨a, .done a, h⟩
  | ask o next ih =>
    cases h with
    | ask x h =>
      obtain ⟨a, ha, hb⟩ := ih x h
      exact ⟨a, .ask x ha, hb⟩

end Program

/-- A call in a worker thread, in the state `σ` while it runs. -/
inductive Call (σ : Type u) (ρ : Type v) where
  | unsubmitted
  | queued
  | running (s : σ)
  | finished (r : ρ)
  /-- Cancelled before a thread took it. -/
  | dropped
  deriving DecidableEq

namespace Call

variable {σ : Type u} {ρ : Type v}

/-- What the cancellation of its await does to a call. -/
def cancel : Call σ ρ → Call σ ρ
  | queued => dropped
  | c => c

/-- The call does nothing from here on, unless it is submitted. -/
def atRest : Call σ ρ → Bool
  | unsubmitted | finished _ | dropped => true
  | queued | running _ => false

/-- A call that runs the rest of a program. -/
def ofProgram {Op : Type u} {Ans : Op → Type v} {α : Type w} :
    Program Op Ans α → Call (Program Op Ans α) α
  | .done a => finished a
  | p => running p

/-- A call that is over as soon as it has a result. -/
def settle : Option ρ → Call Unit ρ
  | some r => finished r
  | none => running ()

/-- Cancelling leaves at rest what is not running. -/
theorem atRest_cancel {c : Call σ ρ} (h : ∀ s, c ≠ running s) : c.cancel.atRest = true := by
  cases c with
  | running s => exact absurd rfl (h s)
  | _ => rfl

end Call
