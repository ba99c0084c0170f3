import Mathlib.Data.List.Induction
import Mathlib.Tactic

/-!
# Two threads of atomic calls

A thread makes calls on a store that it shares with another one.  The answer of a call decides how
the thread goes on; an exception ends it.
-/

namespace ThreadLogic

/-- A thread whose calls are of type `ι`. -/
inductive Thread {ι : Type} (answer : ι → Type) where
  | done
  | call (c : ι) (next : answer c → Thread answer)

variable {ι σ ε : Type} {answer : ι → Type}

/-- The thread behind a call. -/
def Thread.resume {c : ι} (next : answer c → Thread answer) : Except ε (answer c) → Thread answer
  | .ok a => next a
  | .error _ => .done

/-- Both threads, and the store between them. -/
structure Config {ι : Type} (answer : ι → Type) (σ : Type) where
  left : Thread answer
  right : Thread answer
  store : σ

section Runs

variable (exec : (c : ι) → σ → Except ε (answer c) × σ)

/-- One of the threads makes its next call. -/
inductive Step : Config answer σ → ι → Config answer σ → Prop
  | left (c : ι) (next : answer c → Thread answer) (right : Thread answer) (s : σ) :
      Step ⟨.call c next, right, s⟩ c ⟨.resume next (exec c s).1, right, (exec c s).2⟩
  | right (c : ι) (next : answer c → Thread answer) (left : Thread answer) (s : σ) :
      Step ⟨left, .call c next, s⟩ c ⟨left, .resume next (exec c s).1, (exec c s).2⟩

/-- An interleaving: the calls of both threads, in the order in which they are made. -/
inductive Run (start : Config answer σ) : List ι → Config answer σ → Prop
  | start : Run start [] start
  | step {trace : List ι} {config config' : Config answer σ} {c : ι} (h : Run start trace config)
      (hstep : Step exec config c config') : Run start (trace ++ [c]) config'

/-- The store behind a thread that nothing disturbs. -/
def Thread.alone : Thread answer → σ → σ
  | .done, s => s
  | .call c next, s =>
      match exec c s with
      | (.ok a, t) => (next a).alone t
      | (.error _, t) => t

variable {exec} {start middle config : Config answer σ} {trace trace' : List ι}

/-- What every call keeps, whichever thread makes it, holds behind the interleaving. -/
theorem Run.invariant {I : List ι → Config answer σ → Prop}
    (hstep : ∀ trace config c config', I trace config → Step exec config c config' →
      I (trace ++ [c]) config')
    (h : Run exec start trace config) (hstart : I [] start) : I trace config := by
  induction h with
  | start => exact hstart
  | step _ hcall ih => exact hstep _ _ _ _ ih hcall

theorem Step.cases_left_or_right {left right : Thread answer} {s : σ} {c : ι}
    (h : Step exec ⟨left, right, s⟩ c config) :
    (∃ next, left = .call c next ∧ config = ⟨.resume next (exec c s).1, right, (exec c s).2⟩) ∨
      ∃ next, right = .call c next ∧ config = ⟨left, .resume next (exec c s).1, (exec c s).2⟩ := by
  cases h with
  | left c next right s => exact Or.inl ⟨next, rfl, rfl⟩
  | right c next left s => exact Or.inr ⟨next, rfl, rfl⟩

theorem Run.trans (h : Run exec start trace middle) (h' : Run exec middle trace' config) :
    Run exec start (trace ++ trace') config := by
  induction h' with
  | start => rwa [List.append_nil]
  | step _ hcall ih =>
      rw [← List.append_assoc]
      exact ih.step hcall

/-- A call of the left thread that raises no exception. -/
theorem run_left {c : ι} {next : answer c → Thread answer} {right : Thread answer} {s t : σ}
    {a : answer c} (h : exec c s = (.ok a, t)) :
    Run exec ⟨.call c next, right, s⟩ [c] ⟨next a, right, t⟩ := by
  have hcall : Run exec ⟨.call c next, right, s⟩ [c] _ :=
    Run.start.step (Step.left c next right s)
  rwa [h] at hcall

theorem run_right {c : ι} {next : answer c → Thread answer} {left : Thread answer} {s t : σ}
    {a : answer c} (h : exec c s = (.ok a, t)) :
    Run exec ⟨left, .call c next, s⟩ [c] ⟨left, next a, t⟩ := by
  have hcall : Run exec ⟨left, .call c next, s⟩ [c] _ :=
    Run.start.step (Step.right c next left s)
  rwa [h] at hcall

end Runs

end ThreadLogic
