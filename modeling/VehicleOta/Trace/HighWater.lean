import VehicleOta.Trace.Since

/-!
# High-water marks

A machine that accepts an input only at or above its marks, and then raises them to the level of
the input.  What it once accepted bounds everything that it accepts later.
-/

namespace TraceLogic

variable {σ ι ε κ ν : Type*} [LinearOrder ν]

structure HighWater (step : σ → ι → σ × ε) (accepted : ε → Prop) (mark : σ → κ → ν)
    (level : ι → κ → ν) : Prop where
  keeps : ∀ s i, ¬ accepted (step s i).2 → (step s i).1 = s
  admits : ∀ s i k, accepted (step s i).2 → mark s k ≤ level i k
  raises : ∀ s i k, accepted (step s i).2 → mark (step s i).1 k = level i k

namespace HighWater

variable {step : σ → ι → σ × ε} {accepted : ε → Prop} {mark : σ → κ → ν} {level : ι → κ → ν}

theorem mark_le_step (h : HighWater step accepted mark level) (s : σ) (i : ι) (k : κ) :
    mark s k ≤ mark (step s i).1 k := by
  by_cases haccepted : accepted (step s i).2
  · rw [h.raises s i k haccepted]
    exact h.admits s i k haccepted
  · rw [h.keeps s i haccepted]

theorem mark_le_run (h : HighWater step accepted mark level) (s : σ) (inputs : List ι) (k : κ) :
    mark s k ≤ mark (run step s inputs).1 k := by
  induction inputs using List.reverseRecOn with
  | nil => exact le_rfl
  | append_singleton inputs i ih =>
      rw [run_concat]
      exact ih.trans (h.mark_le_step _ i k)

/-- An accepted input bounds the marks behind it. -/
theorem level_le_mark (h : HighWater step accepted mark level) (s : σ) (before middle : List ι)
    (i : ι) (k : κ) (haccepted : accepted (step (run step s before).1 i).2) :
    level i k ≤ mark (run step s (before ++ i :: middle)).1 k := by
  rw [← h.raises _ i k haccepted, run_append, run_cons]
  exact h.mark_le_run _ middle k

theorem level_le_level (h : HighWater step accepted mark level) (s : σ) (before middle : List ι)
    (i j : ι) (k : κ) (hi : accepted (step (run step s before).1 i).2)
    (hj : accepted (step (run step s (before ++ i :: middle)).1 j).2) : level i k ≤ level j k :=
  (h.level_le_mark s before middle i k hi).trans (h.admits _ j k hj)

end HighWater

end TraceLogic
