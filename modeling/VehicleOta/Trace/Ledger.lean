import VehicleOta.Trace.Since

/-!
# Ledgers

A machine that keeps a set of keys.  A step adds keys that are not there, and none is ever dropped.
-/

namespace TraceLogic

variable {σ ι ε κ : Type*}

structure Ledger (step : σ → ι → σ × ε) (allowed : ι → Prop) (holds : σ → κ → Prop)
    (adds : σ → ι → κ → Prop) : Prop where
  holds_step : ∀ s i k, allowed i → (holds (step s i).1 k ↔ holds s k ∨ adds s i k)
  fresh : ∀ s i k, adds s i k → ¬ holds s k

namespace Ledger

variable {step : σ → ι → σ × ε} {allowed : ι → Prop} {holds : σ → κ → Prop}
  {adds : σ → ι → κ → Prop}

/-- The keys behind a run are those in front of it and those that its steps add. -/
theorem holds_run_iff (h : Ledger step allowed holds adds) (s : σ) (inputs : List ι)
    (hallowed : ∀ i ∈ inputs, allowed i) (k : κ) :
    holds (run step s inputs).1 k ↔
      holds s k ∨ ∃ before i after, inputs = before ++ i :: after ∧ adds (run step s before).1 i k := by
  induction inputs using List.reverseRecOn with
  | nil => simp
  | append_singleton inputs i ih =>
      obtain ⟨hinputs, hi⟩ := List.forall_mem_append.mp hallowed
      rw [run_concat, h.holds_step _ i k (hi i List.mem_cons_self), ih hinputs, or_assoc]
      apply or_congr_right
      constructor
      · rintro (⟨before, j, after, rfl, hadds⟩ | hadds)
        · exact ⟨before, j, after ++ [i], by simp, hadds⟩
        · exact ⟨inputs, i, [], rfl, hadds⟩
      · rintro ⟨before, j, after, heq, hadds⟩
        rcases List.eq_nil_or_concat after with rfl | ⟨front, last, rfl⟩
        · obtain ⟨rfl, hij⟩ := List.append_inj' heq rfl
          obtain rfl := List.singleton_inj.mp hij
          exact Or.inr hadds
        · have heq' : inputs ++ [i] = (before ++ j :: front) ++ [last] := by simpa using heq
          exact Or.inl ⟨before, j, front, (List.append_inj' heq' rfl).1, hadds⟩

theorem holds_run (h : Ledger step allowed holds adds) {s : σ} {inputs : List ι}
    (hallowed : ∀ i ∈ inputs, allowed i) {k : κ} (hs : holds s k) :
    holds (run step s inputs).1 k :=
  (h.holds_run_iff s inputs hallowed k).mpr (Or.inl hs)

/-- What a step adds is there in front of every later step. -/
theorem holds_behind (h : Ledger step allowed holds adds) {s : σ} {before between : List ι} {i : ι}
    (hallowed : ∀ j ∈ i :: between, allowed j) {k : κ} (hadds : adds (run step s before).1 i k) :
    holds (run step s (before ++ i :: between)).1 k := by
  obtain ⟨hi, hbetween⟩ := List.forall_mem_cons.mp hallowed
  rw [run_append, run_cons]
  exact h.holds_run hbetween ((h.holds_step _ i k hi).mpr (Or.inr hadds))

end Ledger

end TraceLogic
