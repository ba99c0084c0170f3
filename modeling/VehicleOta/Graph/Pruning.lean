import Mathlib.Data.List.Basic
import Mathlib.Tactic

/-!
# Pruning to the greatest supported set

A loop drops one unsupported candidate after another.  Where support only grows with the set,
it ends with the greatest set of candidates that support each other.
-/

namespace PruningLogic

variable {σ α : Type*}

/-- Related options are both empty or both full. -/
theorem rel_cases {β : Type*} {R : α → β → Prop} {x : Option α} {y : Option β}
    (h : Option.Rel R x y) :
    (x = none ∧ y = none) ∨ ∃ a b, x = some a ∧ y = some b ∧ R a b := by
  cases h with
  | none => exact Or.inl ⟨rfl, rfl⟩
  | some hab => exact Or.inr ⟨_, _, rfl, rfl, hab⟩

/-- A loop with state: a step drops one unsupported candidate, or there is none. -/
structure Pruner (σ α : Type*) where
  candidates : σ → List α
  supported : (α → Prop) → α → Prop
  step : σ → Option σ
  supported_mono : ∀ {S T : α → Prop} {x : α}, (∀ y, S y → T y) → supported S x → supported T x
  stop : ∀ s, step s = none → ∀ x ∈ candidates s, supported (· ∈ candidates s) x
  drop : ∀ s s', step s = some s' → ∃ x ∈ candidates s, ¬ supported (· ∈ candidates s) x ∧
    (∀ y, y ∈ candidates s' ↔ y ∈ candidates s ∧ y ≠ x) ∧
    (candidates s').length < (candidates s).length

namespace Pruner

variable (P : Pruner σ α)

def loop : ℕ → σ → σ
  | 0, s => s
  | fuel + 1, s =>
      match P.step s with
      | none => s
      | some s' => loop fuel s'

variable {P}

/-- What a single drop keeps, the whole loop keeps. -/
theorem loop_induction {I : σ → Prop}
    (hstep : ∀ s s', P.step s = some s' → I s → I s') (fuel : ℕ) (s : σ)
    (h : I s) : I (P.loop fuel s) := by
  induction fuel generalizing s with
  | zero => exact h
  | succ fuel ih =>
      unfold loop
      cases hs : P.step s with
      | none => exact h
      | some s' => exact ih s' (hstep s s' hs h)

/-- Two loops of which each step keeps a relation keep it to their ends. -/
theorem loop_rel {τ β : Type*} {P' : Pruner τ β} {R : σ → τ → Prop}
    (hstep : ∀ s t, R s t → Option.Rel R (P.step s) (P'.step t)) (fuel : ℕ) (s : σ) (t : τ)
    (h : R s t) : R (P.loop fuel s) (P'.loop fuel t) := by
  induction fuel generalizing s t with
  | zero => exact h
  | succ fuel ih =>
      unfold loop
      rcases rel_cases (hstep s t h) with ⟨hs, ht⟩ | ⟨s', t', hs, ht, hnext⟩
      · rw [hs, ht]
        exact h
      · rw [hs, ht]
        exact ih s' t' hnext

theorem loop_subset (fuel : ℕ) (s : σ) : ∀ x ∈ P.candidates (P.loop fuel s), x ∈ P.candidates s :=
  loop_induction (I := fun t ↦ ∀ x ∈ P.candidates t, x ∈ P.candidates s)
    (fun t t' ht h x hx ↦ by
      obtain ⟨y, -, -, hmem, -⟩ := P.drop t t' ht
      exact h x ((hmem x).mp hx).1) fuel s fun _ hx ↦ hx

/-- The loop stops before it runs out of candidates. -/
theorem step_loop (fuel : ℕ) (s : σ) (hfuel : (P.candidates s).length ≤ fuel) :
    P.step (P.loop fuel s) = none := by
  induction fuel generalizing s with
  | zero =>
      cases hs : P.step s with
      | none => rw [loop, hs]
      | some s' =>
          obtain ⟨-, -, -, -, hlt⟩ := P.drop s s' hs
          omega
  | succ fuel ih =>
      unfold loop
      cases hs : P.step s with
      | none => exact hs
      | some s' =>
          obtain ⟨-, -, -, -, hlt⟩ := P.drop s s' hs
          exact ih s' (by omega)

theorem loop_supported (fuel : ℕ) (s : σ) (hfuel : (P.candidates s).length ≤ fuel) :
    ∀ x ∈ P.candidates (P.loop fuel s),
      P.supported (· ∈ P.candidates (P.loop fuel s)) x :=
  P.stop _ (step_loop fuel s hfuel)

/-- Every set of candidates that support each other survives. -/
theorem loop_greatest (fuel : ℕ) (s : σ) {S : α → Prop} (hsub : ∀ x, S x → x ∈ P.candidates s)
    (hS : ∀ x, S x → P.supported S x) : ∀ x, S x → x ∈ P.candidates (P.loop fuel s) :=
  loop_induction (I := fun t ↦ ∀ x, S x → x ∈ P.candidates t)
    (fun t t' ht h x hx ↦ by
      obtain ⟨y, -, hunsupported, hmem, -⟩ := P.drop t t' ht
      refine (hmem x).mpr ⟨h x hx, ?_⟩
      rintro rfl
      exact hunsupported (P.supported_mono h (hS x hx))) fuel s hsub

end Pruner

end PruningLogic
