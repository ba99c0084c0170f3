import VehicleOta.Trace.Since

/-!
# Limited attempts

A machine that evaluates attempts, counts the rejected ones since the last accepted one, and
from a limit on locks itself for a while after each of them.  It evaluates an attempt only when it
is armed, and it is armed only at times when it is not locked.
-/

namespace TraceLogic

section Count

variable {ε : Type*} (rejected accepted : ε → Prop) [DecidablePred rejected] [DecidablePred accepted]

/-- The rejected attempts of a trace behind its last accepted one. -/
def failuresSince (trace : List ε) : ℕ :=
  trace.foldl (fun n e ↦ if accepted e then 0 else if rejected e then n + 1 else n) 0

theorem failuresSince_concat (trace : List ε) (e : ε) :
    failuresSince rejected accepted (trace ++ [e]) =
      if accepted e then 0
      else if rejected e then failuresSince rejected accepted trace + 1
      else failuresSince rejected accepted trace := by
  simp [failuresSince, List.foldl_append]

end Count

variable {σ ι ε τ : Type*} [LinearOrder τ] [Add τ]

/-- The attributes of a state that limit the attempts. -/
structure Limits (σ τ : Type*) where
  failures : σ → ℕ
  lockedUntil : σ → τ
  armed : σ → Prop

structure Limiter (step : σ → ι → σ × ε) (time : ε → τ) (rejected accepted : ε → Prop) (limit : ℕ)
    (delay : τ) (l : Limits σ τ) : Prop where
  counts : ∀ s i, rejected (step s i).2 → l.failures (step s i).1 = l.failures s + 1
  clears : ∀ s i, accepted (step s i).2 → l.failures (step s i).1 = 0
  keeps : ∀ s i, ¬ rejected (step s i).2 → ¬ accepted (step s i).2 →
    l.failures (step s i).1 = l.failures s
  exclusive : ∀ s i, accepted (step s i).2 → ¬ rejected (step s i).2
  locks : ∀ s i, rejected (step s i).2 → limit ≤ l.failures (step s i).1 →
    l.lockedUntil (step s i).1 = time (step s i).2 + delay
  unlocks : ∀ s i, (rejected (step s i).2 → l.failures (step s i).1 < limit) →
    l.lockedUntil (step s i).1 = l.lockedUntil s
  evaluates : ∀ s i, rejected (step s i).2 ∨ accepted (step s i).2 → l.armed s
  disarms : ∀ s i, rejected (step s i).2 → ¬ l.armed (step s i).1
  arms : ∀ s i, l.armed (step s i).1 → l.armed s ∨ l.lockedUntil s ≤ time (step s i).2

namespace Limiter

variable {step : σ → ι → σ × ε} {time : ε → τ} {rejected accepted : ε → Prop}
  [DecidablePred rejected] [DecidablePred accepted] {limit : ℕ} {delay : τ} {l : Limits σ τ}

/-- An attempt that was rejected at the limit or above it. -/
def Exceeding (rejected accepted : ε → Prop) [DecidablePred rejected] [DecidablePred accepted]
    (limit : ℕ) (past : List ε) (e : ε) : Prop :=
  rejected e ∧ limit ≤ failuresSince rejected accepted (past ++ [e])

/-- Behind a rejection at the limit, the next evaluation is at least the delay away. -/
def Separated (time : ε → τ) (rejected accepted : ε → Prop) [DecidablePred rejected]
    [DecidablePred accepted] (limit : ℕ) (delay : τ) (trace : List ε) : Prop :=
  ∀ past x middle y rest, trace = past ++ x :: middle ++ y :: rest →
    Exceeding rejected accepted limit past x → rejected y ∨ accepted y → time x + delay ≤ time y

/-- What the attributes remember of the trace. -/
structure Remembers (time : ε → τ) (rejected accepted : ε → Prop) [DecidablePred rejected]
    [DecidablePred accepted] (limit : ℕ) (delay : τ) (l : Limits σ τ) (s : σ) (trace : List ε) :
    Prop where
  failures : l.failures s = failuresSince rejected accepted trace
  armed : l.armed s → ∀ now, (∀ e ∈ trace, time e ≤ now) → l.lockedUntil s ≤ now
  locked : ∀ past e rest, trace = past ++ e :: rest → Exceeding rejected accepted limit past e →
    time e + delay ≤ l.lockedUntil s
  separated : Separated time rejected accepted limit delay trace

theorem failures_step (h : Limiter step time rejected accepted limit delay l) {s : σ} {i : ι}
    {trace : List ε} (hs : l.failures s = failuresSince rejected accepted trace) :
    l.failures (step s i).1 = failuresSince rejected accepted (trace ++ [(step s i).2]) := by
  rw [failuresSince_concat]
  by_cases haccepted : accepted (step s i).2
  · rw [if_pos haccepted, h.clears s i haccepted]
  · by_cases hrejected : rejected (step s i).2
    · rw [if_neg haccepted, if_pos hrejected, h.counts s i hrejected, hs]
    · rw [if_neg haccepted, if_neg hrejected, h.keeps s i hrejected haccepted, hs]

/-- An event of a longer trace is its last one or an earlier one. -/
theorem concat_cases {trace past rest : List ε} {e x : ε} (heq : trace ++ [e] = past ++ x :: rest) :
    trace = past ∧ e = x ∧ rest = [] ∨ ∃ front, rest = front ++ [e] ∧ trace = past ++ x :: front := by
  rcases List.eq_nil_or_concat rest with rfl | ⟨front, last, rfl⟩
  · obtain ⟨htrace, hlast⟩ := List.append_inj' heq rfl
    exact Or.inl ⟨htrace, List.singleton_inj.mp hlast, rfl⟩
  · have heq' : trace ++ [e] = (past ++ x :: front) ++ [last] := by simpa using heq
    obtain ⟨htrace, hlast⟩ := List.append_inj' heq' rfl
    exact Or.inr ⟨front, by rw [List.singleton_inj.mp hlast, List.concat_eq_append], htrace⟩

theorem Remembers.separated_concat {s : σ} {i : ι} {trace : List ε}
    (h : Limiter step time rejected accepted limit delay l)
    (hs : Remembers time rejected accepted limit delay l s trace)
    (htime : ∀ e ∈ trace, time e ≤ time (step s i).2) :
    Separated time rejected accepted limit delay (trace ++ [(step s i).2]) := by
  intro past x middle y rest heq hx hy
  rcases concat_cases heq with ⟨htrace, rfl, rfl⟩ | ⟨front, rfl, htrace⟩
  · have harmed := h.evaluates s i hy
    exact (hs.locked past x middle htrace hx).trans (hs.armed harmed _ htime)
  · exact hs.separated past x middle y front htrace hx hy

theorem Remembers.concat [AddRightMono τ] {s : σ} {i : ι} {trace : List ε}
    (h : Limiter step time rejected accepted limit delay l)
    (hs : Remembers time rejected accepted limit delay l s trace)
    (htime : ∀ e ∈ trace, time e ≤ time (step s i).2) :
    Remembers time rejected accepted limit delay l (step s i).1 (trace ++ [(step s i).2]) := by
  have hfailures := h.failures_step (i := i) hs.failures
  have hseparated := hs.separated_concat h htime
  by_cases hx : rejected (step s i).2 ∧ limit ≤ l.failures (step s i).1
  · have hlocked := h.locks s i hx.1 hx.2
    refine ⟨hfailures, fun harmed ↦ absurd harmed (h.disarms s i hx.1), ?_, hseparated⟩
    intro past e rest heq he
    rw [hlocked]
    rcases concat_cases heq with ⟨-, rfl, -⟩ | ⟨front, -, htrace⟩
    · exact le_rfl
    · exact add_le_add_left (htime e (by simp [htrace])) delay
  · have hkept := h.unlocks s i fun hrejected ↦ not_le.mp fun hle ↦ hx ⟨hrejected, hle⟩
    refine ⟨hfailures, fun harmed now hnow ↦ ?_, ?_, hseparated⟩
    · rw [hkept]
      rcases h.arms s i harmed with hs' | hle
      · exact hs.armed hs' now fun e he ↦ hnow e (by simp [he])
      · exact hle.trans (hnow _ (by simp))
    · intro past e rest heq he
      rw [hkept]
      rcases concat_cases heq with ⟨htrace, rfl, -⟩ | ⟨front, -, htrace⟩
      · rw [hfailures, htrace] at hx
        exact absurd he hx
      · exact hs.locked past e front htrace he

/-- From a state without failures that is not armed, on inputs whose times do not decrease. -/
theorem remembers_run [AddRightMono τ] (h : Limiter step time rejected accepted limit delay l) {s : σ}
    (hfailures : l.failures s = 0) (harmed : ¬ l.armed s) (inputs : List ι)
    (htimes : (run step s inputs).2.Pairwise fun x y ↦ time x ≤ time y) :
    Remembers time rejected accepted limit delay l (run step s inputs).1 (run step s inputs).2 := by
  induction inputs using List.reverseRecOn with
  | nil =>
      refine ⟨hfailures, fun h ↦ absurd h harmed, fun past e rest heq ↦ ?_,
        fun past x middle y rest heq ↦ ?_⟩
      · simp at heq
      · simp at heq
  | append_singleton inputs i ih =>
      rw [run_concat] at htimes ⊢
      obtain ⟨hfront, -, hlast⟩ := List.pairwise_append.mp htimes
      exact (ih hfront).concat h fun e he ↦ hlast e he _ (by simp)

end Limiter

end TraceLogic
