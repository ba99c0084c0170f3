import Mathlib.Data.List.Induction
import Mathlib.Tactic

/-!
# Traces of a deterministic machine

A machine takes one input a step and reports one event.  `run` collects the events, oldest
first; `Since` says that an event of the past was followed by nothing but tolerated events.
-/

namespace TraceLogic

/-! ## Runs -/

section Run

variable {σ ι ε : Type*} (step : σ → ι → σ × ε)

/-- The state after the inputs, and the events on the way to it. -/
def run (s : σ) (inputs : List ι) : σ × List ε :=
  inputs.foldl (fun at_ i ↦ ((step at_.1 i).1, at_.2 ++ [(step at_.1 i).2])) (s, [])

@[simp] theorem run_nil (s : σ) : run step s [] = (s, []) := rfl

theorem run_concat (s : σ) (inputs : List ι) (i : ι) :
    run step s (inputs ++ [i]) =
      ((step (run step s inputs).1 i).1,
        (run step s inputs).2 ++ [(step (run step s inputs).1 i).2]) := by
  simp [run, List.foldl_append]

theorem run_append (s : σ) (xs ys : List ι) :
    run step s (xs ++ ys) =
      ((run step (run step s xs).1 ys).1, (run step s xs).2 ++ (run step (run step s xs).1 ys).2) := by
  induction ys using List.reverseRecOn with
  | nil => simp
  | append_singleton ys y ih =>
      rw [← List.append_assoc, run_concat, ih, run_concat, List.append_assoc]

theorem run_cons (s : σ) (i : ι) (inputs : List ι) :
    run step s (i :: inputs) =
      ((run step (step s i).1 inputs).1, (step s i).2 :: (run step (step s i).1 inputs).2) :=
  run_append step s [i] inputs

/-- Every step of the run was taken from a state, after a past and on an input that
`allowed` admits. -/
def Admissible (allowed : σ → List ε → ι → Prop) (s : σ) (inputs : List ι) : Prop :=
  ∀ before i after, inputs = before ++ i :: after →
    allowed (run step s before).1 (run step s before).2 i

variable {step}

theorem Admissible.of_concat {allowed : σ → List ε → ι → Prop} {s : σ} {inputs : List ι} {i : ι}
    (h : Admissible step allowed s (inputs ++ [i])) :
    Admissible step allowed s inputs ∧
      allowed (run step s inputs).1 (run step s inputs).2 i := by
  refine ⟨?_, h inputs i [] rfl⟩
  intro before j after heq
  exact h before j (after ++ [i]) (by simp [heq])

theorem Admissible.of_append {allowed : σ → List ε → ι → Prop} {s : σ} {inputs more : List ι}
    (h : Admissible step allowed s (inputs ++ more)) : Admissible step allowed s inputs := by
  intro before i after heq
  exact h before i (after ++ more) (by simp [heq])

/-- A condition that does not look at the past holds of the first step and behind it. -/
theorem Admissible.of_cons {allowed : σ → ι → Prop} {s : σ} {i : ι} {inputs : List ι}
    (h : Admissible step (fun s _ i ↦ allowed s i) s (i :: inputs)) :
    allowed s i ∧ Admissible step (fun s _ i ↦ allowed s i) (step s i).1 inputs := by
  refine ⟨h [] i inputs rfl, ?_⟩
  intro before j after heq
  have hj := h (i :: before) j after (by rw [heq]; rfl)
  rwa [run_cons] at hj

theorem Admissible.concat {allowed : σ → List ε → ι → Prop} {s : σ} {inputs : List ι} {i : ι}
    (h : Admissible step allowed s inputs)
    (hi : allowed (run step s inputs).1 (run step s inputs).2 i) :
    Admissible step allowed s (inputs ++ [i]) := by
  intro before j after heq
  rcases List.eq_nil_or_concat after with rfl | ⟨front, last, rfl⟩
  · obtain ⟨rfl, hij⟩ := List.append_inj' heq rfl
    exact List.singleton_inj.mp hij ▸ hi
  · have heq' : inputs ++ [i] = (before ++ j :: front) ++ [last] := by simpa using heq
    exact h before j front (List.append_inj' heq' rfl).1

theorem admissible_of_forall {allowed : σ → List ε → ι → Prop} (h : ∀ s past i, allowed s past i)
    (s : σ) (inputs : List ι) : Admissible step allowed s inputs :=
  fun _ _ _ _ ↦ h _ _ _

/-- Every event of a run comes from one of its steps. -/
theorem exists_of_mem_run {s : σ} {inputs : List ι} {e : ε} (h : e ∈ (run step s inputs).2) :
    ∃ before i after, inputs = before ++ i :: after ∧ e = (step (run step s before).1 i).2 := by
  induction inputs using List.reverseRecOn with
  | nil => cases h
  | append_singleton inputs i ih =>
      rw [run_concat] at h
      rcases List.mem_append.mp h with h | h
      · obtain ⟨before, j, after, rfl, he⟩ := ih h
        exact ⟨before, j, after ++ [i], by simp, he⟩
      · exact ⟨inputs, i, [], rfl, List.mem_singleton.mp h⟩

/-- What holds at the start and is kept by every admitted step holds after every run of
admitted steps. -/
theorem run_invariant {A : σ → List ε → ι → Prop} {I : σ → List ε → Prop} {s : σ}
    (hinit : I s [])
    (hstep : ∀ t past i, I t past → A t past i → I (step t i).1 (past ++ [(step t i).2]))
    (inputs : List ι) (h : Admissible step A s inputs) :
    I (run step s inputs).1 (run step s inputs).2 := by
  induction inputs using List.reverseRecOn with
  | nil => exact hinit
  | append_singleton inputs i ih =>
      rw [run_concat]
      exact hstep _ _ i (ih h.of_concat.1) h.of_concat.2

/-- A reflexive and transitive relation that every step of a part of the run respects relates
the states at the two ends of the part. -/
theorem run_relates {R : σ → σ → Prop} (hrefl : ∀ t, R t t)
    (htrans : ∀ t u v, R t u → R u v → R t v) {s : σ} {before inputs : List ι}
    (hstep : ∀ front i back, inputs = front ++ i :: back →
      R (run step s (before ++ front)).1 (step (run step s (before ++ front)).1 i).1) :
    R (run step s before).1 (run step s (before ++ inputs)).1 := by
  induction inputs using List.reverseRecOn with
  | nil =>
      rw [List.append_nil]
      exact hrefl _
  | append_singleton inputs i ih =>
      have hfront : R (run step s before).1 (run step s (before ++ inputs)).1 :=
        ih fun front j back heq ↦ hstep front j (back ++ [i]) (by rw [heq]; simp)
      have hlast := hstep inputs i [] rfl
      rw [← List.append_assoc, run_concat]
      exact htrans _ _ _ hfront hlast

end Run

/-! ## Since -/

section Since

variable {α : Type*} {keep keep' : α → Prop} {mark mark' : List α → α → Prop} {trace : List α}
  {e : α}

/-- A marked event lies in the trace, and every event after it is kept. -/
def Since (keep : α → Prop) (mark : List α → α → Prop) (trace : List α) : Prop :=
  ∃ past e rest, trace = past ++ e :: rest ∧ mark past e ∧ ∀ x ∈ rest, keep x

@[simp] theorem not_since_nil : ¬ Since keep mark [] := by
  rintro ⟨past, e, rest, h, -, -⟩
  simp at h

theorem since_of_mark (h : mark trace e) : Since keep mark (trace ++ [e]) :=
  ⟨trace, e, [], rfl, h, by simp⟩

theorem Since.concat (h : Since keep mark trace) (he : keep e) :
    Since keep mark (trace ++ [e]) := by
  obtain ⟨past, m, rest, rfl, hm, hrest⟩ := h
  refine ⟨past, m, rest ++ [e], by simp, hm, ?_⟩
  intro x hx
  rcases List.mem_append.mp hx with hx | hx
  · exact hrest x hx
  · exact List.mem_singleton.mp hx ▸ he

theorem since_concat_iff :
    Since keep mark (trace ++ [e]) ↔ mark trace e ∨ Since keep mark trace ∧ keep e := by
  constructor
  · rintro ⟨past, m, rest, heq, hm, hrest⟩
    rcases List.eq_nil_or_concat rest with rfl | ⟨front, last, rfl⟩
    · obtain ⟨rfl, hme⟩ := List.append_inj' heq rfl
      exact Or.inl ((List.singleton_inj.mp hme) ▸ hm)
    · have heq' : trace ++ [e] = (past ++ m :: front) ++ [last] := by simpa using heq
      obtain ⟨rfl, hlast⟩ := List.append_inj' heq' rfl
      have hlast : e = last := List.singleton_inj.mp hlast
      refine Or.inr ⟨⟨past, m, front, rfl, hm, fun x hx ↦ hrest x (by simp [hx])⟩, ?_⟩
      exact hrest e (by simp [hlast])
  · rintro (h | ⟨h, he⟩)
    · exact since_of_mark h
    · exact h.concat he

theorem since_of_get {n : ℕ} (hn : n < trace.length) (hm : mark (trace.take n) (trace.get ⟨n, hn⟩))
    (hkeep : ∀ x ∈ trace.drop (n + 1), keep x) : Since keep mark trace :=
  ⟨trace.take n, trace.get ⟨n, hn⟩, trace.drop (n + 1), by simp, hm, hkeep⟩

theorem Since.mono (hkeep : ∀ x, keep x → keep' x) (hmark : ∀ past x, mark past x → mark' past x)
    (h : Since keep mark trace) : Since keep' mark' trace := by
  obtain ⟨past, m, rest, heq, hm, hrest⟩ := h
  exact ⟨past, m, rest, heq, hmark _ _ hm, fun x hx ↦ hkeep x (hrest x hx)⟩

/-- Where a part of the trace carries no mark, the mark lies before it. -/
theorem Since.of_append {more : List α} (h : Since keep mark (trace ++ more))
    (hmore : ∀ past, ∀ x ∈ more, ¬ mark past x) : Since keep mark trace ∧ ∀ x ∈ more, keep x := by
  induction more using List.reverseRecOn with
  | nil =>
      rw [List.append_nil] at h
      exact ⟨h, by simp⟩
  | append_singleton more x ih =>
      rw [← List.append_assoc] at h
      rcases since_concat_iff.mp h with hx | ⟨h, hx⟩
      · exact absurd hx (hmore _ x (by simp))
      · obtain ⟨htrace, hkept⟩ := ih h fun past y hy ↦ hmore past y (by simp [hy])
        refine ⟨htrace, fun y hy ↦ ?_⟩
        rcases List.mem_append.mp hy with hy | hy
        · exact hkept y hy
        · exact List.mem_singleton.mp hy ▸ hx

theorem Since.append {more : List α} (h : Since keep mark trace) (hmore : ∀ x ∈ more, keep x) :
    Since keep mark (trace ++ more) := by
  induction more using List.reverseRecOn with
  | nil =>
      rw [List.append_nil]
      exact h
  | append_singleton more x ih =>
      rw [← List.append_assoc]
      exact (ih fun y hy ↦ hmore y (by simp [hy])).concat (hmore x (by simp))

/-- Two marks that are not kept over fall together. -/
theorem Since.meet {p q : α → Prop} (h : Since keep (fun _ ↦ p) trace)
    (h' : Since keep (fun _ ↦ q) trace) (hp : ∀ x, p x → ¬ keep x) (hq : ∀ x, q x → ¬ keep x) :
    ∃ x, p x ∧ q x := by
  induction trace using List.reverseRecOn with
  | nil => exact absurd h not_since_nil
  | append_singleton trace x ih =>
      rcases since_concat_iff.mp h with hx | ⟨h, hx⟩
      · rcases since_concat_iff.mp h' with hx' | ⟨-, hkeep⟩
        · exact ⟨x, hx, hx'⟩
        · exact absurd hkeep (hp x hx)
      · rcases since_concat_iff.mp h' with hx' | ⟨h', -⟩
        · exact absurd hx (hq x hx')
        · exact ih h h'

/-- A mark that no event from `n` on carries is not kept over an untolerated event there. -/
theorem not_since_of_drop {holds : α → Prop} (n : ℕ) (hmark : ∀ x ∈ trace.drop n, ¬ holds x)
    (hbreak : ∃ x ∈ trace.drop n, ¬ keep x) : ¬ Since keep (fun _ ↦ holds) trace := by
  rintro ⟨past, m, rest, rfl, hm, hrest⟩
  obtain ⟨x, hx, hnot⟩ := hbreak
  by_cases hn : n ≤ past.length
  · refine hmark m ?_ hm
    rw [List.drop_append_of_le_length hn]
    simp
  · obtain ⟨k, hk⟩ : ∃ k, n - past.length = k + 1 := ⟨n - past.length - 1, by omega⟩
    rw [List.drop_append, List.drop_eq_nil_of_le (by omega), List.nil_append, hk,
      List.drop_succ_cons] at hx
    exact hnot (hrest x (List.mem_of_mem_drop hx))

end Since

/-! ## Throughout -/

section Throughout

variable {α : Type*} {P : List α → α → Prop} {trace more : List α}

/-- Every event of the trace is admitted by its past. -/
def Throughout (P : List α → α → Prop) (trace : List α) : Prop :=
  ∀ past e rest, trace = past ++ e :: rest → P past e

@[simp] theorem throughout_nil : Throughout P [] := by
  intro past e rest h
  simp at h

theorem Throughout.append (h : Throughout P trace)
    (hmore : ∀ past e rest, more = past ++ e :: rest → P (trace ++ past) e) :
    Throughout P (trace ++ more) := by
  intro past e rest heq
  rcases List.append_eq_append_iff.mp heq with ⟨front, rfl, hfront⟩ | ⟨front, htrace, hmore'⟩
  · exact hmore front e rest hfront
  · cases front with
    | nil =>
        obtain rfl : trace = past := by simpa using htrace
        exact by simpa using hmore [] e rest (by simpa using hmore'.symm)
    | cons x front =>
        obtain ⟨rfl, -⟩ := List.cons.inj hmore'
        exact h past e front htrace

/-- Events that the trace before them admits, whatever comes in between. -/
theorem Throughout.append_of_forall (h : Throughout P trace)
    (hmono : ∀ past more e, P past e → P (past ++ more) e) (hmore : ∀ e ∈ more, P trace e) :
    Throughout P (trace ++ more) :=
  h.append fun past e rest heq ↦ hmono _ _ _ (hmore e (by simp [heq]))

end Throughout

end TraceLogic
