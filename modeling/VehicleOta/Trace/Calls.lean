import Mathlib.Data.List.Basic
import Mathlib.Tactic

/-!
# Calls that may raise

A call runs on a state, changes it and returns a value or raises an exception; what it did before
it raised stays done.  `Triple` gives its outcome two postconditions, one for either end.
-/

namespace TraceLogic

universe u

/-- A computation with a state, whose exceptions keep the state. -/
def Call (ε σ α : Type) := σ → Except ε α × σ

namespace Call

variable {ε σ α β γ : Type}

instance : Monad (Call ε σ) where
  pure a := fun s ↦ (.ok a, s)
  bind m f := fun s ↦
    match m s with
    | (.ok a, t) => f a t
    | (.error e, t) => (.error e, t)

def raise (e : ε) : Call ε σ α := fun s ↦ (.error e, s)

def reads (f : σ → α) : Call ε σ α := fun s ↦ (.ok (f s), s)

def modify (f : σ → σ) : Call ε σ Unit := fun s ↦ (.ok (), f s)

/-- A computation without the state. -/
def ofExcept (x : Except ε α) : Call ε σ α := fun s ↦ (x, s)

/-- `try`: the outcome as a value. -/
def attempt {ε' : Type} (m : Call ε σ α) : Call ε' σ (Except ε α) := fun s ↦ (.ok (m s).1, (m s).2)

def mapError {ε' : Type} (f : ε → ε') (m : Call ε σ α) : Call ε' σ α :=
  fun s ↦ ((m s).1.mapError f, (m s).2)

/-- Run `body` on the elements of a list, in order. -/
def forEach (xs : List γ) (body : γ → Call ε σ Unit) : Call ε σ Unit :=
  match xs with
  | [] => pure ()
  | x :: xs => do
      body x
      forEach xs body

/-! ## Runs -/

section Runs

variable {m : Call ε σ α} {f : α → Call ε σ β} {s t : σ}

theorem bind_run_ok {a : α} (h : m s = (.ok a, t)) : (m >>= f) s = f a t := by
  change (match m s with
    | (.ok a, t) => f a t
    | (.error e, t) => (.error e, t)) = f a t
  rw [h]

theorem bind_run_error {e : ε} (h : m s = (.error e, t)) : (m >>= f) s = (.error e, t) := by
  change (match m s with
    | (.ok a, t) => f a t
    | (.error e, t) => (.error e, t)) = (.error e, t)
  rw [h]

theorem reads_bind_run (g : σ → α) (s : σ) : (reads g >>= f) s = f (g s) s := rfl

theorem modify_bind_run (g : σ → σ) (f : Unit → Call ε σ β) (s : σ) :
    (modify g >>= f) s = f () (g s) := rfl

theorem ofExcept_bind_run {x : Except ε α} {a : α} (h : x = .ok a) (s : σ) :
    (ofExcept x >>= f) s = f a s := by
  rw [h]
  rfl

theorem mapError_bind_run {ε' : Type} {g : ε → ε'} {f : α → Call ε' σ β} {x : Except ε α} {a : α}
    (h : x = .ok a) (s : σ) : (mapError g (ofExcept x) >>= f) s = f a s := by
  rw [h]
  rfl

end Runs

/-! ## Triples -/

/-- The outcome of a run meets the postcondition of its end. -/
def Settles (Q : α → σ → Prop) (E : ε → σ → Prop) : Except ε α × σ → Prop
  | (.ok a, t) => Q a t
  | (.error e, t) => E e t

def Triple (P : σ → Prop) (m : Call ε σ α) (Q : α → σ → Prop) (E : ε → σ → Prop) : Prop :=
  ∀ s, P s → Settles Q E (m s)

namespace Triple

variable {P P' : σ → Prop} {Q Q' : α → σ → Prop} {R : β → σ → Prop} {E E' : ε → σ → Prop}
  {m : Call ε σ α} {f : α → Call ε σ β}

theorem pure {a : α} (h : ∀ s, P s → Q a s) : Triple P (Pure.pure a) Q E := h

theorem raise {e : ε} (h : ∀ s, P s → E e s) : Triple P (Call.raise e : Call ε σ α) Q E := h

theorem reads {g : σ → α} (h : ∀ s, P s → Q (g s) s) : Triple P (Call.reads g) Q E := h

theorem modify {g : σ → σ} {Q : Unit → σ → Prop} (h : ∀ s, P s → Q () (g s)) :
    Triple P (Call.modify g) Q E := h

theorem ofExcept {x : Except ε α} (hok : ∀ a s, x = .ok a → P s → Q a s)
    (herror : ∀ e s, x = .error e → P s → E e s) : Triple P (Call.ofExcept x) Q E := by
  intro s hs
  cases x with
  | ok a => exact hok a s rfl hs
  | error e => exact herror e s rfl hs

theorem bind (hm : Triple P m Q E) (hf : ∀ a, Triple (Q a) (f a) R E) :
    Triple P (m >>= f) R E := by
  intro s hs
  have hsettles := hm s hs
  cases hrun : m s with
  | mk result t =>
      rw [hrun] at hsettles
      cases result with
      | ok a =>
          rw [bind_run_ok hrun]
          exact hf a t hsettles
      | error e =>
          rw [bind_run_error hrun]
          exact hsettles

theorem conseq (h : Triple P m Q E) (hpre : ∀ s, P' s → P s) (hpost : ∀ a s, Q a s → Q' a s)
    (herror : ∀ e s, E e s → E' e s) : Triple P' m Q' E' := by
  intro s hs
  have hsettles := h s (hpre s hs)
  cases hrun : m s with
  | mk result t =>
      rw [hrun] at hsettles
      cases result with
      | ok a => exact hpost a t hsettles
      | error e => exact herror e t hsettles

theorem weaken (h : Triple P m Q E) (hpost : ∀ a s, Q a s → Q' a s) : Triple P m Q' E :=
  h.conseq (fun _ ↦ id) hpost fun _ _ ↦ id

theorem strengthen (h : Triple P m Q E) (hpre : ∀ s, P' s → P s) : Triple P' m Q E :=
  h.conseq hpre (fun _ _ ↦ id) fun _ _ ↦ id

theorem mapError {ε' : Type} {g : ε → ε'} {E' : ε' → σ → Prop}
    (h : Triple P m Q fun e ↦ E' (g e)) : Triple P (Call.mapError g m) Q E' := by
  intro s hs
  have hsettles := h s hs
  unfold Call.mapError
  cases hrun : m s with
  | mk result t =>
      rw [hrun] at hsettles
      cases result with
      | ok a => exact hsettles
      | error e => exact hsettles

theorem attempt {ε' : Type} {Q : Except ε α → σ → Prop} {E' : ε' → σ → Prop}
    (h : Triple P m (fun a ↦ Q (.ok a)) fun e ↦ Q (.error e)) :
    Triple P (Call.attempt m) Q E' := by
  intro s hs
  have hsettles := h s hs
  unfold Call.attempt
  cases hrun : m s with
  | mk result t =>
      rw [hrun] at hsettles
      cases result with
      | ok a => exact hsettles
      | error e => exact hsettles

/-! ### Sequences -/

theorem ofExcept_bind {x : Except ε α} (hok : ∀ a, x = .ok a → Triple P (f a) R E)
    (herror : ∀ e s, x = .error e → P s → E e s) : Triple P (Call.ofExcept x >>= f) R E := by
  refine bind (Q := fun a s ↦ x = .ok a ∧ P s) (ofExcept (fun a s hx hs ↦ ⟨hx, hs⟩) herror) ?_
  exact fun a s hs ↦ hok a hs.1 s hs.2

/-- A fact about the value goes into the rest. -/
theorem fact_bind {φ : α → Prop} (hm : Triple P m (fun a s ↦ φ a ∧ Q a s) E)
    (hf : ∀ a, φ a → Triple (Q a) (f a) R E) : Triple P (m >>= f) R E :=
  hm.bind fun a s hs ↦ hf a hs.1 s hs.2

theorem reads_bind {g : σ → α} (h : ∀ a, Triple (fun s ↦ g s = a ∧ P s) (f a) R E) :
    Triple P (Call.reads g >>= f) R E :=
  fun s hs ↦ h (g s) s ⟨rfl, hs⟩

theorem modify_bind {g : σ → σ} {f : Unit → Call ε σ β} (h : Triple P' (f ()) R E)
    (hg : ∀ s, P s → P' (g s)) : Triple P (Call.modify g >>= f) R E :=
  fun s hs ↦ h (g s) (hg s hs)

/-- A loop whose rounds lead from each of the `I` to the next. -/
theorem forEach {xs : List γ} {body : γ → Call ε σ Unit} {I : ℕ → σ → Prop}
    (h : ∀ i (hi : i < xs.length), Triple (I i) (body (xs.get ⟨i, hi⟩)) (fun _ ↦ I (i + 1)) E) :
    Triple (I 0) (Call.forEach xs body) (fun _ ↦ I xs.length) E := by
  induction xs generalizing I with
  | nil => exact fun s hs ↦ hs
  | cons x xs ih =>
      exact (h 0 (Nat.zero_lt_succ _)).bind fun _ ↦
        ih fun i hi ↦ h (i + 1) (Nat.succ_lt_succ hi)

/-- A run from a state that meets the precondition. -/
theorem settles (h : Triple P m Q E) {s : σ} (hs : P s) : Settles Q E (m s) := h s hs

end Triple

theorem settles_iff {Q : α → σ → Prop} {E : ε → σ → Prop} {run : Except ε α × σ} :
    Settles Q E run ↔
      (∃ a, run.1 = .ok a ∧ Q a run.2) ∨ ∃ e, run.1 = .error e ∧ E e run.2 := by
  obtain ⟨result, t⟩ := run
  cases result with
  | ok a => simp [Settles]
  | error e => simp [Settles]

/-! ## Two computations side by side -/

/-- From every state the two outcomes are related. -/
def Relates (R : Except ε α × σ → Except ε α × σ → Prop) (m m' : Call ε σ α) : Prop :=
  ∀ s, R (m s) (m' s)

namespace Relates

variable {R : Except ε β × σ → Except ε β × σ → Prop} {m m' : Call ε σ β}

theorem refl (hR : ∀ outcome, R outcome outcome) (m : Call ε σ β) : Relates R m m :=
  fun s ↦ hR (m s)

/-- Behind the same computation. -/
theorem bind (hR : ∀ outcome, R outcome outcome) (m : Call ε σ α) {f f' : α → Call ε σ β}
    (h : ∀ a, Relates R (f a) (f' a)) : Relates R (m >>= f) (m >>= f') := by
  intro s
  cases hrun : m s with
  | mk result t =>
      cases result with
      | ok a =>
          rw [bind_run_ok hrun, bind_run_ok hrun]
          exact h a t
      | error e =>
          rw [bind_run_error hrun, bind_run_error hrun]
          exact hR _

end Relates

end Call

end TraceLogic
