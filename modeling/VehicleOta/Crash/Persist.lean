import Mathlib.Data.List.Induction
import Mathlib.Tactic

/-!
# Programs that write to persistent storage

A program of type `Persist ι σ ε α` reads a store of type `σ` and performs a finite
sequence of atomic writes, each with a label in `ι`, before it returns a value or raises
an exception.  The run keeps the store after every write, so that a loss of power between
any two writes is a prefix of the run.

`Persist.wp` is the weakest precondition with a crash condition: the second argument must
hold of every store that a write leaves behind, the third of the outcome.
-/

namespace CrashLogic

universe u

/-- One atomic write: its label and the store it leaves. -/
abbrev Write (ι σ : Type u) := ι × σ

/-- The writes of one execution, in order, and how it ended. -/
structure Run (ι σ ε α : Type u) where
  writes : List (Write ι σ)
  result : Except ε α

/-- The store after a list of writes that started from `s`. -/
def storeAfter {ι σ : Type u} (s : σ) (ws : List (Write ι σ)) : σ :=
  ws.foldl (fun _ w ↦ w.2) s

section StoreAfter

variable {ι σ : Type u} (s : σ) (ws vs : List (Write ι σ))

@[simp] theorem storeAfter_nil : storeAfter s ([] : List (Write ι σ)) = s := rfl

@[simp] theorem storeAfter_cons (w : Write ι σ) :
    storeAfter s (w :: ws) = storeAfter w.2 ws := rfl

@[simp] theorem storeAfter_append :
    storeAfter s (ws ++ vs) = storeAfter (storeAfter s ws) vs :=
  List.foldl_append

/-- The store at the end is the starting one or the one some write left. -/
theorem storeAfter_mem :
    (ws = [] ∧ storeAfter s ws = s) ∨ ∃ w ∈ ws, ws.getLast? = some w ∧ storeAfter s ws = w.2 := by
  induction ws using List.reverseRecOn with
  | nil => exact Or.inl ⟨rfl, rfl⟩
  | append_singleton ws w _ => exact Or.inr ⟨w, by simp, by simp, by simp⟩

end StoreAfter

/-- A program over a store of type `σ` whose writes are labelled by `ι`. -/
def Persist (ι σ ε α : Type u) := σ → Run ι σ ε α

namespace Persist

variable {ι σ ε α β : Type u}

/-- The store once the program has stopped. -/
def store (m : Persist ι σ ε α) (s : σ) : σ := storeAfter s (m s).writes

/-- The store when power is lost after `k` writes. -/
def cutAfter (m : Persist ι σ ε α) (k : ℕ) (s : σ) : σ := storeAfter s ((m s).writes.take k)

instance : Monad (Persist ι σ ε) where
  pure a := fun _ ↦ ⟨[], .ok a⟩
  bind m f := fun s ↦
    match (m s).result with
    | .error e => ⟨(m s).writes, .error e⟩
    | .ok a => ⟨(m s).writes ++ (f a (m.store s)).writes, (f a (m.store s)).result⟩

/-- Read the store. -/
def reads (f : σ → α) : Persist ι σ ε α := fun s ↦ ⟨[], .ok (f s)⟩

/-- One atomic write with label `i`. -/
def write (i : ι) (f : σ → σ) : Persist ι σ ε PUnit := fun s ↦ ⟨[(i, f s)], .ok ⟨⟩⟩

/-- Stop with an exception. -/
def raise (e : ε) : Persist ι σ ε α := fun _ ↦ ⟨[], .error e⟩

/-- Run a computation that touches no storage. -/
def ofExcept (x : Except ε α) : Persist ι σ ε α := fun _ ↦ ⟨[], x⟩

/-- Run a program on a part of a larger store. -/
def zoom {κ τ : Type u} (label : ι → κ) (get : τ → σ) (set : σ → τ → τ)
    (m : Persist ι σ ε α) : Persist κ τ ε α := fun t ↦
  ⟨(m (get t)).writes.map fun w ↦ (label w.1, set w.2 t), (m (get t)).result⟩

/-- Run `body` on the elements of a list, in order. -/
def forEach {γ : Type*} (xs : List γ) (body : γ → Persist ι σ ε PUnit) : Persist ι σ ε PUnit :=
  match xs with
  | [] => pure ⟨⟩
  | x :: xs => do
      body x
      forEach xs body

theorem ofExcept_ok_bind (a : α) (f : α → Persist ι σ ε β) : ofExcept (.ok a) >>= f = f a := by
  funext s
  simp [bind, ofExcept, store]

theorem ofExcept_error_bind (e : ε) (f : α → Persist ι σ ε β) :
    ofExcept (.error e) >>= f = raise e := rfl

/-- A computation in front of a program: it raises before any write, or the program runs. -/
theorem quiet_or_ofExcept_bind {x : Except ε α} {f : α → Persist ι σ ε β} {s : σ}
    {P : Run ι σ ε β → Prop}
    (h : ∀ a, x = .ok a → (∃ err, f a s = ⟨[], .error err⟩) ∨ P (f a s)) :
    (∃ err, (ofExcept x >>= f) s = ⟨[], .error err⟩) ∨ P ((ofExcept x >>= f) s) := by
  cases x with
  | error e => exact Or.inl ⟨e, rfl⟩
  | ok a =>
      rw [ofExcept_ok_bind]
      exact h a rfl

theorem result_bind_of_ok {m : Persist ι σ ε α} {f : α → Persist ι σ ε β} {s : σ} {a : α}
    (h : (m s).result = .ok a) : ((m >>= f) s).result = (f a (m.store s)).result := by
  simp [bind, h]

theorem store_bind_of_ok {m : Persist ι σ ε α} {f : α → Persist ι σ ε β} {s : σ} {a : α}
    (h : (m s).result = .ok a) : (m >>= f).store s = (f a).store (m.store s) := by
  simp [store, bind, h]

theorem bind_assoc {γ : Type u} (m : Persist ι σ ε α) (f : α → Persist ι σ ε β)
    (g : β → Persist ι σ ε γ) : (m >>= f) >>= g = m >>= fun a ↦ f a >>= g := by
  funext s
  cases hresult : (m s).result with
  | error e => simp [bind, hresult]
  | ok a =>
      simp only [bind, store, hresult]
      cases (f a (storeAfter s (m s).writes)).result <;> simp

/-! ## Weakest preconditions with a crash condition -/

/-- Every store left by a write satisfies `C`, and the outcome satisfies `Q`. -/
def wp (m : Persist ι σ ε α) (C : ι → σ → Prop) (Q : Except ε α → σ → Prop) (s : σ) : Prop :=
  (∀ w ∈ (m s).writes, C w.1 w.2) ∧ Q (m s).result (m.store s)

variable {C D : ι → σ → Prop} {Q R : Except ε α → σ → Prop} {s : σ}

/-- The rule of consequence. -/
theorem wp_mono {m : Persist ι σ ε α} (h : m.wp C Q s) (hC : ∀ i t, C i t → D i t)
    (hQ : ∀ r t, Q r t → R r t) : m.wp D R s :=
  ⟨fun w hw ↦ hC _ _ (h.1 w hw), hQ _ _ h.2⟩

theorem wp_and {m : Persist ι σ ε α} (h : m.wp C Q s) (h' : m.wp D R s) :
    m.wp (fun i t ↦ C i t ∧ D i t) (fun r t ↦ Q r t ∧ R r t) s :=
  ⟨fun w hw ↦ ⟨h.1 w hw, h'.1 w hw⟩, h.2, h'.2⟩

@[simp] theorem wp_pure (a : α) :
    (pure a : Persist ι σ ε α).wp C Q s ↔ Q (.ok a) s := by
  simp [wp, store, pure]

@[simp] theorem wp_reads (f : σ → α) :
    (reads f : Persist ι σ ε α).wp C Q s ↔ Q (.ok (f s)) s := by
  simp [wp, store, reads]

@[simp] theorem wp_raise (e : ε) :
    (raise e : Persist ι σ ε α).wp C Q s ↔ Q (.error e) s := by
  simp [wp, store, raise]

@[simp] theorem wp_ofExcept (x : Except ε α) :
    (ofExcept x : Persist ι σ ε α).wp C Q s ↔ Q x s := by
  simp [wp, store, ofExcept]

@[simp] theorem wp_write (i : ι) (f : σ → σ) {Q : Except ε PUnit → σ → Prop} :
    (write i f : Persist ι σ ε PUnit).wp C Q s ↔ C i (f s) ∧ Q (.ok ⟨⟩) (f s) := by
  simp [wp, store, write]

/-- Sequencing: an exception of the first program skips the second. -/
@[simp] theorem wp_bind (m : Persist ι σ ε α) (f : α → Persist ι σ ε β)
    {Q : Except ε β → σ → Prop} :
    (m >>= f).wp C Q s ↔
      m.wp C (fun r t ↦ match r with
        | .ok a => (f a).wp C Q t
        | .error e => Q (.error e) t) s := by
  rcases hr : (m s).result with e | a
  · simp [wp, store, bind, hr]
  · simp only [wp, store, bind, hr, List.mem_append, storeAfter_append]
    constructor
    · rintro ⟨hC, hQ⟩
      exact ⟨fun w hw ↦ hC w (Or.inl hw), fun w hw ↦ hC w (Or.inr hw), hQ⟩
    · rintro ⟨hm, hf, hQ⟩
      exact ⟨fun w hw ↦ hw.elim (hm w) (hf w), hQ⟩

@[simp] theorem wp_map (m : Persist ι σ ε α) (f : α → β) {Q : Except ε β → σ → Prop} :
    (f <$> m).wp C Q s ↔ m.wp C (fun r t ↦ Q (r.map f) t) s := by
  have h : f <$> m = m >>= fun a ↦ pure (f a) := rfl
  rw [h, wp_bind]
  simp only [wp_pure]
  constructor <;>
    exact fun h ↦ wp_mono h (fun _ _ ↦ id) fun r t ↦ by cases r <;> exact id

/-- A program on a part of the store leaves the rest of it alone. -/
theorem wp_zoom {κ τ : Type u} {label : ι → κ} {get : τ → σ} {set : σ → τ → τ}
    {m : Persist ι σ ε α} {t : τ} {C : κ → τ → Prop} {Q : Except ε α → τ → Prop}
    (hget : set (get t) t = t) :
    (zoom label get set m).wp C Q t ↔
      m.wp (fun i s ↦ C (label i) (set s t)) (fun r s ↦ Q r (set s t)) (get t) := by
  have hstore : ∀ ws : List (Write ι σ), ∀ s,
      storeAfter (set s t) (ws.map fun w ↦ (label w.1, set w.2 t)) = set (storeAfter s ws) t := by
    intro ws
    induction ws with
    | nil => simp
    | cons w ws ih => intro s; simp [ih]
  have hfinal : store (zoom label get set m) t = set (m.store (get t)) t := by
    have h := hstore (m (get t)).writes (get t)
    rw [hget] at h
    simpa only [store, zoom] using h
  simp only [wp, hfinal]
  constructor
  · rintro ⟨hC, hQ⟩
    exact ⟨fun w hw ↦ hC _ (List.mem_map_of_mem hw), hQ⟩
  · rintro ⟨hC, hQ⟩
    refine ⟨?_, hQ⟩
    intro w hw
    obtain ⟨v, hv, rfl⟩ := List.mem_map.mp hw
    exact hC v hv

private theorem wp_forEach_from {γ : Type*} {body : γ → Persist ι σ ε PUnit}
    (I : List γ → σ → Prop) {R : Except ε PUnit → σ → Prop} (todo : List γ) :
    ∀ (done : List γ) (s : σ), I done s →
      (∀ pre x post t, done ++ todo = pre ++ x :: post → I pre t →
        (body x).wp C (fun r u ↦ match r with
          | .ok _ => I (pre ++ [x]) u
          | .error e => R (.error e) u) t) →
      (∀ t, I (done ++ todo) t → R (.ok ⟨⟩) t) →
      (forEach todo body).wp C R s := by
  induction todo with
  | nil =>
      intro done s hI _ hdone
      simpa [forEach] using hdone s (by simpa using hI)
  | cons x rest ih =>
      intro done s hI hbody hdone
      rw [forEach, wp_bind]
      refine wp_mono (hbody done x rest s rfl hI) (fun _ _ ↦ id) ?_
      rintro (e | _) t ht
      · exact ht
      · exact ih (done ++ [x]) t ht (by simpa using hbody) (by simpa using hdone)

/-- The loop rule: `I pre` holds once the elements of the prefix `pre` are processed. -/
theorem wp_forEach {γ : Type*} {xs : List γ} {body : γ → Persist ι σ ε PUnit}
    (I : List γ → σ → Prop) {R : Except ε PUnit → σ → Prop} (hI : I [] s)
    (hbody : ∀ pre x post t, xs = pre ++ x :: post → I pre t →
      (body x).wp C (fun r u ↦ match r with
        | .ok _ => I (pre ++ [x]) u
        | .error e => R (.error e) u) t)
    (hdone : ∀ t, I xs t → R (.ok ⟨⟩) t) :
    (forEach xs body).wp C R s :=
  wp_forEach_from I xs [] s hI (by simpa using hbody) (by simpa using hdone)

/-- As `wp`, for a program that raises no exception. -/
def returns (m : Persist ι σ ε α) (C : ι → σ → Prop) (P : α → σ → Prop) (s : σ) : Prop :=
  m.wp C (fun r t ↦ ∃ a, r = .ok a ∧ P a t) s

section Returns

variable {m : Persist ι σ ε α} {P : α → σ → Prop} {f : α → Persist ι σ ε β}

theorem returns_mono {P' : α → σ → Prop} (h : m.returns C P s) (hC : ∀ i t, C i t → D i t)
    (hP : ∀ a t, P a t → P' a t) : m.returns D P' s := by
  refine wp_mono h hC ?_
  rintro r t ⟨a, rfl, ha⟩
  exact ⟨a, rfl, hP a t ha⟩

@[simp] theorem returns_pure (a : α) : (pure a : Persist ι σ ε α).returns C P s ↔ P a s := by
  simp [returns]

@[simp] theorem returns_reads (g : σ → α) :
    (reads g : Persist ι σ ε α).returns C P s ↔ P (g s) s := by
  simp [returns]

@[simp] theorem returns_write (i : ι) (g : σ → σ) {P : PUnit → σ → Prop} :
    (write i g : Persist ι σ ε PUnit).returns C P s ↔ C i (g s) ∧ P ⟨⟩ (g s) := by
  have hunit : (∃ a, P a (g s)) ↔ P ⟨⟩ (g s) := ⟨fun ⟨⟨⟩, h⟩ ↦ h, fun h ↦ ⟨⟨⟩, h⟩⟩
  simp [returns, hunit]

@[simp] theorem returns_raise (e : ε) : (raise e : Persist ι σ ε α).returns C P s ↔ False := by
  simp [returns]

@[simp] theorem returns_ofExcept (x : Except ε α) :
    (ofExcept x : Persist ι σ ε α).returns C P s ↔ ∃ a, x = .ok a ∧ P a s := by
  simp [returns]

/-- Sequencing behind a program that raises no exception. -/
theorem wp_bind_of_returns {Q : Except ε β → σ → Prop} (hm : m.returns C P s)
    (hf : ∀ a t, P a t → (f a).wp C Q t) : (m >>= f).wp C Q s := by
  rw [wp_bind]
  refine wp_mono hm (fun _ _ ↦ id) ?_
  rintro r t ⟨a, rfl, ha⟩
  exact hf a t ha

theorem returns_bind {R : β → σ → Prop} (hm : m.returns C P s)
    (hf : ∀ a t, P a t → (f a).returns C R t) : (m >>= f).returns C R s :=
  wp_bind_of_returns hm hf

@[simp] theorem returns_reads_bind (g : σ → α) {R : β → σ → Prop} :
    (reads g >>= f).returns C R s ↔ (f (g s)).returns C R s := by
  simp [returns]

@[simp] theorem returns_ok_bind (a : α) {R : β → σ → Prop} :
    ((ofExcept (.ok a) : Persist ι σ ε α) >>= f).returns C R s ↔ (f a).returns C R s := by
  simp [returns]

@[simp] theorem returns_write_bind (i : ι) (g : σ → σ) {f : PUnit → Persist ι σ ε β}
    {R : β → σ → Prop} :
    (write i g >>= f).returns C R s ↔ C i (g s) ∧ (f ⟨⟩).returns C R (g s) := by
  simp [returns]

theorem returns_forEach {γ : Type*} {xs : List γ} {body : γ → Persist ι σ ε PUnit}
    (I : List γ → σ → Prop) (hI : I [] s)
    (hbody : ∀ pre x post t, xs = pre ++ x :: post → I pre t →
      (body x).returns C (fun _ u ↦ I (pre ++ [x]) u) t) :
    (forEach xs body).returns C (fun _ t ↦ I xs t) s := by
  refine wp_forEach I hI ?_ fun t ht ↦ ⟨⟨⟩, rfl, ht⟩
  intro pre x post t hxs ht
  refine wp_mono (hbody pre x post t hxs ht) (fun _ _ ↦ id) ?_
  rintro r u ⟨a, rfl, hu⟩
  exact hu

theorem returns_zoom {κ τ : Type u} {label : ι → κ} {get : τ → σ} {set : σ → τ → τ} {t : τ}
    {C : κ → τ → Prop} {P : α → τ → Prop} (hget : set (get t) t = t) :
    (zoom label get set m).returns C P t ↔
      m.returns (fun i s ↦ C (label i) (set s t)) (fun a s ↦ P a (set s t)) (get t) :=
  wp_zoom hget

/-- The value and the store of a program that raises no exception. -/
theorem returns_run (h : m.returns C P s) : ∃ a, (m s).result = .ok a ∧ P a (m.store s) := h.2

end Returns

/-! ## Losing power -/

/-- What holds at the start and after every write holds wherever power is lost. -/
theorem cutAfter_of_wp {m : Persist ι σ ε α} {P : σ → Prop}
    (h : m.wp (fun _ t ↦ P t) (fun _ _ ↦ True) s) (hs : P s) (k : ℕ) : P (m.cutAfter k s) := by
  rcases storeAfter_mem s ((m s).writes.take k) with ⟨-, heq⟩ | ⟨w, hw, -, heq⟩
  · rw [cutAfter, heq]
    exact hs
  · rw [cutAfter, heq]
    exact h.1 w (List.mem_of_mem_take hw)

@[simp] theorem cutAfter_zero (m : Persist ι σ ε α) : m.cutAfter 0 s = s := rfl

theorem reads_bind (g : σ → α) (f : α → Persist ι σ ε β) :
    (reads g >>= f) s = f (g s) s := rfl

/-- With no write missing the program has stopped by itself. -/
theorem cutAfter_of_length_le {m : Persist ι σ ε α} {k : ℕ} (hk : (m s).writes.length ≤ k) :
    m.cutAfter k s = m.store s := by
  rw [cutAfter, store, List.take_of_length_le hk]

/-! ## Events -/

/-- What the writes of a run let an observer see, in order. -/
def observe {γ : Type*} (see : ι → σ → Option γ) (m : Persist ι σ ε α) (s : σ) : List γ :=
  (m s).writes.filterMap fun w ↦ see w.1 w.2

section Observe

variable {γ : Type*} {see : ι → σ → Option γ}

theorem observe_bind {m : Persist ι σ ε α} {f : α → Persist ι σ ε β} {a : α}
    (hm : (m s).result = .ok a) :
    observe see (m >>= f) s = observe see m s ++ observe see (f a) (m.store s) := by
  simp [observe, bind, hm]

theorem mem_observe_bind_left {m : Persist ι σ ε α} {f : α → Persist ι σ ε β} {o : γ}
    (h : o ∈ m.observe see s) : o ∈ (m >>= f).observe see s := by
  rcases hr : (m s).result with e | a
  · simpa [observe, bind, hr] using h
  · rw [observe_bind hr, List.mem_append]
    exact Or.inl h

theorem mem_observe_bind_right {m : Persist ι σ ε α} {f : α → Persist ι σ ε β} {o : γ}
    {P : α → σ → Prop} (hm : m.returns C P s) (hf : ∀ a t, P a t → o ∈ (f a).observe see t) :
    o ∈ (m >>= f).observe see s := by
  obtain ⟨a, ha, haP⟩ := returns_run hm
  rw [observe_bind ha, List.mem_append]
  exact Or.inr (hf a _ haP)

/-- A program all of whose writes are invisible. -/
theorem observe_eq_nil {m : Persist ι σ ε α} (h : m.wp C Q s) (hC : ∀ i t, C i t → see i t = none) :
    observe see m s = [] := by
  rw [observe, List.filterMap_eq_nil_iff]
  exact fun w hw ↦ hC _ _ (h.1 w hw)

end Observe

/-! ## Forgetting the value -/

theorem writes_discard (m : Persist ι σ ε α) (s : σ) :
    ((m >>= fun _ ↦ (pure PUnit.unit : Persist ι σ ε PUnit)) s).writes = (m s).writes := by
  rcases hr : (m s).result with e | a <;> simp [bind, hr, pure]

theorem cutAfter_discard (m : Persist ι σ ε α) (k : ℕ) (s : σ) :
    (m >>= fun _ ↦ (pure PUnit.unit : Persist ι σ ε PUnit)).cutAfter k s = m.cutAfter k s := by
  rw [cutAfter, writes_discard, cutAfter]

theorem store_discard (m : Persist ι σ ε α) (s : σ) :
    (m >>= fun _ ↦ (pure PUnit.unit : Persist ι σ ε PUnit)).store s = m.store s := by
  rw [store, writes_discard, store]

/-! ## Labels -/

/-- The labels of the writes of a run. -/
def labels (m : Persist ι σ ε α) (s : σ) : List ι := (m s).writes.map Prod.fst

section Labels

variable {m : Persist ι σ ε α} {f : α → Persist ι σ ε β} {i : ι}

theorem mem_labels_bind_left (h : i ∈ m.labels s) : i ∈ (m >>= f).labels s := by
  rcases hr : (m s).result with e | a
  · simpa [labels, bind, hr] using h
  · have h' : ∃ w ∈ (m s).writes, w.1 = i := by simpa [labels] using h
    obtain ⟨w, hw, rfl⟩ := h'
    simp only [labels, bind, hr, List.map_append, List.mem_append]
    exact Or.inl (List.mem_map_of_mem hw)

theorem mem_labels_bind_right {P : α → σ → Prop} (hm : m.returns C P s)
    (hf : ∀ a t, P a t → i ∈ (f a).labels t) : i ∈ (m >>= f).labels s := by
  obtain ⟨a, ha, haP⟩ := returns_run hm
  have h := hf a _ haP
  simp only [labels, bind, ha, List.map_append, List.mem_append]
  exact Or.inr h

theorem labels_zoom {κ τ : Type u} (label : ι → κ) (get : τ → σ) (set : σ → τ → τ) (t : τ) :
    (zoom label get set m).labels t = (m.labels (get t)).map label := by
  simp [labels, zoom, Function.comp_def]

/-- A crash condition bounds the labels. -/
theorem not_mem_labels (h : m.wp C Q s) (hC : ∀ t, ¬C i t) : i ∉ m.labels s := by
  intro hi
  obtain ⟨w, hw, rfl⟩ := List.mem_map.mp hi
  exact hC w.2 (h.1 w hw)

end Labels

/-! ## Exact runs -/

/-- The run starts with exactly the writes `ws`; those behind satisfy `C`, and the program
returns a value as `P` says. -/
def performs (m : Persist ι σ ε α) (ws : List (Write ι σ)) (C : ι → σ → Prop)
    (P : α → σ → Prop) (s : σ) : Prop :=
  ∃ vs, (m s).writes = ws ++ vs ∧ (∀ w ∈ vs, C w.1 w.2) ∧ ∃ a, (m s).result = .ok a ∧ P a (m.store s)

section Performs

variable {m : Persist ι σ ε α} {ws us : List (Write ι σ)} {P : α → σ → Prop}
  {f : α → Persist ι σ ε β}

theorem performs_nil : m.performs [] C P s ↔ m.returns C P s := by
  constructor
  · rintro ⟨vs, hvs, hC, hP⟩
    exact ⟨by rw [hvs]; exact hC, hP⟩
  · rintro ⟨hC, hP⟩
    exact ⟨_, rfl, hC, hP⟩

theorem performs_mono {P' : α → σ → Prop} (h : m.performs ws C P s) (hC : ∀ i t, C i t → D i t)
    (hP : ∀ a t, P a t → P' a t) : m.performs ws D P' s := by
  obtain ⟨vs, hvs, hvC, a, ha, haP⟩ := h
  exact ⟨vs, hvs, fun w hw ↦ hC _ _ (hvC w hw), a, ha, hP _ _ haP⟩

theorem performs_write (i : ι) (g : σ → σ) :
    (write i g : Persist ι σ ε PUnit).performs [(i, g s)] C (fun _ t ↦ t = g s) s :=
  ⟨[], rfl, by simp, _, rfl, rfl⟩

/-- Sequencing behind a run that is known in full. -/
theorem performs_bind {R : β → σ → Prop} (hm : m.performs ws (fun _ _ ↦ False) P s)
    (hf : ∀ a t, P a t → (f a).performs us C R t) : (m >>= f).performs (ws ++ us) C R s := by
  obtain ⟨vs, hvs, hno, a, ha, haP⟩ := hm
  obtain rfl : vs = [] := List.eq_nil_iff_forall_not_mem.mpr fun w hw ↦ hno w hw
  obtain ⟨xs, hxs, hC, b, hb, hbR⟩ := hf a _ haP
  rw [List.append_nil] at hvs
  refine ⟨xs, ?_, hC, b, ?_, ?_⟩
  · simp [bind, ha, hvs, hxs]
  · simpa [bind, ha] using hb
  · simpa [store, bind, ha] using hbR

/-- Sequencing before a program whose writes need not be told apart. -/
theorem performs_bind_returns {R : β → σ → Prop} (hm : m.performs ws C P s)
    (hf : ∀ a t, P a t → (f a).returns C R t) : (m >>= f).performs ws C R s := by
  obtain ⟨vs, hvs, hvC, a, ha, haP⟩ := hm
  obtain ⟨hfC, b, hb, hbR⟩ := hf a _ haP
  refine ⟨vs ++ (f a (m.store s)).writes, ?_, ?_, b, ?_, ?_⟩
  · simp [bind, ha, hvs]
  · intro w hw
    exact (List.mem_append.mp hw).elim (hvC w) (hfC w)
  · simpa [bind, ha] using hb
  · simpa [store, bind, ha] using hbR

theorem performs_write_bind (i : ι) (g : σ → σ) {f : PUnit → Persist ι σ ε β}
    {R : β → σ → Prop} (h : (f ⟨⟩).performs us C R (g s)) :
    (write i g >>= f).performs ((i, g s) :: us) C R s := by
  refine performs_bind (performs_write i g) ?_
  rintro _ _ rfl
  exact h

theorem performs_reads_bind (g : σ → α) {R : β → σ → Prop} :
    (reads g >>= f).performs us C R s ↔ (f (g s)).performs us C R s := Iff.rfl

theorem performs_pure (a : α) (h : P a s) : (pure a : Persist ι σ ε α).performs [] C P s :=
  performs_nil.mpr ((returns_pure a).mpr h)

theorem performs.returns (h : m.performs ws C P s) (hC : ∀ w ∈ ws, C w.1 w.2) :
    m.returns C P s := by
  obtain ⟨vs, hvs, hvC, hP⟩ := h
  refine ⟨?_, hP⟩
  intro w hw
  rw [hvs] at hw
  exact (List.mem_append.mp hw).elim (hC w) (hvC w)

theorem performs.cutAfter_of_le (h : m.performs ws C P s) {k : ℕ} (hk : k ≤ ws.length) :
    m.cutAfter k s = storeAfter s (ws.take k) := by
  obtain ⟨vs, hvs, -⟩ := h
  rw [cutAfter, hvs, List.take_append_of_le_length hk]

/-- Power lost behind the known writes. -/
theorem performs.cutAfter_of_ge (h : m.performs ws C P s) {k : ℕ} (hk : ws.length ≤ k) :
    m.cutAfter k s = storeAfter s ws ∨ ∃ i, C i (m.cutAfter k s) := by
  obtain ⟨vs, hvs, hvC, -⟩ := h
  rw [cutAfter, hvs, List.take_append, List.take_of_length_le hk, storeAfter_append]
  rcases storeAfter_mem (storeAfter s ws) (vs.take (k - ws.length)) with ⟨-, heq⟩ | ⟨w, hw, -, heq⟩
  · exact Or.inl heq
  · rw [heq]
    exact Or.inr ⟨w.1, hvC w (List.mem_of_mem_take hw)⟩

theorem performs.observe {γ : Type*} {see : ι → σ → Option γ} (h : m.performs ws C P s)
    (hC : ∀ i t, C i t → see i t = none) :
    Persist.observe see m s = ws.filterMap fun w ↦ see w.1 w.2 := by
  obtain ⟨vs, hvs, hvC, -⟩ := h
  have hnone : (vs.filterMap fun w ↦ see w.1 w.2) = [] :=
    List.filterMap_eq_nil_iff.mpr fun w hw ↦ hC _ _ (hvC w hw)
  rw [Persist.observe, hvs, List.filterMap_append, hnone, List.append_nil]

theorem performs.run (h : m.performs ws C P s) :
    ∃ a, (m s).result = .ok a ∧ P a (m.store s) := by
  obtain ⟨-, -, -, hP⟩ := h
  exact hP

/-- The program returns a value as `P` says, and an observer sees the events `os`. -/
def observes {γ : Type*} (see : ι → σ → Option γ) (m : Persist ι σ ε α) (os : List γ)
    (C : ι → σ → Prop) (P : α → σ → Prop) (s : σ) : Prop :=
  m.returns C P s ∧ Persist.observe see m s = os

section Observes

variable {γ : Type*} {see : ι → σ → Option γ} {os vs : List γ}

theorem performs.observes (h : m.performs ws C P s) (see : ι → σ → Option γ)
    (hC : ∀ i t, C i t → see i t = none) (hD : ∀ w ∈ ws, D w.1 w.2) (hCD : ∀ i t, C i t → D i t) :
    m.observes see (ws.filterMap fun w ↦ see w.1 w.2) D P s :=
  ⟨(performs_mono h hCD fun _ _ ↦ id).returns hD, h.observe hC⟩

theorem observes_of_returns (h : m.returns C P s) (hC : ∀ i t, C i t → see i t = none) :
    m.observes see [] C P s :=
  ⟨h, observe_eq_nil h hC⟩

theorem observes_mono {P' : α → σ → Prop} (h : m.observes see os C P s)
    (hC : ∀ i t, C i t → D i t) (hP : ∀ a t, P a t → P' a t) : m.observes see os D P' s :=
  ⟨returns_mono h.1 hC hP, h.2⟩

theorem observes_bind {R : β → σ → Prop} (hm : m.observes see os C P s)
    (hf : ∀ a t, P a t → (f a).observes see vs C R t) :
    (m >>= f).observes see (os ++ vs) C R s := by
  obtain ⟨a, ha, haP⟩ := returns_run hm.1
  obtain ⟨hfC, hfo⟩ := hf a _ haP
  refine ⟨returns_bind hm.1 fun a t ht ↦ (hf a t ht).1, ?_⟩
  rw [observe_bind ha, hm.2, hfo]

end Observes

end Performs

end Persist

end CrashLogic
