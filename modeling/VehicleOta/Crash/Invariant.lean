import VehicleOta.Crash.Persist

/-!
# Invariants of persistent programs

A property that every write keeps holds wherever power is lost.
-/

universe u

namespace CrashLogic.Persist

variable {ι σ ε α β : Type u} {I : σ → Prop} {C : ι → σ → Prop} {P : α → σ → Prop} {s : σ}
  {m : Persist ι σ ε α} {f : α → Persist ι σ ε β}

/-- `I` holds after every write and at the end if it holds at the start. -/
def Keeps (I : σ → Prop) (m : Persist ι σ ε α) : Prop :=
  ∀ s, I s → m.wp (fun _ t ↦ I t) (fun _ t ↦ I t) s

theorem keeps_pure (a : α) : Keeps I (pure a : Persist ι σ ε α) :=
  fun _ hs ↦ (wp_pure a).mpr hs

theorem keeps_reads (g : σ → α) : Keeps I (reads g : Persist ι σ ε α) :=
  fun _ hs ↦ (wp_reads g).mpr hs

theorem keeps_raise (e : ε) : Keeps I (raise e : Persist ι σ ε α) :=
  fun _ hs ↦ (wp_raise e).mpr hs

theorem keeps_ofExcept (x : Except ε α) : Keeps I (ofExcept x : Persist ι σ ε α) :=
  fun _ hs ↦ (wp_ofExcept x).mpr hs

theorem keeps_write (i : ι) {g : σ → σ} (h : ∀ s, I s → I (g s)) :
    Keeps I (write i g : Persist ι σ ε PUnit) :=
  fun s hs ↦ (wp_write i g).mpr ⟨h s hs, h s hs⟩

theorem keeps_bind (hm : Keeps I m) (hf : ∀ a, Keeps I (f a)) : Keeps I (m >>= f) := by
  intro s hs
  rw [wp_bind]
  refine wp_mono (hm s hs) (fun _ _ ↦ id) ?_
  rintro (e | a) t ht
  · exact ht
  · exact hf a t ht

theorem keeps_ite {c : Prop} [Decidable c] {n : Persist ι σ ε α} (hm : Keeps I m)
    (hn : Keeps I n) : Keeps I (if c then m else n) := by
  split <;> assumption

/-- A specification of the value next to an invariant of the writes. -/
theorem Keeps.returns (hI : Keeps I m) (hs : I s) (h : m.returns C P s) :
    m.returns (fun i t ↦ C i t ∧ I t) (fun a t ↦ P a t ∧ I t) s := by
  refine wp_mono (wp_and h (hI s hs)) (fun _ _ ↦ id) ?_
  rintro r t ⟨⟨a, ha, haP⟩, ht⟩
  exact ⟨a, ha, haP, ht⟩

theorem Keeps.cutAfter (hI : Keeps I m) (hs : I s) (k : ℕ) : I (m.cutAfter k s) :=
  cutAfter_of_wp (wp_mono (hI s hs) (fun _ _ ↦ id) fun _ _ _ ↦ trivial) hs k

/-- Power can be lost right behind any write that an observer sees. -/
theorem exists_cutAfter_of_mem_observe {γ : Type*} {see : ι → σ → Option γ} {o : γ}
    {Q : Except ε α → σ → Prop} (h : m.wp C Q s) (ho : o ∈ m.observe see s) :
    ∃ k i, C i (m.cutAfter k s) ∧ see i (m.cutAfter k s) = some o := by
  obtain ⟨w, hw, hsee⟩ := List.mem_filterMap.mp ho
  obtain ⟨k, hk, rfl⟩ := List.getElem_of_mem hw
  have hcut : m.cutAfter (k + 1) s = ((m s).writes[k]).2 := by
    rw [Persist.cutAfter, List.take_succ_eq_append_getElem hk, storeAfter_append, storeAfter_cons,
      storeAfter_nil]
  refine ⟨k + 1, ((m s).writes[k]).1, ?_, ?_⟩
  · rw [hcut]
    exact h.1 _ hw
  · rw [hcut]
    exact hsee

end CrashLogic.Persist
