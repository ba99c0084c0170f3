import VehicleOta.Graph.Kahn

/-!
# Which ready node comes first

The queue of Kahn's algorithm is first in, first out.  A node that was ready earlier comes first;
the order in which the children of a node are listed only decides between nodes that became ready
together.
-/

namespace KahnLogic

variable {α : Type*}

/-- The parents of `c` are among the first `k` elements of `placed`. -/
def ReadyBy (parent : α → α → Prop) (placed : List α) (k : ℕ) (c : α) : Prop :=
  ∀ p, parent p c → p ∈ placed.take k

/-- `a` was ready when `b` was not. -/
def ReadyBefore (parent : α → α → Prop) (placed : List α) (a b : α) : Prop :=
  ∃ k, ReadyBy parent placed k a ∧ ¬ ReadyBy parent placed k b

/-- `a` and `b` became ready at the same place. -/
def ReadyTogether (parent : α → α → Prop) (placed : List α) (a b : α) : Prop :=
  ∀ k, ReadyBy parent placed k a ↔ ReadyBy parent placed k b

/-- `a` comes before `b` in the queue. -/
def Precedes (le : α → α → Prop) (parent : α → α → Prop) (placed : List α) (a b : α) : Prop :=
  ReadyBefore parent placed a b ∨ ReadyTogether parent placed a b ∧ le a b

/-- Every element of the order comes before the other nodes that were ready with it. -/
def PlacedFirst (le : α → α → Prop) (parent : α → α → Prop) (nodes : Finset α) (order : List α) : Prop :=
  ∀ placed a after, order = placed ++ a :: after → ∀ b ∈ nodes, b ∉ placed → b ≠ a →
    (∀ p, parent p b → p ∈ placed) → Precedes le parent placed a b

section Placed

variable {le parent : α → α → Prop} {placed : List α} {a b x : α}

/-- One more placed element changes nothing for a node that is ready. -/
theorem readyBy_concat (h : ∀ p, parent p a → p ∈ placed) (k : ℕ) :
    ReadyBy parent (placed ++ [x]) k a ↔ ReadyBy parent placed k a := by
  rcases le_or_gt k placed.length with hle | hlt
  · rw [ReadyBy, List.take_append_of_le_length hle, ReadyBy]
  · refine iff_of_true (fun p hp ↦ ?_) fun p hp ↦ ?_
    · rw [List.take_append, List.take_of_length_le hlt.le]
      exact List.mem_append_left _ (h p hp)
    · rw [List.take_of_length_le hlt.le]
      exact h p hp

theorem Precedes.concat (h : Precedes le parent placed a b) (ha : ∀ p, parent p a → p ∈ placed)
    (hb : ∀ p, parent p b → p ∈ placed) : Precedes le parent (placed ++ [x]) a b := by
  rcases h with ⟨k, hka, hkb⟩ | ⟨htogether, hle⟩
  · exact Or.inl ⟨k, (readyBy_concat ha k).mpr hka, fun h ↦ hkb ((readyBy_concat hb k).mp h)⟩
  · refine Or.inr ⟨fun k ↦ ?_, hle⟩
    rw [readyBy_concat ha, readyBy_concat hb, htogether k]

/-- A node that waits for `x` becomes ready when `x` is placed, and not before. -/
theorem readyBy_iff_of_last (hx : parent x a) (hnot : x ∉ placed)
    (hparents : ∀ p, parent p a → p ∈ placed ++ [x]) (k : ℕ) :
    ReadyBy parent (placed ++ [x]) k a ↔ placed.length < k := by
  constructor
  · intro h
    by_contra hle
    rw [not_lt] at hle
    have hmem := h x hx
    rw [List.take_append_of_le_length hle] at hmem
    exact hnot (List.mem_of_mem_take hmem)
  · intro hlt p hp
    rw [List.take_of_length_le (by rw [List.length_append, List.length_singleton]; exact hlt)]
    exact hparents p hp

end Placed

variable [DecidableEq α] {nodes : Finset α} {children : α → List α} {s : State α}
  {le : α → α → Prop}

/-- The children that become ready join the queue in the order in which they are listed. -/
theorem foldl_release_sublist (cs : List α) (s : State α) :
    ∃ ready, (cs.foldl release s).queue = s.queue ++ ready ∧ ready.Sublist cs := by
  induction cs generalizing s with
  | nil => exact ⟨[], by simp⟩
  | cons x cs ih =>
      obtain ⟨ready, hqueue, hsub⟩ := ih (release s x)
      rw [List.foldl_cons, hqueue]
      by_cases hzero : s.indegree x - 1 = 0
      · refine ⟨x :: ready, ?_, hsub.cons_cons x⟩
        simp [release, hzero]
      · refine ⟨ready, ?_, hsub.cons x⟩
        simp [release, hzero]

/-- The queue is in order of readiness, and so is what has been placed. -/
structure Ordered (le : α → α → Prop) (nodes : Finset α) (children : α → List α) (s : State α) :
    Prop where
  queue : s.queue.Pairwise (Precedes le (Parent nodes children) s.order)
  placed : PlacedFirst le (Parent nodes children) nodes s.order

/-- A ready node that is not placed is in the queue. -/
theorem Invariant.mem_queue (h : Invariant nodes children s) {b : α} (hb : b ∈ nodes)
    (hnot : b ∉ s.order) (hparents : ∀ p, Parent nodes children p b → p ∈ s.order) : b ∈ s.queue := by
  have hzero : s.indegree b = 0 := by
    rw [h.indegree]
    refine Finset.sum_eq_zero fun p hp ↦ ?_
    rw [Finset.mem_sdiff, List.mem_toFinset] at hp
    have hchild : b ∉ children p := fun hchild ↦ hp.2 (hparents p ⟨hp.1, hchild⟩)
    rw [List.count_eq_zero_of_not_mem hchild, Nat.cast_zero]
  exact (List.mem_append.mp ((h.ready b hb).mp hzero)).resolve_left hnot

theorem Ordered.visit (h : Ordered le nodes children s) (hinv : Invariant nodes children s)
    (hsorted : ∀ p, (children p).Pairwise le)
    (hchildren : ∀ p ∈ nodes, ∀ c ∈ children p, c ∈ nodes) {node : α} {rest : List α}
    (hqueue : s.queue = node :: rest) :
    Ordered le nodes children (KahnLogic.visit children s node rest) := by
  have hinv' := hinv.visit hchildren hqueue
  have horder : (KahnLogic.visit children s node rest).order = s.order ++ [node] :=
    foldl_release_order _ _
  obtain ⟨ready, hready, hsub⟩ := foldl_release_sublist (children node)
    { s with queue := rest, order := s.order ++ [node] }
  have hqueue' : (KahnLogic.visit children s node rest).queue = rest ++ ready := hready
  have hmem : node ∈ s.order ++ s.queue := by simp [hqueue]
  have hnode : node ∈ nodes := hinv.mem node hmem
  have hnot : node ∉ s.order := by
    have hnodup := hinv.nodup
    rw [hqueue] at hnodup
    exact fun ho ↦ (List.nodup_append.mp hnodup).2.2 node ho node (by simp) rfl
  have hparents : ∀ c ∈ s.queue, ∀ p, Parent nodes children p c → p ∈ s.order := by
    intro c hc p hp
    have hboth : c ∈ s.order ++ s.queue := List.mem_append_right _ hc
    exact hinv.parents_done ((hinv.ready c (hinv.mem c hboth)).mpr hboth) hp
  have hpairwise := h.queue
  rw [hqueue, List.pairwise_cons] at hpairwise
  constructor
  · rw [hqueue', horder, List.pairwise_append]
    have hlast : ∀ c ∈ ready, ∀ k,
        ReadyBy (Parent nodes children) (s.order ++ [node]) k c ↔ s.order.length < k := by
      intro c hc
      refine readyBy_iff_of_last ⟨hnode, hsub.subset hc⟩ hnot fun p hp ↦ ?_
      have hboth : c ∈ (KahnLogic.visit children s node rest).order ++
          (KahnLogic.visit children s node rest).queue := by
        rw [hqueue']
        exact List.mem_append_right _ (List.mem_append_right _ hc)
      rw [← horder]
      exact hinv'.parents_done ((hinv'.ready c (hinv'.mem c hboth)).mpr hboth) hp
    refine ⟨?_, ?_, ?_⟩
    · refine hpairwise.2.imp_of_mem fun ha hb hab ↦ hab.concat ?_ ?_
      · exact hparents _ (hqueue ▸ List.mem_cons_of_mem _ ha)
      · exact hparents _ (hqueue ▸ List.mem_cons_of_mem _ hb)
    · refine ((hsorted node).sublist hsub).imp_of_mem fun ha hb hab ↦ Or.inr ⟨fun k ↦ ?_, hab⟩
      rw [hlast _ ha, hlast _ hb]
    · intro a ha b hb
      have hready : ReadyBy (Parent nodes children) (s.order ++ [node]) s.order.length a := by
        intro p hp
        rw [List.take_left]
        exact hparents a (hqueue ▸ List.mem_cons_of_mem _ ha) p hp
      exact Or.inl ⟨s.order.length, hready, fun hb' ↦ lt_irrefl _ ((hlast b hb _).mp hb')⟩
  · rw [horder]
    intro placed a after heq b hb hbnot hba hbparents
    rcases List.eq_nil_or_concat after with rfl | ⟨front, last, rfl⟩
    · obtain ⟨rfl, ha⟩ := List.append_inj' heq rfl
      obtain rfl := List.singleton_inj.mp ha
      have hbqueue : b ∈ s.queue := hinv.mem_queue hb hbnot hbparents
      rw [hqueue] at hbqueue
      exact hpairwise.1 b ((List.mem_cons.mp hbqueue).resolve_left hba)
    · have heq' : s.order ++ [node] = (placed ++ a :: front) ++ [last] := by simpa using heq
      exact h.placed placed a front (List.append_inj' heq' rfl).1 b hb hbnot hba hbparents

theorem Ordered.loop (h : Ordered le nodes children s) (hinv : Invariant nodes children s)
    (hsorted : ∀ p, (children p).Pairwise le)
    (hchildren : ∀ p ∈ nodes, ∀ c ∈ children p, c ∈ nodes) (fuel : ℕ) :
    Ordered le nodes children (loop children fuel s) := by
  induction fuel generalizing s with
  | zero => exact h
  | succ fuel ih =>
      unfold KahnLogic.loop
      split
      · exact h
      · rename_i node rest hqueue
        exact ih (h.visit hinv hsorted hchildren hqueue) (hinv.visit hchildren hqueue)

/-- A sorted start is in order: the roots are ready from the beginning. -/
theorem Start.ordered (h : Start nodes children s) (hsorted : s.queue.Pairwise le) :
    Ordered le nodes children s where
  queue := by
    refine hsorted.imp_of_mem fun {a b} ha hb hab ↦ Or.inr ⟨fun k ↦ ?_, hab⟩
    have hroot : ∀ c ∈ s.queue, ReadyBy (Parent nodes children) s.order k c := by
      intro c hc p hp
      have hdone := h.invariant.parents_done ((h.queue c).mp hc).2 hp
      rw [h.order] at hdone
      exact absurd hdone List.not_mem_nil
    exact iff_of_true (hroot a ha) (hroot b hb)
  placed := by
    intro placed a after heq
    rw [h.order] at heq
    exact absurd heq (by simp)

end KahnLogic
