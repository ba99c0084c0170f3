import Mathlib.Algebra.BigOperators.Group.Finset.Basic
import Mathlib.Data.List.Nodup
import Mathlib.Tactic

/-!
# Kahn's algorithm

A queue of nodes without open parents, and a count of the open parents of every other node.
Parallel edges are counted as often as they occur.
-/

namespace KahnLogic

open Finset

variable {α : Type*} [DecidableEq α]

structure State (α : Type*) where
  indegree : α → ℤ
  queue : List α
  order : List α

/-- One parent of `child` is done. -/
def release (s : State α) (child : α) : State α :=
  { s with
    indegree := Function.update s.indegree child (s.indegree child - 1)
    queue := if s.indegree child - 1 = 0 then s.queue ++ [child] else s.queue }

/-- Take `node`, the first of the queue, into the order. -/
def visit (children : α → List α) (s : State α) (node : α) (rest : List α) : State α :=
  (children node).foldl release { s with queue := rest, order := s.order ++ [node] }

def loop (children : α → List α) : ℕ → State α → State α
  | 0, s => s
  | fuel + 1, s =>
      match s.queue with
      | [] => s
      | node :: rest => loop children fuel (visit children s node rest)

/-! ## Releasing the children of a node -/

theorem foldl_release_order (cs : List α) (s : State α) :
    (cs.foldl release s).order = s.order := by
  induction cs generalizing s with
  | nil => rfl
  | cons c cs ih => exact ih (release s c)

theorem foldl_release_indegree (cs : List α) (s : State α) (c : α) :
    (cs.foldl release s).indegree c = s.indegree c - cs.count c := by
  induction cs generalizing s with
  | nil => simp
  | cons x cs ih =>
      rw [List.foldl_cons, ih, List.count_cons]
      by_cases hx : c = x
      · subst hx
        simp [release]
        ring
      · simp [release, Function.update_of_ne hx, Ne.symm hx]

/-- Exactly the children whose last open parent was released join the queue, each once. -/
theorem foldl_release_queue (cs : List α) (s : State α)
    (hcount : ∀ c, (cs.count c : ℤ) ≤ s.indegree c) :
    ∃ ready, (cs.foldl release s).queue = s.queue ++ ready ∧ ready.Nodup ∧
      ∀ c, c ∈ ready ↔ c ∈ cs ∧ s.indegree c = cs.count c := by
  induction cs generalizing s with
  | nil => exact ⟨[], by simp⟩
  | cons x cs ih =>
      have hcons : ∀ c, ((x :: cs).count c : ℤ) = cs.count c + if c = x then 1 else 0 := by
        intro c
        rw [List.count_cons]
        by_cases hc : c = x
        · simp [hc]
        · simp [hc, Ne.symm hc]
      have hindegree : ∀ c, (release s x).indegree c = s.indegree c - if c = x then 1 else 0 := by
        intro c
        by_cases hc : c = x
        · simp [release, hc]
        · simp [release, hc]
      obtain ⟨ready, hqueue, hnodup, hready⟩ := ih (release s x) fun c ↦ by
        have := hcount c
        rw [hcons] at this
        rw [hindegree]
        omega
      have hmem : ∀ c, c ∈ ready ↔
          c ∈ cs ∧ s.indegree c = ((x :: cs).count c : ℤ) := by
        intro c
        rw [hready, hindegree, hcons]
        exact and_congr_right fun _ ↦ by omega
      by_cases hzero : s.indegree x - 1 = 0
      · have hnot : x ∉ cs := by
          intro hx
          have := hcount x
          have hpos : 0 < cs.count x := List.count_pos_iff.mpr hx
          rw [hcons, if_pos rfl] at this
          omega
        refine ⟨x :: ready, ?_, ?_, fun c ↦ ?_⟩
        · rw [List.foldl_cons, hqueue]
          simp [release, hzero]
        · exact List.nodup_cons.mpr ⟨fun hx ↦ hnot ((hmem x).mp hx).1, hnodup⟩
        · rw [List.mem_cons, hmem, List.mem_cons]
          constructor
          · rintro (rfl | ⟨hc, heq⟩)
            · refine ⟨Or.inl rfl, ?_⟩
              rw [hcons, if_pos rfl, List.count_eq_zero_of_not_mem hnot]
              push_cast
              omega
            · exact ⟨Or.inr hc, heq⟩
          · rintro ⟨rfl | hc, heq⟩
            · exact Or.inl rfl
            · exact Or.inr ⟨hc, heq⟩
      · refine ⟨ready, ?_, hnodup, fun c ↦ ?_⟩
        · rw [List.foldl_cons, hqueue]
          simp [release, hzero]
        · rw [hmem, List.mem_cons]
          constructor
          · rintro ⟨hc, heq⟩
            exact ⟨Or.inr hc, heq⟩
          · rintro ⟨rfl | hc, heq⟩
            · refine ⟨?_, heq⟩
              by_contra hnot
              rw [hcons, if_pos rfl, List.count_eq_zero_of_not_mem hnot] at heq
              push_cast at heq
              omega
            · exact ⟨hc, heq⟩

/-! ## The invariant -/

/-- Every element of the list stands behind its parents in the list. -/
def ParentsFirst (parent : α → α → Prop) (order : List α) : Prop :=
  ∀ before c after, order = before ++ c :: after → ∀ p, parent p c → p ∈ before

omit [DecidableEq α] in
theorem parentsFirst_concat {parent : α → α → Prop} {order : List α} {c : α}
    (h : ParentsFirst parent order) (hc : ∀ p, parent p c → p ∈ order) :
    ParentsFirst parent (order ++ [c]) := by
  intro before x after heq p hp
  rcases List.eq_nil_or_concat after with rfl | ⟨front, last, rfl⟩
  · obtain ⟨rfl, hx⟩ := List.append_inj' heq rfl
    exact hc p (List.singleton_inj.mp hx ▸ hp)
  · have heq' : order ++ [c] = (before ++ x :: front) ++ [last] := by simpa using heq
    exact h before x front (List.append_inj' heq' rfl).1 p hp

/-- An edge of the graph on `nodes`. -/
def Parent (nodes : Finset α) (children : α → List α) (p c : α) : Prop :=
  p ∈ nodes ∧ c ∈ children p

structure Invariant (nodes : Finset α) (children : α → List α) (s : State α) : Prop where
  nodup : (s.order ++ s.queue).Nodup
  mem : ∀ c ∈ s.order ++ s.queue, c ∈ nodes
  indegree : ∀ c, s.indegree c = ∑ p ∈ nodes \ s.order.toFinset, ((children p).count c : ℤ)
  ready : ∀ c ∈ nodes, s.indegree c = 0 ↔ c ∈ s.order ++ s.queue
  parentsFirst : ParentsFirst (Parent nodes children) s.order

variable {nodes : Finset α} {children : α → List α} {s : State α}

theorem Invariant.count_le (h : Invariant nodes children s) {p : α} (hp : p ∈ nodes)
    (hnot : p ∉ s.order) (c : α) : ((children p).count c : ℤ) ≤ s.indegree c := by
  rw [h.indegree]
  refine single_le_sum (f := fun p ↦ ((children p).count c : ℤ)) (fun _ _ ↦ by positivity) ?_
  simp [hp, hnot]

/-- The parents of a node without open parents are in the order. -/
theorem Invariant.parents_done (h : Invariant nodes children s) {c p : α}
    (hzero : s.indegree c = 0) (hp : Parent nodes children p c) : p ∈ s.order := by
  by_contra hnot
  have hle := h.count_le hp.1 hnot c
  have hpos : 0 < (children p).count c := List.count_pos_iff.mpr hp.2
  omega

theorem Invariant.visit (h : Invariant nodes children s)
    (hchildren : ∀ p ∈ nodes, ∀ c ∈ children p, c ∈ nodes) {node : α} {rest : List α}
    (hqueue : s.queue = node :: rest) : Invariant nodes children (visit children s node rest) := by
  have hmem : node ∈ s.order ++ s.queue := by simp [hqueue]
  have hnode : node ∈ nodes := h.mem node hmem
  have hnot : node ∉ s.order := by
    have hnodup := h.nodup
    rw [hqueue] at hnodup
    exact fun ho ↦ (List.nodup_append.mp hnodup).2.2 node ho node (by simp) rfl
  have hcount := h.count_le hnode hnot
  obtain ⟨ready, hready, hnodup, hmemReady⟩ := foldl_release_queue (children node)
    { s with queue := rest, order := s.order ++ [node] } hcount
  have horder : (KahnLogic.visit children s node rest).order = s.order ++ [node] :=
    foldl_release_order _ _
  have hindegree : ∀ c, (KahnLogic.visit children s node rest).indegree c =
      s.indegree c - (children node).count c := foldl_release_indegree _ _
  have hqueue' : (KahnLogic.visit children s node rest).queue = rest ++ ready := hready
  have hall : (KahnLogic.visit children s node rest).order ++
      (KahnLogic.visit children s node rest).queue = (s.order ++ s.queue) ++ ready := by
    rw [horder, hqueue', hqueue]
    simp
  have hzeroOf : ∀ c ∈ s.order ++ s.queue, s.indegree c = 0 := fun c hc ↦
    (h.ready c (h.mem c hc)).mpr hc
  -- a child that becomes ready still had an open parent, so it was neither ordered nor queued
  have hdisjoint : ∀ c ∈ ready, c ∉ s.order ++ s.queue := by
    intro c hc hold
    obtain ⟨hchild, heq⟩ := (hmemReady c).mp hc
    have hpos : 0 < (children node).count c := List.count_pos_iff.mpr hchild
    have := hzeroOf c hold
    simp only at heq
    omega
  refine ⟨?_, ?_, ?_, ?_, ?_⟩
  · rw [hall, List.nodup_append]
    exact ⟨h.nodup, hnodup, fun a ha b hb hab ↦ hdisjoint b hb (hab ▸ ha)⟩
  · intro c hc
    rw [hall] at hc
    rcases List.mem_append.mp hc with hc | hc
    · exact h.mem c hc
    · exact hchildren node hnode c ((hmemReady c).mp hc).1
  · intro c
    have hsplit : nodes \ s.order.toFinset = insert node (nodes \ (s.order ++ [node]).toFinset) := by
      ext p
      by_cases hp : p = node
      · simp [hp, hnode, hnot]
      · simp [hp]
    rw [hindegree, horder, h.indegree, hsplit, sum_insert (by simp)]
    ring
  · intro c hc
    rw [hall, hindegree, List.mem_append, hmemReady, ← h.ready c hc]
    have hle := hcount c
    constructor
    · intro hzero
      by_cases hold : s.indegree c = 0
      · exact Or.inl hold
      · refine Or.inr ⟨List.count_pos_iff.mp ?_, by simp only; omega⟩
        omega
    · rintro (hzero | ⟨-, heq⟩)
      · omega
      · simp only at heq
        omega
  · rw [horder]
    exact parentsFirst_concat h.parentsFirst fun p hp ↦ h.parents_done (hzeroOf node hmem) hp

theorem Invariant.loop (h : Invariant nodes children s)
    (hchildren : ∀ p ∈ nodes, ∀ c ∈ children p, c ∈ nodes) (fuel : ℕ) :
    Invariant nodes children (loop children fuel s) := by
  induction fuel generalizing s with
  | zero => exact h
  | succ fuel ih =>
      unfold KahnLogic.loop
      split
      · exact h
      · rename_i node rest hqueue
        exact ih (h.visit hchildren hqueue)

/-- The queue runs empty within as many steps as there are nodes. -/
theorem loop_queue (h : Invariant nodes children s)
    (hchildren : ∀ p ∈ nodes, ∀ c ∈ children p, c ∈ nodes) {fuel : ℕ}
    (hfuel : nodes.card ≤ s.order.length + fuel) : (loop children fuel s).queue = [] := by
  induction fuel generalizing s with
  | zero =>
      have hle : (s.order ++ s.queue).length ≤ nodes.card := by
        rw [← List.toFinset_card_of_nodup h.nodup]
        exact card_le_card fun c hc ↦ h.mem c (List.mem_toFinset.mp hc)
      rw [List.length_append] at hle
      exact List.length_eq_zero_iff.mp (show s.queue.length = 0 by omega)
  | succ fuel ih =>
      unfold KahnLogic.loop
      split
      · assumption
      · rename_i node rest hqueue
        refine ih (h.visit hchildren hqueue) ?_
        rw [KahnLogic.visit, foldl_release_order, List.length_append, List.length_singleton]
        omega

/-! ## The result -/

/-- The start of the algorithm: open parents counted, roots queued. -/
structure Start (nodes : Finset α) (children : α → List α) (s : State α) : Prop where
  order : s.order = []
  nodup : s.queue.Nodup
  indegree : ∀ c, s.indegree c = ∑ p ∈ nodes, ((children p).count c : ℤ)
  queue : ∀ c, c ∈ s.queue ↔ c ∈ nodes ∧ s.indegree c = 0

theorem Start.invariant (h : Start nodes children s) : Invariant nodes children s where
  nodup := by rw [h.order]; exact h.nodup
  mem c hc := ((h.queue c).mp (by rwa [h.order, List.nil_append] at hc)).1
  indegree c := by rw [h.indegree, h.order]; simp
  ready c hc := by rw [h.order, List.nil_append, h.queue]; simp [hc]
  parentsFirst before c after heq := by simp [h.order] at heq

/-- What the loop has put in order has no duplicates, lies in the graph, and has every node
behind its parents. -/
theorem order_loop (h : Start nodes children s)
    (hchildren : ∀ p ∈ nodes, ∀ c ∈ children p, c ∈ nodes) (fuel : ℕ) :
    (loop children fuel s).order.Nodup ∧ (∀ c ∈ (loop children fuel s).order, c ∈ nodes) ∧
      ParentsFirst (Parent nodes children) (loop children fuel s).order := by
  have hinv := h.invariant.loop hchildren fuel
  exact ⟨(List.nodup_append.mp hinv.nodup).1,
    fun c hc ↦ hinv.mem c (List.mem_append_left _ hc), hinv.parentsFirst⟩

end KahnLogic
