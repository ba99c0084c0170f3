import Mathlib.Order.WellFounded
import VehicleOta.Graph.Kahn

/-!
# Acyclic relations

A list in which everything stands behind its parents has no cycle among its elements, and a finite
set without a cycle has an element without a parent in the set.  Between them, Kahn's algorithm
places every node if and only if the graph has no cycle.
-/

namespace KahnLogic

open Relation

variable {α : Type*} {edge : α → α → Prop}

/-- No element can be reached from itself over one or more edges. -/
def Acyclic (edge : α → α → Prop) : Prop := ∀ a, ¬ TransGen edge a a

theorem Acyclic.mono {other : α → α → Prop} (h : Acyclic edge)
    (hsub : ∀ a b, other a b → edge a b) : Acyclic other :=
  fun a hcycle ↦ h a (TransGen.mono hsub a a hcycle)

/-- An edge inside a set of elements. -/
def Within (S : α → Prop) (edge : α → α → Prop) (a b : α) : Prop := S a ∧ S b ∧ edge a b

theorem Within.mem_right {S : α → Prop} {a b : α} (h : TransGen (Within S edge) a b) : S b := by
  induction h with
  | single h => exact h.2.1
  | tail _ h _ => exact h.2.1

/-- Where edges only lead into a set, a cycle lies inside it. -/
theorem acyclic_within {S : α → Prop} (hinto : ∀ a b, edge a b → S b) (h : Acyclic (Within S edge)) :
    Acyclic edge := by
  intro a hcycle
  have hwalk : ∀ {b}, S a → TransGen edge a b → TransGen (Within S edge) a b := by
    intro b ha hab
    induction hab with
    | single hedge => exact .single ⟨ha, hinto _ _ hedge, hedge⟩
    | tail _ hedge ih => exact ih.tail ⟨Within.mem_right ih, hinto _ _ hedge, hedge⟩
  have hmem : S a := by
    obtain ⟨b, -, hedge⟩ := TransGen.tail'_iff.mp hcycle
    exact hinto b a hedge
  exact h a (hwalk hmem hcycle)

/-- A finite set without a cycle, and with at least one element, has an element without a parent in
the set. -/
theorem exists_source (h : Acyclic edge) {S : Finset α} (hne : S.Nonempty) :
    ∃ a ∈ S, ∀ p ∈ S, ¬ edge p a := by
  let reaches : S → S → Prop := fun p a ↦ TransGen edge p.1 a.1
  have htrans : IsTrans S reaches := ⟨fun _ _ _ hab hbc ↦ TransGen.trans hab hbc⟩
  have hirrefl : Std.Irrefl reaches := ⟨fun a ha ↦ h a.1 ha⟩
  have hwf : WellFounded reaches := Finite.wellFounded_of_trans_of_irrefl reaches
  obtain ⟨x, hx⟩ := hne
  obtain ⟨a, -, hmin⟩ := hwf.has_min Set.univ ⟨⟨x, hx⟩, trivial⟩
  exact ⟨a.1, a.2, fun p hp hedge ↦ hmin ⟨p, hp⟩ trivial (.single hedge)⟩

variable [DecidableEq α]

/-- Parents have the smaller index. -/
theorem ParentsFirst.idxOf_lt {order : List α} (h : ParentsFirst edge order) {p c : α}
    (hedge : edge p c) (hc : c ∈ order) : order.idxOf p < order.idxOf c := by
  obtain ⟨before, after, rfl, hnot⟩ := List.eq_append_cons_of_mem hc
  have hp : p ∈ before := h before c after rfl p hedge
  rw [List.idxOf_append_of_mem hp, List.idxOf_append_of_notMem hnot, List.idxOf_cons_self,
    Nat.add_zero]
  exact List.idxOf_lt_length_of_mem hp

/-- A list with its parents first has no cycle among its elements. -/
theorem ParentsFirst.acyclic {order : List α} (h : ParentsFirst edge order)
    (hinto : ∀ a b, edge a b → b ∈ order) : Acyclic edge := by
  have hlt : ∀ {a b}, TransGen edge a b → order.idxOf a < order.idxOf b := by
    intro a b hab
    induction hab with
    | single hedge => exact h.idxOf_lt hedge (hinto _ _ hedge)
    | tail _ hedge ih => exact ih.trans (h.idxOf_lt hedge (hinto _ _ hedge))
  exact fun a hcycle ↦ lt_irrefl _ (hlt hcycle)

/-! ## Kahn's algorithm -/

variable {nodes : Finset α} {children : α → List α} {s : State α}

/-- Behind an empty queue, the nodes that are left hold a cycle. -/
theorem Invariant.order_complete (h : Invariant nodes children s) (hqueue : s.queue = [])
    (hacyclic : Acyclic (Parent nodes children)) : ∀ c ∈ nodes, c ∈ s.order := by
  by_contra! hcon
  obtain ⟨c, hc, hnot⟩ := hcon
  obtain ⟨a, ha, hsource⟩ := exists_source hacyclic
    (S := nodes \ s.order.toFinset) ⟨c, by simp [hc, hnot]⟩
  rw [Finset.mem_sdiff, List.mem_toFinset] at ha
  have hzero : s.indegree a = 0 := by
    rw [h.indegree]
    refine Finset.sum_eq_zero fun p hp ↦ ?_
    have hchild : a ∉ children p := fun hchild ↦
      hsource p hp ⟨(Finset.mem_sdiff.mp hp).1, hchild⟩
    rw [List.count_eq_zero_of_not_mem hchild, Nat.cast_zero]
  have hready := (h.ready a ha.1).mp hzero
  rw [hqueue, List.append_nil] at hready
  exact ha.2 hready

/-- The loop places every node if and only if the graph has no cycle. -/
theorem order_loop_complete_iff (h : Start nodes children s)
    (hchildren : ∀ p ∈ nodes, ∀ c ∈ children p, c ∈ nodes) :
    (∀ c ∈ nodes, c ∈ (loop children nodes.card s).order) ↔ Acyclic (Parent nodes children) := by
  have hinv := h.invariant.loop hchildren nodes.card
  constructor
  · intro hall
    exact hinv.parentsFirst.acyclic fun p c hedge ↦ hall c (hchildren p hedge.1 c hedge.2)
  · exact hinv.order_complete (loop_queue h.invariant hchildren (Nat.le_add_left _ _))

end KahnLogic
