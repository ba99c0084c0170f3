import VehicleOta.Graph.Kahn
import VehicleOta.Tcu.Models

/-!
# Topological update order

`DependencyGraph` of `tcu/models/dependency_graph.py` and `TopologicalUpdatePlanner` of
`tcu/dependency_manager.py`.  A set of names is a list without duplicates; wherever the code
iterates over one, the result is sorted before its order could matter.
-/

namespace VehicleOta.Tcu

open KahnLogic Finset

/-! ## Dependency graphs -/

structure DependencyGraph where
  graph : Dict String (List String) := Dict.empty
  nodes : List String := []

namespace DependencyGraph

def addNode (ecuName : String) (g : DependencyGraph) : DependencyGraph :=
  { g with nodes := List.insert ecuName g.nodes }

/-- `self.graph.get(node, [])` -/
def children (g : DependencyGraph) (node : String) : List String := (g.graph.get? node).getD []

def addDependency (parent child : String) (g : DependencyGraph) : DependencyGraph where
  nodes := List.insert child (List.insert parent g.nodes)
  graph := g.graph.set parent (g.children parent ++ [child])

@[simp] theorem mem_nodes_addNode (a b : String) (g : DependencyGraph) :
    a ∈ (g.addNode b).nodes ↔ a = b ∨ a ∈ g.nodes := List.mem_insert_iff

@[simp] theorem mem_nodes_addDependency (a p c : String) (g : DependencyGraph) :
    a ∈ (g.addDependency p c).nodes ↔ a = c ∨ a = p ∨ a ∈ g.nodes := by
  simp [addDependency, List.mem_insert_iff]

@[simp] theorem children_addNode (a b : String) (g : DependencyGraph) :
    (g.addNode b).children a = g.children a := rfl

theorem children_addDependency (a p c : String) (g : DependencyGraph) :
    (g.addDependency p c).children a =
      if a = p then g.children a ++ [c] else g.children a := by
  simp only [children, addDependency, Dict.get?_set]
  split
  · rename_i h
    rw [h, Option.getD_some]
  · rfl

/-- The graphs that can be built: the nodes are a set that contains both ends of every edge. -/
structure WellFormed (g : DependencyGraph) : Prop where
  nodup : g.nodes.Nodup
  parent : ∀ p ∈ g.graph.keys, p ∈ g.nodes
  child : ∀ p, ∀ c ∈ g.children p, c ∈ g.nodes

theorem wellFormed_empty : WellFormed {} where
  nodup := List.nodup_nil
  parent _ h := absurd h List.not_mem_nil
  child _ _ h := absurd h List.not_mem_nil

theorem WellFormed.addNode {g : DependencyGraph} (h : g.WellFormed) (a : String) :
    (g.addNode a).WellFormed where
  nodup := h.nodup.insert
  parent p hp := (mem_nodes_addNode p a g).mpr (Or.inr (h.parent p hp))
  child p c hc := (mem_nodes_addNode c a g).mpr (Or.inr (h.child p c hc))

theorem WellFormed.addDependency {g : DependencyGraph} (h : g.WellFormed) (p c : String) :
    (g.addDependency p c).WellFormed where
  nodup := (h.nodup.insert).insert
  parent q hq := by
    rw [mem_nodes_addDependency]
    rcases (Dict.mem_keys_set _ _ _ _).mp hq with rfl | hq
    · exact Or.inr (Or.inl rfl)
    · exact Or.inr (Or.inr (h.parent q hq))
  child q d hd := by
    rw [mem_nodes_addDependency]
    rw [children_addDependency] at hd
    split at hd
    · rcases List.mem_append.mp hd with hd | hd
      · exact Or.inr (Or.inr (h.child q d hd))
      · exact Or.inl (List.mem_singleton.mp hd)
    · exact Or.inr (Or.inr (h.child q d hd))

end DependencyGraph

/-! ## The planner -/

/-- `key=lambda node: (priority.get(node, 9999), node)` -/
def nodeKey (priority : Dict String ℤ) (node : String) : ℤ × String :=
  ((priority.get? node).getD 9999, node)

/-- The order of the key tuples. -/
def nodeLe (priority : Dict String ℤ) (a b : String) : Prop :=
  (nodeKey priority a).1 < (nodeKey priority b).1 ∨
    (nodeKey priority a).1 = (nodeKey priority b).1 ∧ a ≤ b

instance decidableNodeLe (priority : Dict String ℤ) : DecidableRel (nodeLe priority) :=
  fun _ _ ↦ inferInstanceAs (Decidable (_ ∨ _))

def sortNodes (priority : Dict String ℤ) (nodes : List String) : List String :=
  nodes.insertionSort (nodeLe priority)

theorem perm_sortNodes (priority : Dict String ℤ) (nodes : List String) :
    (sortNodes priority nodes).Perm nodes := List.perm_insertionSort _ _

/-- `for child in graph.graph[parent]: indegree[child] += 1` -/
def countEdges (indegree : String → ℤ) (children : List String) : String → ℤ :=
  children.foldl (fun d child ↦ Function.update d child (d child + 1)) indegree

def initialIndegree (g : DependencyGraph) : String → ℤ :=
  g.graph.entries.foldl (fun d e ↦ countEdges d e.2) fun _ ↦ 0

/-- The state in front of the queue loop. -/
def startState (g : DependencyGraph) (priority : Dict String ℤ) : State String where
  indegree := initialIndegree g
  queue := (sortNodes priority g.nodes).filter fun node ↦ initialIndegree g node = 0
  order := []

/-- `TopologicalUpdatePlanner.plan` -/
def topologicalPlan (g : DependencyGraph) (priority : Dict String ℤ) :
    Except PyError (List String) :=
  let order := (loop (fun node ↦ sortNodes priority (g.children node)) g.nodes.length
    (startState g priority)).order
  if order.length ≠ g.nodes.length then
    .error (.runtimeError "Dependency cycle detected. Update plan cannot be generated.")
  else .ok order

/-! ## The order it returns -/

theorem countEdges_apply (indegree : String → ℤ) (children : List String) (c : String) :
    countEdges indegree children c = indegree c + children.count c := by
  induction children generalizing indegree with
  | nil => simp [countEdges]
  | cons x xs ih =>
      have h := ih (Function.update indegree x (indegree x + 1))
      rw [countEdges] at h
      rw [countEdges, List.foldl_cons, h, List.count_cons]
      by_cases hx : c = x
      · subst hx
        simp
        ring
      · simp [Function.update_of_ne hx, Ne.symm hx]

theorem foldl_countEdges (entries : List (String × List String)) (indegree : String → ℤ)
    (c : String) :
    entries.foldl (fun d e ↦ countEdges d e.2) indegree c =
      indegree c + (entries.map fun e ↦ (e.2.count c : ℤ)).sum := by
  induction entries generalizing indegree with
  | nil => simp
  | cons e entries ih =>
      rw [List.foldl_cons, ih, countEdges_apply]
      simp only [List.map_cons, List.sum_cons]
      ring

/-- The counts of the code are the numbers of edges that lead to a node. -/
theorem initialIndegree_apply {g : DependencyGraph} (hg : g.WellFormed) (c : String) :
    initialIndegree g c = ∑ p ∈ g.nodes.toFinset, ((g.children p).count c : ℤ) := by
  have hchildren : ∀ e ∈ g.graph.entries, g.children e.1 = e.2 := by
    intro e he
    rw [DependencyGraph.children, (Dict.get?_eq_some_iff _ _ _).mpr he]
    rfl
  have hkeys : (g.graph.entries.map fun e ↦ (e.2.count c : ℤ)) =
      g.graph.keys.map fun p ↦ ((g.children p).count c : ℤ) := by
    rw [Dict.keys, List.map_map]
    apply List.map_congr_left
    intro e he
    simp [hchildren e he]
  have hnodup : g.graph.keys.Nodup := g.graph.nodup
  rw [initialIndegree, foldl_countEdges, zero_add, hkeys, ← List.sum_toFinset _ hnodup]
  apply sum_subset
  · intro p hp
    exact List.mem_toFinset.mpr (hg.parent p (List.mem_toFinset.mp hp))
  · intro p _ hp
    rw [List.mem_toFinset] at hp
    simp [DependencyGraph.children, (Dict.get?_eq_none_iff _ _).mpr hp]

theorem start_startState {g : DependencyGraph} (hg : g.WellFormed) (priority : Dict String ℤ) :
    Start g.nodes.toFinset (fun node ↦ sortNodes priority (g.children node))
      (startState g priority) where
  order := rfl
  nodup := ((perm_sortNodes priority g.nodes).nodup_iff.mpr hg.nodup).filter _
  indegree c := by
    refine (initialIndegree_apply hg c).trans (sum_congr rfl fun p _ ↦ ?_)
    rw [(perm_sortNodes priority (g.children p)).count_eq]
  queue c := by
    simp [startState, (perm_sortNodes priority g.nodes).mem_iff]

theorem mem_sortedChildren {g : DependencyGraph} (hg : g.WellFormed) (priority : Dict String ℤ) :
    ∀ p ∈ g.nodes.toFinset, ∀ c ∈ sortNodes priority (g.children p), c ∈ g.nodes.toFinset :=
  fun p _ c hc ↦ List.mem_toFinset.mpr
    (hg.child p c ((perm_sortNodes priority (g.children p)).mem_iff.mp hc))

/-- A returned order lists the nodes, each once and behind its parents. -/
theorem topologicalPlan_ok {g : DependencyGraph} (hg : g.WellFormed) {priority : Dict String ℤ}
    {order : List String} (h : topologicalPlan g priority = .ok order) :
    order.Nodup ∧ (∀ c, c ∈ order ↔ c ∈ g.nodes) ∧
      ParentsFirst (fun p c ↦ c ∈ g.children p) order := by
  unfold topologicalPlan at h
  dsimp only at h
  split at h
  · exact absurd h (by simp)
  · rename_i hlength
    obtain ⟨hnodup, hmem, hparents⟩ := order_loop (start_startState hg priority)
      (mem_sortedChildren hg priority) g.nodes.length
    rw [Except.ok.inj h] at hlength hnodup hmem hparents
    have hsub : order ⊆ g.nodes := fun c hc ↦ List.mem_toFinset.mp (hmem c hc)
    have hperm : order.Perm g.nodes :=
      (List.subperm_of_subset hnodup hsub).perm_of_length_le (not_not.mp hlength).ge
    refine ⟨hnodup, fun c ↦ hperm.mem_iff, ?_⟩
    intro before c after heq p hp
    refine hparents before c after heq p ⟨?_, ?_⟩
    · rw [List.mem_toFinset]
      refine hg.parent p ((Dict.isSome_get? _ _).mp ?_)
      by_contra hnone
      rw [Bool.not_eq_true, Option.isSome_eq_false_iff, Option.isNone_iff_eq_none] at hnone
      simp [DependencyGraph.children, hnone] at hp
    · exact (perm_sortNodes priority (g.children p)).mem_iff.mpr hp

end VehicleOta.Tcu
