import Mathlib.Data.String.Basic
import VehicleOta.Graph.Acyclic
import VehicleOta.Graph.Readiness
import VehicleOta.Tcu.DependencyManager

/-!
# The order of the topological planner

`TopologicalUpdatePlanner.plan` returns an order of all nodes exactly for the graphs without a
directed cycle, whatever calls have built the graph.  Priorities decide between ECUs that became
ready together; an ECU that was ready earlier comes first.
-/

namespace VehicleOta.Tcu

open KahnLogic Relation

/-- A call that changes a dependency graph. -/
inductive GraphCall where
  | addNode (ecuName : String)
  | addDependency (parent child : String)

namespace DependencyGraph

def call (g : DependencyGraph) : GraphCall → DependencyGraph
  | .addNode ecuName => g.addNode ecuName
  | .addDependency parent child => g.addDependency parent child

/-- The graph that a list of calls builds from an empty one. -/
def ofCalls (calls : List GraphCall) : DependencyGraph := calls.foldl call {}

/-- There is an edge from `parent` to `child`. -/
def Edge (g : DependencyGraph) (parent child : String) : Prop := child ∈ g.children parent

theorem WellFormed.call {g : DependencyGraph} (h : g.WellFormed) (c : GraphCall) :
    (g.call c).WellFormed := by
  cases c with
  | addNode ecuName => exact h.addNode ecuName
  | addDependency parent child => exact h.addDependency parent child

theorem wellFormed_foldl_call (calls : List GraphCall) {g : DependencyGraph} (h : g.WellFormed) :
    (calls.foldl call g).WellFormed := by
  induction calls generalizing g with
  | nil => exact h
  | cons c calls ih => exact ih (h.call c)

theorem wellFormed_ofCalls (calls : List GraphCall) : (ofCalls calls).WellFormed :=
  wellFormed_foldl_call calls wellFormed_empty

/-- A node with a child is a node of the graph. -/
theorem WellFormed.mem_of_edge {g : DependencyGraph} (h : g.WellFormed) {parent child : String}
    (hedge : g.Edge parent child) : parent ∈ g.nodes := by
  refine h.parent parent ((Dict.isSome_get? _ _).mp ?_)
  by_contra hnone
  rw [Bool.not_eq_true, Option.isSome_eq_false_iff, Option.isNone_iff_eq_none] at hnone
  simp [Edge, children, hnone] at hedge

end DependencyGraph

section Planner

variable {g : DependencyGraph} {priority : Dict String ℤ}

theorem acyclic_sorted_iff (hg : g.WellFormed) (priority : Dict String ℤ) :
    Acyclic (Parent g.nodes.toFinset fun node ↦ sortNodes priority (g.children node)) ↔
      Acyclic g.Edge := by
  have hedge : ∀ p c, Parent g.nodes.toFinset (fun node ↦ sortNodes priority (g.children node)) p c ↔
      g.Edge p c := by
    intro p c
    rw [Parent, (perm_sortNodes priority (g.children p)).mem_iff, List.mem_toFinset]
    exact and_iff_right_of_imp hg.mem_of_edge
  exact ⟨fun h ↦ h.mono fun p c ↦ (hedge p c).mpr, fun h ↦ h.mono fun p c ↦ (hedge p c).mp⟩

/-- The count comparison at the end of the planner finds every cycle, and nothing else. -/
theorem topologicalPlan_cases (hg : g.WellFormed) (priority : Dict String ℤ) :
    (Acyclic g.Edge ∧ ∃ order, topologicalPlan g priority = .ok order) ∨
      (¬ Acyclic g.Edge ∧ topologicalPlan g priority =
        .error (.runtimeError "Dependency cycle detected. Update plan cannot be generated.")) := by
  have hstart := start_startState hg priority
  have hchildren := mem_sortedChildren hg priority
  have hcard : g.nodes.toFinset.card = g.nodes.length := List.toFinset_card_of_nodup hg.nodup
  have hcomplete := order_loop_complete_iff hstart hchildren
  rw [hcard, acyclic_sorted_iff hg priority] at hcomplete
  obtain ⟨hnodup, hmem, -⟩ := order_loop hstart hchildren g.nodes.length
  unfold topologicalPlan
  set order := (loop (fun node ↦ sortNodes priority (g.children node)) g.nodes.length
    (startState g priority)).order
  have hsub : order ⊆ g.nodes := fun c hc ↦ List.mem_toFinset.mp (hmem c hc)
  have hlength : order.length = g.nodes.length ↔ ∀ c ∈ g.nodes.toFinset, c ∈ order := by
    constructor
    · intro heq c hc
      have hperm : order.Perm g.nodes := (List.subperm_of_subset hnodup hsub).perm_of_length_le heq.ge
      exact hperm.mem_iff.mpr (List.mem_toFinset.mp hc)
    · intro hall
      have hperm : order.Perm g.nodes := (List.perm_ext_iff_of_nodup hnodup hg.nodup).mpr
        fun c ↦ ⟨@hsub c, fun hc ↦ hall c (List.mem_toFinset.mpr hc)⟩
      exact hperm.length_eq
  by_cases hacyclic : Acyclic g.Edge
  · refine Or.inl ⟨hacyclic, order, ?_⟩
    exact if_neg (not_not.mpr (hlength.mpr (hcomplete.mpr hacyclic)))
  · refine Or.inr ⟨hacyclic, ?_⟩
    exact if_pos fun heq ↦ hacyclic (hcomplete.mp (hlength.mp heq))

theorem topologicalPlan_ok_iff (hg : g.WellFormed) (priority : Dict String ℤ) :
    (∃ order, topologicalPlan g priority = .ok order) ↔ Acyclic g.Edge := by
  rcases topologicalPlan_cases hg priority with ⟨hacyclic, hok⟩ | ⟨hcyclic, herror⟩
  · exact iff_of_true hok hacyclic
  · refine iff_of_false ?_ hcyclic
    rintro ⟨order, hok⟩
    rw [herror] at hok
    cases hok

theorem perm_of_topologicalPlan (hg : g.WellFormed) {order : List String}
    (h : topologicalPlan g priority = .ok order) : order.Perm g.nodes := by
  obtain ⟨hnodup, hmem, -⟩ := topologicalPlan_ok hg h
  exact (List.perm_ext_iff_of_nodup hnodup hg.nodup).mpr hmem

end Planner

/-- For every graph that calls can build and every priority map: the planner returns a list if and
only if there is no directed cycle, and raises otherwise; the list is a permutation of the nodes
without duplicates, with every parent in front of its children. -/
theorem topological_plan_correct (calls : List GraphCall) (priority : Dict String ℤ) :
    ((∃ order, topologicalPlan (.ofCalls calls) priority = .ok order) ↔
      ∀ node, ¬ TransGen (DependencyGraph.ofCalls calls).Edge node node) ∧
    ((∃ node, TransGen (DependencyGraph.ofCalls calls).Edge node node) →
      topologicalPlan (.ofCalls calls) priority =
        .error (.runtimeError "Dependency cycle detected. Update plan cannot be generated.")) ∧
    ∀ order, topologicalPlan (.ofCalls calls) priority = .ok order →
      order.Nodup ∧ order.Perm (DependencyGraph.ofCalls calls).nodes ∧
      ∀ parent child, (DependencyGraph.ofCalls calls).Edge parent child →
        parent ∈ order ∧ order.idxOf parent < order.idxOf child := by
  have hg := DependencyGraph.wellFormed_ofCalls calls
  refine ⟨topologicalPlan_ok_iff hg priority, ?_, fun order h ↦ ?_⟩
  · rintro ⟨node, hcycle⟩
    rcases topologicalPlan_cases hg priority with ⟨hacyclic, -⟩ | ⟨-, herror⟩
    · exact absurd hcycle (hacyclic node)
    · exact herror
  · obtain ⟨hnodup, hmem, hparents⟩ := topologicalPlan_ok hg h
    refine ⟨hnodup, perm_of_topologicalPlan hg h, fun parent child hedge ↦ ⟨?_, ?_⟩⟩
    · exact (hmem parent).mpr (hg.mem_of_edge hedge)
    · exact hparents.idxOf_lt hedge ((hmem child).mpr (hg.child parent child hedge))

theorem topological_plan_correct_repeated :
    topologicalPlan (.ofCalls [.addDependency "A" "B", .addDependency "A" "B", .addNode "C"]) .empty =
        .ok ["A", "C", "B"] ∧
      "A" ∈ ["A", "C", "B"] ∧ ["A", "C", "B"].idxOf "A" < ["A", "C", "B"].idxOf "B" :=
  ⟨by rfl, ((topological_plan_correct [.addDependency "A" "B", .addDependency "A" "B", .addNode "C"]
    .empty).2.2 ["A", "C", "B"] (by rfl)).2.2 "A" "B" List.mem_cons_self⟩

/-! ## Priorities -/

section Priorities

variable (priority : Dict String ℤ)

/-- `priority.get(node, 9999)` -/
def priorityOf (node : String) : ℤ := (priority.get? node).getD 9999

instance : Std.Total (nodeLe priority) where
  total a b := by
    unfold nodeLe
    rcases lt_trichotomy (nodeKey priority a).1 (nodeKey priority b).1 with h | h | h
    · exact Or.inl (Or.inl h)
    · exact (le_total a b).imp (fun hab ↦ Or.inr ⟨h, hab⟩) fun hba ↦ Or.inr ⟨h.symm, hba⟩
    · exact Or.inr (Or.inl h)

instance : IsTrans String (nodeLe priority) where
  trans a b c hab hbc := by
    rcases hab with hab | ⟨hab, hle⟩
    · rcases hbc with hbc | ⟨hbc, -⟩
      · exact Or.inl (hab.trans hbc)
      · exact Or.inl (hab.trans_eq hbc)
    · rcases hbc with hbc | ⟨hbc, hle'⟩
      · exact Or.inl (hab.trans_lt hbc)
      · exact Or.inr ⟨hab.trans hbc, hle.trans hle'⟩

theorem pairwise_sortNodes (nodes : List String) :
    (sortNodes priority nodes).Pairwise (nodeLe priority) :=
  List.pairwise_insertionSort (nodeLe priority) nodes

variable {priority} {g : DependencyGraph}

theorem placedFirst_of_topologicalPlan (hg : g.WellFormed) {order : List String}
    (h : topologicalPlan g priority = .ok order) :
    PlacedFirst (nodeLe priority) g.Edge g.nodes.toFinset order := by
  have hstart := start_startState hg priority
  have hordered := (hstart.ordered ((pairwise_sortNodes priority g.nodes).filter _)).loop
    hstart.invariant (fun p ↦ pairwise_sortNodes priority (g.children p))
    (mem_sortedChildren hg priority) g.nodes.length
  have hplaced := hordered.placed
  have hedge : Parent g.nodes.toFinset (fun node ↦ sortNodes priority (g.children node)) = g.Edge := by
    ext p c
    rw [Parent, (perm_sortNodes priority (g.children p)).mem_iff, List.mem_toFinset]
    exact and_iff_right_of_imp hg.mem_of_edge
  rw [hedge] at hplaced
  unfold topologicalPlan at h
  dsimp only at h
  split at h
  · cases h
  · rwa [Except.ok.inj h] at hplaced

end Priorities

/-- For every graph without a cycle and all distinct priorities: an ECU that is placed was ready
before every other ECU that is ready and not placed, or it became ready together with it and has
the smaller priority. -/
theorem topological_plan_first_ready (calls : List GraphCall) (priority : Dict String ℤ)
    (hacyclic : ∀ node, ¬ TransGen (DependencyGraph.ofCalls calls).Edge node node)
    (hdistinct : ∀ a ∈ (DependencyGraph.ofCalls calls).nodes,
      ∀ b ∈ (DependencyGraph.ofCalls calls).nodes,
        priorityOf priority a = priorityOf priority b → a = b) :
    ∃ order, topologicalPlan (.ofCalls calls) priority = .ok order ∧
      ∀ placed ecu later, order = placed ++ ecu :: later →
        ∀ other ∈ (DependencyGraph.ofCalls calls).nodes, other ∉ placed → other ≠ ecu →
          (∀ parent, (DependencyGraph.ofCalls calls).Edge parent other → parent ∈ placed) →
          ReadyBefore (DependencyGraph.ofCalls calls).Edge placed ecu other ∨
            ReadyTogether (DependencyGraph.ofCalls calls).Edge placed ecu other ∧
              priorityOf priority ecu < priorityOf priority other := by
  have hg := DependencyGraph.wellFormed_ofCalls calls
  obtain ⟨order, horder⟩ := (topologicalPlan_ok_iff hg priority).mpr hacyclic
  refine ⟨order, horder, fun placed ecu later heq other hother hnot hne hready ↦ ?_⟩
  have hfirst := placedFirst_of_topologicalPlan hg horder placed ecu later heq other
    (List.mem_toFinset.mpr hother) hnot hne hready
  have hecu : ecu ∈ (DependencyGraph.ofCalls calls).nodes := by
    rw [← (perm_of_topologicalPlan hg horder).mem_iff, heq]
    simp
  rcases hfirst with hbefore | ⟨htogether, hlt | ⟨hsame, -⟩⟩
  · exact Or.inl hbefore
  · exact Or.inr ⟨htogether, hlt⟩
  · exact absurd (hdistinct ecu hecu other hother hsame).symm hne

/-- Two ECUs without dependencies, and one that depends on the first of them. -/
def fifoCalls : List GraphCall := [.addNode "B", .addDependency "A" "C"]

def fifoPriority : Dict String ℤ := Dict.ofPairs [("A", 1), ("C", 2), ("B", 3)]

theorem acyclic_fifo : ∀ node, ¬ TransGen (DependencyGraph.ofCalls fifoCalls).Edge node node :=
  (topologicalPlan_ok_iff (DependencyGraph.wellFormed_ofCalls fifoCalls) fifoPriority).mp
    ⟨["A", "B", "C"], by rfl⟩

theorem distinct_fifo : ∀ a ∈ (DependencyGraph.ofCalls fifoCalls).nodes,
    ∀ b ∈ (DependencyGraph.ofCalls fifoCalls).nodes,
      priorityOf fifoPriority a = priorityOf fifoPriority b → a = b := by
  decide

theorem topological_plan_first_ready_fifo :
    ∃ order, topologicalPlan (.ofCalls fifoCalls) fifoPriority = .ok order ∧
      ∀ placed ecu later, order = placed ++ ecu :: later →
        ∀ other ∈ (DependencyGraph.ofCalls fifoCalls).nodes, other ∉ placed → other ≠ ecu →
          (∀ parent, (DependencyGraph.ofCalls fifoCalls).Edge parent other → parent ∈ placed) →
          ReadyBefore (DependencyGraph.ofCalls fifoCalls).Edge placed ecu other ∨
            ReadyTogether (DependencyGraph.ofCalls fifoCalls).Edge placed ecu other ∧
              priorityOf fifoPriority ecu < priorityOf fifoPriority other :=
  topological_plan_first_ready fifoCalls fifoPriority acyclic_fifo distinct_fifo

/-- `B` with priority 3 is placed behind `A` although `C` with priority 2 is ready by then. -/
theorem topological_plan_not_smallest :
    (∀ node, ¬ TransGen (DependencyGraph.ofCalls fifoCalls).Edge node node) ∧
    (∀ a ∈ (DependencyGraph.ofCalls fifoCalls).nodes, ∀ b ∈ (DependencyGraph.ofCalls fifoCalls).nodes,
      priorityOf fifoPriority a = priorityOf fifoPriority b → a = b) ∧
    topologicalPlan (.ofCalls fifoCalls) fifoPriority = .ok (["A"] ++ "B" :: ["C"]) ∧
    (∀ parent, (DependencyGraph.ofCalls fifoCalls).Edge parent "C" → parent ∈ ["A"]) ∧
    priorityOf fifoPriority "C" < priorityOf fifoPriority "B" := by
  refine ⟨acyclic_fifo, distinct_fifo, by rfl, fun parent hparent ↦ ?_, by decide⟩
  have hnode := (DependencyGraph.wellFormed_ofCalls fifoCalls).mem_of_edge hparent
  have hall : ∀ p ∈ (DependencyGraph.ofCalls fifoCalls).nodes,
      "C" ∈ (DependencyGraph.ofCalls fifoCalls).children p → p ∈ ["A"] := by decide
  exact hall parent hnode hparent

end VehicleOta.Tcu
