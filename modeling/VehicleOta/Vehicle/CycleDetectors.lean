import VehicleOta.Graph.DepthFirst
import VehicleOta.Tcu.PlanningCycles
import VehicleOta.Vehicle.TopologyLoader

/-!
# Two cycle detectors

The topology checks its dependencies with a depth-first search, the planner with a topological
sort.  Both find exactly the cycles among the keys of the map; names without a key lead nowhere.
-/

namespace VehicleOta

open KahnLogic Relation Tcu

namespace VehicleTopology

/-! ## The search of the topology -/

def CycleSearch.toState (s : CycleSearch) : DepthFirstLogic.State String String :=
  ⟨s.visiting, s.visited, s.errors⟩

/-- The error for a visit of `node` at the end of `path`. -/
def cycleError (path : List String) (node : String) : String :=
  "dependency cycle detected: " ++ " -> ".intercalate (path ++ [node])

/-- Loops whose rounds agree on the images of the states agree on them. -/
theorem foldlM_map {σ τ β : Type} {f : σ → β → Option σ} {g : τ → β → Option τ} {h : σ → τ}
    (hstep : ∀ s x, (f s x).map h = g (h s) x) (xs : List β) (s : σ) :
    (xs.foldlM f s).map h = xs.foldlM g (h s) := by
  induction xs generalizing s with
  | nil => rfl
  | cons x xs ih =>
      rw [List.foldlM_cons, List.foldlM_cons, ← hstep]
      cases f s x with
      | none => rfl
      | some t => exact ih t

theorem visit_toState (dependencies : Dict String (List String)) (fuel : ℕ) (node : String)
    (path : List String) (s : CycleSearch) :
    (visit dependencies fuel node path s).map CycleSearch.toState =
      DepthFirstLogic.visit (dependenciesOf dependencies) cycleError fuel node path s.toState := by
  induction fuel generalizing node path s with
  | zero => rfl
  | succ fuel ih =>
      have hfold := foldlM_map
        (f := fun s dependency ↦ visit dependencies fuel dependency (path ++ [node]) s)
        (g := fun s dependency ↦ DepthFirstLogic.visit (dependenciesOf dependencies) cycleError fuel
          dependency (path ++ [node]) s)
        (h := CycleSearch.toState) (fun s dependency ↦ ih dependency (path ++ [node]) s)
        (dependenciesOf dependencies node) { s with visiting := node :: s.visiting }
      unfold visit DepthFirstLogic.visit
      by_cases hvisiting : node ∈ s.visiting
      · have hvisiting' : node ∈ s.toState.visiting := hvisiting
        rw [if_pos hvisiting, if_pos hvisiting']
        rfl
      have hvisiting' : node ∉ s.toState.visiting := hvisiting
      rw [if_neg hvisiting, if_neg hvisiting']
      by_cases hvisited : node ∈ s.visited
      · have hvisited' : node ∈ s.toState.visited := hvisited
        rw [if_pos hvisited, if_pos hvisited']
        rfl
      have hvisited' : node ∉ s.toState.visited := hvisited
      rw [if_neg hvisited, if_neg hvisited']
      refine Eq.trans ?_ (congrArg (Option.map fun s ↦ s.leave node) hfold)
      rw [dependenciesOf]
      cases List.foldlM (fun s dependency ↦ visit dependencies fuel dependency (path ++ [node]) s)
        { s with visiting := node :: s.visiting } ((dependencies.get? node).getD []) with
      | none => rfl
      | some t => rfl

/-- The search terminates, and reports nothing if and only if there is no cycle. -/
theorem dependencyCycleErrors_spec (dependencies : Dict String (List String)) :
    ∃ errors, dependencyCycleErrors dependencies = some errors ∧
      (errors = [] ↔ Acyclic (DependencyOf dependencies)) := by
  have hkeys : ∀ node, node ∉ dependencies.keys → dependenciesOf dependencies node = [] := by
    intro node hnode
    rw [dependenciesOf, (Dict.get?_eq_none_iff dependencies node).mpr hnode]
    rfl
  have hfuel : dependencies.keys.length < dependencies.keys.length + 2 := by omega
  obtain ⟨t, ht, herrors⟩ := DepthFirstLogic.search_finds_cycle cycleError hkeys hfuel
  have hfold := foldlM_map
    (f := fun s node ↦ visit dependencies (dependencies.keys.length + 2) node [] s)
    (g := fun s node ↦ DepthFirstLogic.visit (dependenciesOf dependencies) cycleError
      (dependencies.keys.length + 2) node [] s)
    (fun s node ↦ visit_toState dependencies (dependencies.keys.length + 2) node [] s)
    dependencies.keys {}
  obtain ⟨s, hs, rfl⟩ := Option.map_eq_some_iff.mp (hfold.trans ht)
  refine ⟨s.errors, ?_, herrors⟩
  rw [dependencyCycleErrors, hs]
  rfl

end VehicleTopology

/-! ## The check of the planner -/

/-- `_validate_cycle` -/
def validateCycle (dependencyMap : Dict String (List String)) : Except PyError Unit :=
  (topologicalPlan (buildGraph dependencyMap.keys dependencyMap) Dict.empty).map fun _ ↦ ()

/-- The map with each of its lists as a set. -/
def asSets (dependencies : Dict String (List String)) : Dict String (List String) :=
  dependencies.mapValues fun _ names ↦ names.dedup

theorem validateCycle_eq_ok_iff (dependencyMap : Dict String (List String)) :
    validateCycle dependencyMap = .ok () ↔
      Acyclic (Within (· ∈ dependencyMap.keys) (DependencyOf dependencyMap)) := by
  rw [← topologicalPlan_buildGraph_ok_iff _ _ Dict.empty, validateCycle]
  cases topologicalPlan (buildGraph dependencyMap.keys dependencyMap) Dict.empty with
  | ok order => simp [Except.map]
  | error e => simp [Except.map]

theorem dependencyOf_asSets (dependencies : Dict String (List String)) :
    DependencyOf (asSets dependencies) = DependencyOf dependencies := by
  ext d n
  rw [DependencyOf, DependencyOf, dependenciesOf, dependenciesOf, asSets, Dict.get?_mapValues]
  cases dependencies.get? n with
  | none => rfl
  | some names => exact List.mem_dedup

/-- For every dependency map: the search of the topology terminates, and it returns no error if
and only if the check of the planner does not raise, if and only if the keys have no cycle. -/
theorem cycle_detectors_agree (dependencies : Dict String (List String)) :
    ∃ errors, VehicleTopology.dependencyCycleErrors dependencies = some errors ∧
      (errors = [] ↔ validateCycle dependencies = .ok ()) ∧
      (errors = [] ↔ validateCycle (asSets dependencies) = .ok ()) ∧
      (errors = [] ↔ ∀ name, ¬ TransGen
        (fun d n ↦ d ∈ dependencies.keys ∧ n ∈ dependencies.keys ∧
          d ∈ dependenciesOf dependencies n) name name) := by
  obtain ⟨errors, hsome, herrors⟩ := VehicleTopology.dependencyCycleErrors_spec dependencies
  have hkeys : ∀ d n, DependencyOf dependencies d n → n ∈ dependencies.keys := by
    intro d n hdn
    rw [← Dict.isSome_get?]
    cases hget : dependencies.get? n with
    | none => simp [DependencyOf, dependenciesOf, hget] at hdn
    | some names => rfl
  have hwithin : Acyclic (DependencyOf dependencies) ↔
      Acyclic (Within (· ∈ dependencies.keys) (DependencyOf dependencies)) :=
    ⟨fun h ↦ h.mono fun d n hdn ↦ hdn.2.2, acyclic_within hkeys⟩
  rw [hwithin] at herrors
  refine ⟨errors, hsome, ?_, ?_, herrors⟩
  · rw [validateCycle_eq_ok_iff]
    exact herrors
  · rw [validateCycle_eq_ok_iff, dependencyOf_asSets, asSets, Dict.keys_mapValues]
    exact herrors

end VehicleOta
