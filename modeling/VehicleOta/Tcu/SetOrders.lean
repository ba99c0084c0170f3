import VehicleOta.Tcu.PlanSpec

/-!
# The sets of the planner

`DynamicUpdatePlanner.plan` with the order in which each set is iterated as a parameter, where the
code does not sort the set first.  The order of a set of texts differs between two processes.
-/

namespace VehicleOta.Tcu

/-- An order in which a set may be iterated. -/
structure SetOrder where
  iterate : List String → List String
  perm : ∀ names, (iterate names).Perm names

/-- The order in which the names of a set were inserted. -/
def SetOrder.inserted : SetOrder := ⟨id, fun _ ↦ List.Perm.refl _⟩

/-- The iterations of `_resolve_dependencies` and `_validate_cycle` over the dependencies of a
target, those of `plan` over the executable names, and the one over their dependencies. -/
structure SetOrders where
  unknown : String → SetOrder
  cycle : String → SetOrder
  nodes : SetOrder
  executable : SetOrder
  edges : String → SetOrder

def SetOrders.inserted : SetOrders :=
  ⟨fun _ ↦ .inserted, fun _ ↦ .inserted, .inserted, .inserted, fun _ ↦ .inserted⟩

/-- The two loops that build a graph. -/
def buildGraphIn (nodes executable : SetOrder) (edges : String → SetOrder) (names : List String)
    (dependencyMap : Dict String (List String)) : DependencyGraph :=
  let graph := (nodes.iterate names).foldl (fun g name ↦ g.addNode name) {}
  (executable.iterate names).foldl (fun g name ↦
    (((edges name).iterate (dependenciesOf dependencyMap name)).filter (· ∈ names)).foldl
      (fun g dependency ↦ g.addDependency dependency name) g) graph

section Plan

variable (orders : SetOrders) (resolver : DependencyPolicyResolver) (vehicle : Vehicle)
  (campaign : Campaign) (eligibleUpdates : List EligibleUpdate)

def unknownDependencyErrorsIn : List String :=
  let knownNames := resolver.ecuRegistry.keys ++ (targetByName campaign).keys
  (resolveDependencies resolver campaign).entries.flatMap fun e ↦
    (((orders.unknown e.1).iterate e.2).filter fun dependency ↦ dependency ∉ knownNames).map
      fun dependency ↦ s!"{e.1} depends on unknown ECU: {dependency}"

/-- The targets of a dictionary come in its own order. -/
def cycleErrorsIn (dependencyMap : Dict String (List String)) : List String :=
  match topologicalPlan (buildGraphIn .inserted .inserted orders.cycle dependencyMap.keys
    dependencyMap) Dict.empty with
  | .ok _ => []
  | .error _ => ["Dependency cycle detected. Update plan cannot be generated."]

def dependencyErrorsIn : List String :=
  let unknown := unknownDependencyErrorsIn orders resolver campaign
  if unknown.isEmpty then cycleErrorsIn orders (resolveDependencies resolver campaign) else unknown

def initialBlockingIn : BlockingState :=
  { initialBlocking resolver vehicle campaign eligibleUpdates with
    blockingErrors := classificationErrors resolver vehicle campaign eligibleUpdates ++
      dependencyErrorsIn orders resolver campaign }

/-- The loop over blocked targets sorts its sets. -/
def finalBlockingIn : BlockingState :=
  let start := initialBlockingIn orders resolver vehicle campaign eligibleUpdates
  (blockingPruner resolver (resolveDependencies resolver campaign)
    (namesWith start.classifications .alreadySatisfied)).loop start.executableNames.length start

/-- `DynamicUpdatePlanner.plan` -/
def planIn : Except PyError DynamicUpdatePlan :=
  let final := finalBlockingIn orders resolver vehicle campaign eligibleUpdates
  let dependencyMap := resolveDependencies resolver campaign
  let graph := buildGraphIn orders.nodes orders.executable orders.edges final.executableNames
    dependencyMap
  let order := if graph.nodes.isEmpty then .ok []
    else topologicalPlan graph (targetPriority campaign)
  order.map fun updateOrder ↦
    { updateOrder
      dependencyMap
      dependencySources := dependencySources resolver campaign
      classifications := final.classifications
      blockingErrors := final.blockingErrors }

/-- The plan is the one of sets that are iterated in the order of insertion. -/
theorem planIn_inserted :
    planIn .inserted resolver vehicle campaign eligibleUpdates =
      plan resolver vehicle campaign eligibleUpdates := rfl

end Plan

/-! ## Graphs -/

section Graph

variable (nodes executable : SetOrder) (edges : String → SetOrder) (names : List String)
  (dependencyMap : Dict String (List String))

/-- The dependencies of a target among the names, as the loop over them meets them. -/
def dependenciesAmong (ecuName : String) : List String :=
  ((edges ecuName).iterate (dependenciesOf dependencyMap ecuName)).filter (· ∈ names)

theorem mem_dependenciesAmong {dependency ecuName : String}
    (h : dependency ∈ dependenciesAmong edges names dependencyMap ecuName) : dependency ∈ names := by
  simpa using (List.mem_filter.mp h).2

theorem children_foldl_addDependency (child parent : String) (dependencies : List String)
    (g : DependencyGraph) :
    (dependencies.foldl (fun g dependency ↦ g.addDependency dependency child) g).children parent =
      g.children parent ++ List.replicate (dependencies.count parent) child := by
  induction dependencies generalizing g with
  | nil => simp
  | cons d dependencies ih =>
      rw [List.foldl_cons, ih, DependencyGraph.children_addDependency, List.count_cons]
      by_cases hd : d = parent
      · rw [if_pos hd.symm, beq_iff_eq.mpr hd, if_pos rfl, List.append_assoc, List.singleton_append,
          ← List.replicate_succ]
      · rw [if_neg (Ne.symm hd), beq_false_of_ne hd, if_neg Bool.false_ne_true, Nat.add_zero]

/-- What the second loop adds for the targets of `rest`. -/
structure Extended (names rest : List String) (dependencies : String → List String)
    (g g' : DependencyGraph) : Prop where
  wellFormed : g'.WellFormed
  nodes : ∀ c, c ∈ g'.nodes ↔ c ∈ names
  children : ∀ p, g'.children p =
    g.children p ++ rest.flatMap fun name ↦ List.replicate ((dependencies name).count p) name

theorem extended_foldl {dependencies : String → List String}
    (hdependencies : ∀ name, ∀ d ∈ dependencies name, d ∈ names) (rest : List String)
    (hrest : ∀ n ∈ rest, n ∈ names) (g : DependencyGraph) (hg : g.WellFormed)
    (hnodes : ∀ c, c ∈ g.nodes ↔ c ∈ names) :
    Extended names rest dependencies g (rest.foldl (fun g name ↦
      (dependencies name).foldl (fun g dependency ↦ g.addDependency dependency name) g) g) := by
  induction rest generalizing g with
  | nil => exact ⟨hg, hnodes, fun p ↦ (List.append_nil _).symm⟩
  | cons name rest ih =>
      obtain ⟨hwf, hmem, -⟩ := foldl_addDependency (hrest name List.mem_cons_self)
        (dependencies name) (hdependencies name) g hg hnodes
      have hnext := ih (fun n hn ↦ hrest n (List.mem_cons_of_mem name hn)) _ hwf hmem
      refine ⟨hnext.wellFormed, hnext.nodes, fun p ↦ ?_⟩
      rw [List.foldl_cons, hnext.children, children_foldl_addDependency, List.flatMap_cons,
        List.append_assoc]

theorem extended_buildGraphIn :
    Extended names (executable.iterate names) (dependenciesAmong edges names dependencyMap) {}
      (buildGraphIn nodes executable edges names dependencyMap) := by
  obtain ⟨hwf, hmem, hchildren⟩ := foldl_addNode (nodes.iterate names) {}
    DependencyGraph.wellFormed_empty
  have hnodes : ∀ c, c ∈ ((nodes.iterate names).foldl (fun g name ↦ g.addNode name)
      ({} : DependencyGraph)).nodes ↔ c ∈ names := by
    intro c
    rw [hmem, (nodes.perm names).mem_iff]
    simp
  have hdependencies : ∀ name, ∀ d ∈ dependenciesAmong edges names dependencyMap name, d ∈ names :=
    fun _ _ h ↦ mem_dependenciesAmong edges names dependencyMap h
  have hextended := extended_foldl names hdependencies (executable.iterate names)
    (fun n hn ↦ (executable.perm names).mem_iff.mp hn) _ hwf hnodes
  refine ⟨hextended.wellFormed, hextended.nodes, fun p ↦ ?_⟩
  have hempty := hextended.children p
  rwa [hchildren] at hempty

end Graph

end VehicleOta.Tcu
