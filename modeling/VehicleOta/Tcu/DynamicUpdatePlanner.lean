import VehicleOta.Graph.Pruning
import VehicleOta.Tcu.DependencyManager

/-!
# The dynamic update planner

`DynamicUpdatePlanner.plan` of `tcu/dynamic_update_planner.py`.
-/

namespace VehicleOta.Tcu

open PruningLogic

/-- The classification strings: `ELIGIBLE`, `ALREADY_SATISFIED`, and `SKIPPED_OPTIONAL`,
`BLOCKED_BY_DEPENDENCY` and `ABORT_REQUIRED` followed by a colon and the reason. -/
inductive Classification where
  | eligible
  | alreadySatisfied
  | skippedOptional (reason : String)
  | blockedByDependency (reason : String)
  | abortRequired (reason : String)
  deriving DecidableEq

/-- The three prefixes that count as skipped in the loop over blocked targets. -/
def Classification.isSkipped : Classification → Bool
  | .eligible | .alreadySatisfied => false
  | _ => true

structure DynamicUpdatePlan where
  updateOrder : List String
  dependencyMap : Dict String (List String)
  dependencySources : Dict String String
  classifications : Dict String Classification
  blockingErrors : List String

def DynamicUpdatePlan.executable (p : DynamicUpdatePlan) : Bool := p.blockingErrors.isEmpty

/-- `dependency_map.get(ecu_name, set())` -/
def dependenciesOf (dependencyMap : Dict String (List String)) (ecuName : String) : List String :=
  (dependencyMap.get? ecuName).getD []

def sortedNames (names : List String) : List String := names.insertionSort (· ≤ ·)

/-! ## Classification of the targets -/

/-- `_version_matches` -/
def versionMatches (currentVersion targetVersion : String) : Bool :=
  if currentVersion = "" ∨ targetVersion = "" then false
  else
    match versionEq currentVersion targetVersion with
    | .ok same => same
    | .error _ => currentVersion = targetVersion

section Plan

variable (resolver : DependencyPolicyResolver) (vehicle : Vehicle) (campaign : Campaign)
  (eligibleUpdates : List EligibleUpdate)

def discoveredByName : Dict String ECU :=
  Dict.ofPairs (vehicle.getAllEcus.map fun ecu ↦ (ecu.ecuName, ecu))

def targetByName : Dict String CampaignTarget :=
  Dict.ofPairs (campaign.targets.map fun target ↦ (target.ecuName, target))

def eligibleNames : List String := eligibleUpdates.map fun entry ↦ entry.ecu.ecuName

def skippedTargets : Dict String String := Dict.ofPairs campaign.skippedOptionalTargets

/-- The classification of a target that is neither eligible nor skipped by the campaign. -/
def classifyRemaining (ecuName : String) (target : CampaignTarget) :
    Classification × List String :=
  let policy := resolver.forEcu ecuName
  match (discoveredByName vehicle).get? ecuName with
  | none =>
      if target.mandatory ∧ ¬ target.skipIfUnavailable ∧ policy.unavailableAbortsCampaign then
        (.abortRequired "ECU_NOT_FOUND", [s!"{ecuName} is mandatory but not discovered"])
      else (.skippedOptional "ECU_NOT_FOUND", [])
  | some ecu =>
      if versionMatches ecu.currentVersion target.targetVersion then (.alreadySatisfied, [])
      else if (target.mandatory ∧ ¬ target.skipIfIncompatible) ∨
          (policy.unavailableAbortsCampaign ∧ ¬ target.skipIfIncompatible) then
        (.abortRequired "NOT_ELIGIBLE", [s!"{ecuName} is required but not eligible for update"])
      else (.skippedOptional "NOT_ELIGIBLE", [])

/-- The classification of a target, and the blocking errors that come with it. -/
def classify (ecuName : String) (target : CampaignTarget) : Classification × List String :=
  if ecuName ∈ eligibleNames eligibleUpdates then (.eligible, [])
  else
    match (skippedTargets campaign).get? ecuName with
    | some reason => (.skippedOptional reason, [])
    | none => classifyRemaining resolver vehicle ecuName target

def initialClassifications : Dict String Classification :=
  (targetByName campaign).mapValues fun ecuName target ↦
    (classify resolver vehicle campaign eligibleUpdates ecuName target).1

def classificationErrors : List String :=
  (targetByName campaign).entries.flatMap fun e ↦
    (classify resolver vehicle campaign eligibleUpdates e.1 e.2).2

/-! ## Dependencies -/

def resolveDependencies : Dict String (List String) :=
  (targetByName campaign).mapValues fun ecuName _ ↦
    match campaign.dependencyOverrides.get? ecuName with
    | some dependencies => dependencies.dedup
    | none => (resolver.forEcu ecuName).dependencies.dedup

def dependencySources : Dict String String :=
  (targetByName campaign).mapValues fun ecuName _ ↦
    match campaign.dependencyOverrides.get? ecuName with
    | some _ => "campaign_overrides"
    | none =>
        if (resolver.forEcu ecuName).dependencies.isEmpty then "none" else "vehicle_topology"

def unknownDependencyErrors : List String :=
  let knownNames := resolver.ecuRegistry.keys ++ (targetByName campaign).keys
  (resolveDependencies resolver campaign).entries.flatMap fun e ↦
    (e.2.filter fun dependency ↦ dependency ∉ knownNames).map fun dependency ↦
      s!"{e.1} depends on unknown ECU: {dependency}"

/-- The graph on `names` with an edge from each dependency among them. -/
def buildGraph (names : List String) (dependencyMap : Dict String (List String)) :
    DependencyGraph :=
  let nodes := names.foldl (fun g name ↦ g.addNode name) {}
  names.foldl (fun g name ↦
    ((dependenciesOf dependencyMap name).filter (· ∈ names)).foldl
      (fun g dependency ↦ g.addDependency dependency name) g) nodes

/-- `_validate_cycle`, as the errors it adds. -/
def cycleErrors (dependencyMap : Dict String (List String)) : List String :=
  match topologicalPlan (buildGraph dependencyMap.keys dependencyMap) Dict.empty with
  | .ok _ => []
  | .error _ => ["Dependency cycle detected. Update plan cannot be generated."]

def dependencyErrors : List String :=
  let unknown := unknownDependencyErrors resolver campaign
  if unknown.isEmpty then cycleErrors (resolveDependencies resolver campaign) else unknown

/-! ## Blocked targets -/

structure BlockingState where
  executableNames : List String
  classifications : Dict String Classification
  blockingErrors : List String

variable (dependencyMap : Dict String (List String)) (satisfiedNames : List String)

/-- `dependencies - executable_names - satisfied_names` -/
def missingDependencies (executableNames : List String) (ecuName : String) : List String :=
  (dependenciesOf dependencyMap ecuName).filter fun dependency ↦
    dependency ∉ executableNames ∧ dependency ∉ satisfiedNames

def BlockingState.skippedNames (s : BlockingState) : List String :=
  (s.classifications.entries.filter fun e ↦ e.2.isSkipped).map Prod.fst

/-- What happens to a target with missing dependencies. -/
def blockTarget (s : BlockingState) (ecuName : String) : BlockingState :=
  let missing := missingDependencies dependencyMap satisfiedNames s.executableNames ecuName
  let reason := if (missing.filter (· ∈ s.skippedNames)).isEmpty then "DEPENDENCY_UNAVAILABLE"
    else "DEPENDENCY_SKIPPED"
  { executableNames := s.executableNames.filter (· ≠ ecuName)
    classifications := s.classifications.set ecuName (.blockedByDependency reason)
    blockingErrors :=
      if (resolver.forEcu ecuName).dependencyFailureAbortsCampaign then
        s.blockingErrors ++
          [s!"{ecuName} has blocking dependencies: " ++ ", ".intercalate (sortedNames missing)]
      else s.blockingErrors }

/-- One pass of the loop: the first blocked target in the order of the names, if there is
one.  The two sets that the code tests are the skipped and the other missing dependencies. -/
def blockingPass (s : BlockingState) : Option BlockingState :=
  ((sortedNames s.executableNames).find? fun ecuName ↦
    !(missingDependencies dependencyMap satisfiedNames s.executableNames ecuName).isEmpty).map
      (blockTarget resolver dependencyMap satisfiedNames s)

theorem blockingPass_eq_some {s t : BlockingState}
    (h : blockingPass resolver dependencyMap satisfiedNames s = some t) :
    ∃ ecuName ∈ s.executableNames,
      missingDependencies dependencyMap satisfiedNames s.executableNames ecuName ≠ [] ∧
        t = blockTarget resolver dependencyMap satisfiedNames s ecuName := by
  obtain ⟨ecuName, hfind, rfl⟩ := Option.map_eq_some_iff.mp h
  refine ⟨ecuName, ?_, ?_, rfl⟩
  · exact (List.perm_insertionSort _ _).mem_iff.mp (List.mem_of_find?_eq_some hfind)
  · simpa using List.find?_some hfind

/-- The loop as a pruning of the executable names: a target is supported by a set where its
dependencies lie in the set or are satisfied. -/
def blockingPruner : Pruner BlockingState String where
  candidates := BlockingState.executableNames
  supported S ecuName := ∀ d ∈ dependenciesOf dependencyMap ecuName, S d ∨ d ∈ satisfiedNames
  step := blockingPass resolver dependencyMap satisfiedNames
  supported_mono hST hS d hd := (hS d hd).imp_left (hST d)
  stop s hs ecuName hmem d hd := by
    have hnone := Option.map_eq_none_iff.mp hs
    have hempty := List.find?_eq_none.mp hnone ecuName
      ((List.perm_insertionSort _ _).mem_iff.mpr hmem)
    by_contra hcon
    have : d ∈ missingDependencies dependencyMap satisfiedNames s.executableNames ecuName :=
      List.mem_filter.mpr ⟨hd, by simpa using not_or.mp hcon⟩
    simp only [Bool.not_eq_true', Bool.not_eq_false, List.isEmpty_iff] at hempty
    rw [hempty] at this
    exact List.not_mem_nil this
  drop s t hst := by
    obtain ⟨ecuName, hmem, hmissing, rfl⟩ :=
      blockingPass_eq_some resolver dependencyMap satisfiedNames hst
    refine ⟨ecuName, hmem, ?_, fun y ↦ by simp [blockTarget], ?_⟩
    · intro hsupported
      obtain ⟨d, hd⟩ := List.exists_mem_of_ne_nil _ hmissing
      obtain ⟨hdep, hnot⟩ := List.mem_filter.mp hd
      have hnot : d ∉ s.executableNames ∧ d ∉ satisfiedNames := by simpa using hnot
      rcases hsupported d hdep with h | h
      · exact hnot.1 h
      · exact hnot.2 h
    · exact List.length_filter_lt_length_iff_exists.mpr ⟨ecuName, hmem, by simp⟩

def namesWith (classifications : Dict String Classification) (c : Classification) : List String :=
  (classifications.entries.filter fun e ↦ e.2 = c).map Prod.fst

/-! ## The plan -/

/-- The state in front of the loop. -/
def initialBlocking : BlockingState where
  executableNames := namesWith
    (initialClassifications resolver vehicle campaign eligibleUpdates) .eligible
  classifications := initialClassifications resolver vehicle campaign eligibleUpdates
  blockingErrors := classificationErrors resolver vehicle campaign eligibleUpdates ++
    dependencyErrors resolver campaign

/-- The state behind the loop, which drops a name in every pass but the last. -/
def finalBlocking : BlockingState :=
  let start := initialBlocking resolver vehicle campaign eligibleUpdates
  (blockingPruner resolver (resolveDependencies resolver campaign)
    (namesWith start.classifications .alreadySatisfied)).loop start.executableNames.length start

def targetPriority : Dict String ℤ :=
  Dict.ofPairs (campaign.targets.map fun target ↦ (target.ecuName, target.priority))

/-- `DynamicUpdatePlanner.plan` -/
def plan : Except PyError DynamicUpdatePlan :=
  let final := finalBlocking resolver vehicle campaign eligibleUpdates
  let dependencyMap := resolveDependencies resolver campaign
  let graph := buildGraph final.executableNames dependencyMap
  let order := if graph.nodes.isEmpty then .ok []
    else topologicalPlan graph (targetPriority campaign)
  order.map fun updateOrder ↦
    { updateOrder
      dependencyMap
      dependencySources := dependencySources resolver campaign
      classifications := final.classifications
      blockingErrors := final.blockingErrors }

end Plan

end VehicleOta.Tcu
