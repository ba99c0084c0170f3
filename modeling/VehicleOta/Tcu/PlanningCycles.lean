import VehicleOta.Tcu.PlanSpec
import VehicleOta.Tcu.TopologicalOrder

/-!
# Cycles of the dependency map

`_validate_cycle` reports a cycle among the targets as a blocking error.  The executable targets
are sorted once more behind the loop over blocked targets, outside that check, and a cycle that
the loop has left there is raised through `main`.
-/

namespace VehicleOta.Tcu

open KahnLogic PruningLogic Relation

/-! ## The graphs of the planner -/

section Graph

variable (names : List String) (dependencyMap : Dict String (List String))

/-- `dependency` is one of the dependencies of `ecuName`. -/
def DependencyOf (dependency ecuName : String) : Prop :=
  dependency ∈ dependenciesOf dependencyMap ecuName

theorem edge_buildGraph :
    (buildGraph names dependencyMap).Edge = Within (· ∈ names) (DependencyOf dependencyMap) := by
  ext p c
  rw [DependencyGraph.Edge, (built_buildGraph names dependencyMap).mem_children]
  constructor
  · rintro ⟨hc, hp, hpn⟩
    exact ⟨hpn, hc, hp⟩
  · rintro ⟨hpn, hc, hp⟩
    exact ⟨hc, hp, hpn⟩

theorem topologicalPlan_buildGraph_ok_iff (priority : Dict String ℤ) :
    (∃ order, topologicalPlan (buildGraph names dependencyMap) priority = .ok order) ↔
      Acyclic (Within (· ∈ names) (DependencyOf dependencyMap)) := by
  rw [topologicalPlan_ok_iff (built_buildGraph names dependencyMap).wellFormed, edge_buildGraph]

theorem cycleErrors_eq_nil_iff :
    cycleErrors dependencyMap = [] ↔
      Acyclic (Within (· ∈ dependencyMap.keys) (DependencyOf dependencyMap)) := by
  rw [← topologicalPlan_buildGraph_ok_iff _ _ Dict.empty, cycleErrors]
  cases topologicalPlan (buildGraph dependencyMap.keys dependencyMap) Dict.empty with
  | ok order => simp
  | error e => simp

end Graph

section Plan

variable (resolver : DependencyPolicyResolver) (vehicle : Vehicle) (campaign : Campaign)
  (eligibleUpdates : List EligibleUpdate)

/-! ## The dependencies of the targets -/

/-- The dependencies of a target: those of the campaign, or else those of the topology. -/
def declaredDependencies (ecuName : String) : List String :=
  match campaign.dependencyOverrides.get? ecuName with
  | some dependencies => dependencies
  | none => (resolver.forEcu ecuName).dependencies

/-- The dependency map restricted to the targets. -/
def TargetDependency (dependency ecuName : String) : Prop :=
  dependency ∈ campaign.targets.map CampaignTarget.ecuName ∧
    ecuName ∈ campaign.targets.map CampaignTarget.ecuName ∧
    dependency ∈ declaredDependencies resolver campaign ecuName

theorem mem_resolveDependencies {ecuName : String}
    (h : ecuName ∈ campaign.targets.map CampaignTarget.ecuName) (dependency : String) :
    dependency ∈ dependenciesOf (resolveDependencies resolver campaign) ecuName ↔
      dependency ∈ declaredDependencies resolver campaign ecuName := by
  rw [← mem_keys_targetByName, ← Dict.isSome_get?, Option.isSome_iff_exists] at h
  obtain ⟨target, htarget⟩ := h
  rw [dependenciesOf, resolveDependencies, Dict.get?_mapValues, htarget, declaredDependencies]
  cases campaign.dependencyOverrides.get? ecuName with
  | none => simp
  | some dependencies => simp

theorem within_keys_eq : Within (· ∈ (resolveDependencies resolver campaign).keys)
    (DependencyOf (resolveDependencies resolver campaign)) = TargetDependency resolver campaign := by
  ext d n
  rw [Within, resolveDependencies, Dict.keys_mapValues, mem_keys_targetByName,
    mem_keys_targetByName, ← resolveDependencies, TargetDependency]
  refine and_congr_right fun _ ↦ and_congr_right fun hn ↦ ?_
  exact mem_resolveDependencies resolver campaign hn d

/-- A set of eligible targets whose dependencies lie in the set or are installed already. -/
def Sustained (E : Set String) : Prop :=
  ∀ n ∈ E, InitiallyEligible campaign eligibleUpdates n ∧
    ∀ d ∈ declaredDependencies resolver campaign n,
      d ∈ E ∨ d ∉ eligibleNames eligibleUpdates ∧ AtTarget vehicle campaign d

theorem isGreatest_sustained :
    IsGreatest {E | Sustained resolver vehicle campaign eligibleUpdates E}
      {n | n ∈ (finalBlocking resolver vehicle campaign eligibleUpdates).executableNames} := by
  have heq : {E | Sustained resolver vehicle campaign eligibleUpdates E} =
      {E : Set String | ∀ n ∈ E, InitiallyEligible campaign eligibleUpdates n ∧
        ∀ d ∈ dependenciesOf (resolveDependencies resolver campaign) n,
          d ∈ E ∨ d ∈ satisfiedNames resolver vehicle campaign eligibleUpdates} := by
    ext E
    refine forall₂_congr fun n _ ↦ and_congr_right fun hn ↦ forall_congr' fun d ↦ ?_
    rw [mem_resolveDependencies resolver campaign hn.1, mem_satisfiedNames]
  rw [heq]
  exact isGreatest_finalBlocking resolver vehicle campaign eligibleUpdates

/-! ## Errors that are reported -/

/-- The loop over blocked targets only adds errors. -/
theorem blockingErrors_prefix :
    classificationErrors resolver vehicle campaign eligibleUpdates ++
        dependencyErrors resolver campaign <+:
      (finalBlocking resolver vehicle campaign eligibleUpdates).blockingErrors := by
  refine Pruner.loop_induction
    (I := fun s : BlockingState ↦ classificationErrors resolver vehicle campaign eligibleUpdates ++
      dependencyErrors resolver campaign <+: s.blockingErrors)
    (fun s t hst hs ↦ ?_) _ _ List.prefix_rfl
  obtain ⟨ecuName, -, -, rfl⟩ := blockingPass_eq_some _ _ _ hst
  unfold blockTarget
  dsimp only
  split
  · exact hs.trans (List.prefix_append _ _)
  · exact hs

theorem dependencyErrors_ne_nil (h : ¬ Acyclic (TargetDependency resolver campaign)) :
    dependencyErrors resolver campaign ≠ [] := by
  unfold dependencyErrors
  dsimp only
  split
  · rw [← within_keys_eq, ← cycleErrors_eq_nil_iff] at h
    exact h
  · rename_i hunknown
    exact fun hnil ↦ hunknown (List.isEmpty_iff.mpr hnil)

/-- A plan for targets with a cycle is not executable. -/
theorem blockingErrors_ne_nil {p : DynamicUpdatePlan}
    (h : plan resolver vehicle campaign eligibleUpdates = .ok p)
    (hcycle : ¬ Acyclic (TargetDependency resolver campaign)) : p.blockingErrors ≠ [] := by
  rw [plan_eq_map] at h
  obtain ⟨order, -, rfl⟩ := map_eq_ok h
  dsimp only
  intro hnil
  have hprefix := blockingErrors_prefix resolver vehicle campaign eligibleUpdates
  rw [hnil, List.prefix_nil, List.append_eq_nil_iff] at hprefix
  exact dependencyErrors_ne_nil resolver campaign hcycle hprefix.2

/-! ## Errors that are raised -/

/-- The planner fails exactly on the cycles that the loop has left. -/
theorem plan_ok_iff_acyclic :
    (∃ p, plan resolver vehicle campaign eligibleUpdates = .ok p) ↔
      Acyclic (Within
        (· ∈ (finalBlocking resolver vehicle campaign eligibleUpdates).executableNames)
        (DependencyOf (resolveDependencies resolver campaign))) := by
  rw [← topologicalPlan_buildGraph_ok_iff _ _ (targetPriority campaign), plan_eq_map]
  constructor
  · rintro ⟨p, hp⟩
    obtain ⟨order, horder, -⟩ := map_eq_ok hp
    exact ⟨order, horder⟩
  · rintro ⟨order, horder⟩
    rw [horder]
    exact ⟨_, rfl⟩

/-- It succeeds if and only if no set of targets that support each other has a cycle. -/
theorem plan_ok_iff_sustained :
    (∃ p, plan resolver vehicle campaign eligibleUpdates = .ok p) ↔
      ∀ E, Sustained resolver vehicle campaign eligibleUpdates E →
        Acyclic (Within (· ∈ E) fun d n ↦ d ∈ declaredDependencies resolver campaign n) := by
  rw [plan_ok_iff_acyclic]
  obtain ⟨hself, hgreatest⟩ := isGreatest_sustained resolver vehicle campaign eligibleUpdates
  have hdepends : ∀ d n, InitiallyEligible campaign eligibleUpdates n →
      (DependencyOf (resolveDependencies resolver campaign) d n ↔
        d ∈ declaredDependencies resolver campaign n) :=
    fun d n hn ↦ mem_resolveDependencies resolver campaign hn.1 d
  constructor
  · intro hacyclic E hE
    refine hacyclic.mono fun d n hdn ↦ ⟨hgreatest hE hdn.1, hgreatest hE hdn.2.1, ?_⟩
    exact (hdepends d n (hE n hdn.2.1).1).mpr hdn.2.2
  · intro hall
    refine (hall _ hself).mono fun d n hdn ↦ ⟨hdn.1, hdn.2.1, ?_⟩
    exact (hdepends d n (hself n hdn.2.1).1).mp hdn.2.2

/-! ## The planning step of `main` -/

/-- How `main` goes on behind the planner. -/
inductive PlanningOutcome where
  | planned (plan : DynamicUpdatePlan)
  | finalized (status reason : String)

/-- The dynamic planning step of `main`. -/
def planningStep : Except PyError PlanningOutcome :=
  (plan resolver vehicle campaign eligibleUpdates).map fun updatePlan ↦
    if updatePlan.executable then .planned updatePlan
    else .finalized "FAILED" "DYNAMIC_PLANNING_FAILED"

end Plan

/-- For every vehicle, campaign and eligible list: a plan is returned, and a cycle among the
targets finalises the campaign, if and only if no set of eligible targets whose dependencies lie
in the set or are installed already has a cycle. -/
theorem planning_reports_cycles_iff (resolver : DependencyPolicyResolver) (vehicle : Vehicle)
    (campaign : Campaign) (eligibleUpdates : List EligibleUpdate) :
    (∃ p, plan resolver vehicle campaign eligibleUpdates = .ok p ∧
      ((∃ n, TransGen (TargetDependency resolver campaign) n n) →
        p.blockingErrors ≠ [] ∧ p.executable = false ∧
        planningStep resolver vehicle campaign eligibleUpdates =
          .ok (.finalized "FAILED" "DYNAMIC_PLANNING_FAILED"))) ↔
    ∀ E, Sustained resolver vehicle campaign eligibleUpdates E →
      ∀ n, ¬ TransGen (fun d n ↦ d ∈ E ∧ n ∈ E ∧ d ∈ declaredDependencies resolver campaign n) n n := by
  refine Iff.trans ⟨?_, ?_⟩ (plan_ok_iff_sustained resolver vehicle campaign eligibleUpdates)
  · rintro ⟨p, hp, -⟩
    exact ⟨p, hp⟩
  · rintro ⟨p, hp⟩
    refine ⟨p, hp, ?_⟩
    rintro ⟨n, hcycle⟩
    have herrors : p.blockingErrors ≠ [] :=
      blockingErrors_ne_nil resolver vehicle campaign eligibleUpdates hp fun h ↦ h n hcycle
    have hexecutable : p.executable = false := by
      rwa [DynamicUpdatePlan.executable, List.isEmpty_eq_false_iff]
    refine ⟨herrors, hexecutable, ?_⟩
    rw [planningStep, hp, Except.map, hexecutable]
    rfl

/-- Two eligible ECUs, each of which the campaign lets depend on the other. -/
def circularCampaign : Campaign :=
  { demoCampaign with
    targets := [demoTarget "Gateway ECU" true 1, demoTarget "BCM ECU" true 2]
    dependencyOverrides :=
      Dict.ofPairs [("Gateway ECU", ["BCM ECU"]), ("BCM ECU", ["Gateway ECU"])] }

def circularEligible : List EligibleUpdate :=
  [{ ecu := demoEcu 0x201 "Gateway ECU" "1.0.0", package := demoPackage "Gateway ECU" "gateway_v2.bin" },
   { ecu := demoEcu 0x202 "BCM ECU" "1.0.0", package := demoPackage "BCM ECU" "bcm_v2.bin" }]

theorem planning_raises_cycle :
    (∃ n, TransGen (TargetDependency demoResolver circularCampaign) n n) ∧
      planningStep demoResolver demoVehicle circularCampaign circularEligible =
        .error (.runtimeError "Dependency cycle detected. Update plan cannot be generated.") := by
  have hforward : TargetDependency demoResolver circularCampaign "BCM ECU" "Gateway ECU" :=
    ⟨by decide, by decide, by decide⟩
  have hback : TargetDependency demoResolver circularCampaign "Gateway ECU" "BCM ECU" :=
    ⟨by decide, by decide, by decide⟩
  exact ⟨⟨"BCM ECU", .tail (.single hforward) hback⟩, by rfl⟩

end VehicleOta.Tcu
