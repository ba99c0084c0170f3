import VehicleOta.Tcu.SetOrders
import VehicleOta.Tcu.TopologicalOrder

/-!
# The plan does not depend on the order of its input

Lists and sets that come in another order give the same plan.  Only the discovered ECUs need
care: the planner keeps the last one of each name.
-/

namespace VehicleOta

theorem Dict.get?_ofPairs_perm {κ α : Type} [DecidableEq κ] {pairs pairs' : List (κ × α)}
    (h : pairs.Perm pairs') (hnodup : (pairs.map Prod.fst).Nodup) (key : κ) :
    (Dict.ofPairs pairs).get? key = (Dict.ofPairs pairs').get? key := by
  have hnodup' : (pairs'.map Prod.fst).Nodup := (h.map Prod.fst).nodup_iff.mp hnodup
  apply Option.ext
  intro value
  rw [Dict.get?_eq_some_iff, Dict.get?_eq_some_iff, Dict.ofPairs_entries hnodup,
    Dict.ofPairs_entries hnodup', h.mem_iff]

end VehicleOta

namespace VehicleOta.Tcu

open PruningLogic

/-! ## Sorting -/

theorem sortedNames_eq_of_perm {names names' : List String} (h : names.Perm names') :
    sortedNames names = sortedNames names' := by
  have hperm : (sortedNames names).Perm (sortedNames names') :=
    (List.perm_insertionSort _ names).trans (h.trans (List.perm_insertionSort _ names').symm)
  exact hperm.eq_of_pairwise (fun _ _ _ _ ↦ le_antisymm)
    (List.pairwise_insertionSort _ names) (List.pairwise_insertionSort _ names')

section Priority

variable {priority priority' : Dict String ℤ}

theorem nodeLe_congr (h : ∀ n, priority.get? n = priority'.get? n) :
    nodeLe priority = nodeLe priority' := by
  ext a b
  rw [nodeLe, nodeLe, nodeKey, nodeKey, nodeKey, nodeKey, h a, h b]

/-- The name in the key decides between equal priorities. -/
theorem nodeLe_antisymm {a b : String} (hab : nodeLe priority a b) (hba : nodeLe priority b a) :
    a = b := by
  rcases hab with hlt | ⟨heq, hab⟩
  · rcases hba with hgt | ⟨heq, -⟩
    · exact absurd hgt hlt.asymm
    · exact absurd heq hlt.ne'
  · rcases hba with hgt | ⟨-, hba⟩
    · exact absurd heq hgt.ne'
    · exact le_antisymm hab hba

theorem sortNodes_congr (hpriority : ∀ n, priority.get? n = priority'.get? n)
    {nodes nodes' : List String} (h : nodes.Perm nodes') :
    sortNodes priority nodes = sortNodes priority' nodes' := by
  have hperm : (sortNodes priority nodes).Perm (sortNodes priority' nodes') :=
    (perm_sortNodes priority nodes).trans (h.trans (perm_sortNodes priority' nodes').symm)
  have hsorted := pairwise_sortNodes priority' nodes'
  rw [← nodeLe_congr hpriority] at hsorted
  exact hperm.eq_of_pairwise (fun _ _ _ _ ↦ nodeLe_antisymm) (pairwise_sortNodes priority nodes)
    hsorted

end Priority

/-! ## The topological planner -/

section Graph

variable {g g' : DependencyGraph} {priority priority' : Dict String ℤ}

theorem initialIndegree_congr (hg : g.WellFormed) (hg' : g'.WellFormed)
    (hnodes : g.nodes.Perm g'.nodes) (hchildren : ∀ p, (g.children p).Perm (g'.children p)) :
    initialIndegree g = initialIndegree g' := by
  ext c
  rw [initialIndegree_apply hg, initialIndegree_apply hg', List.toFinset_eq_of_perm _ _ hnodes]
  exact Finset.sum_congr rfl fun p _ ↦ congrArg Nat.cast ((hchildren p).count_eq c)

theorem startState_congr (hg : g.WellFormed) (hg' : g'.WellFormed)
    (hnodes : g.nodes.Perm g'.nodes) (hchildren : ∀ p, (g.children p).Perm (g'.children p))
    (hpriority : ∀ n, priority.get? n = priority'.get? n) :
    startState g priority = startState g' priority' := by
  rw [startState, startState, initialIndegree_congr hg hg' hnodes hchildren,
    sortNodes_congr hpriority hnodes]

/-- The planner sorts the nodes and the children of each node, so that their orders are lost. -/
theorem topologicalPlan_congr (hg : g.WellFormed) (hg' : g'.WellFormed)
    (hnodes : g.nodes.Perm g'.nodes) (hchildren : ∀ p, (g.children p).Perm (g'.children p))
    (hpriority : ∀ n, priority.get? n = priority'.get? n) :
    topologicalPlan g priority = topologicalPlan g' priority' := by
  have hsorted : (fun node ↦ sortNodes priority (g.children node)) =
      fun node ↦ sortNodes priority' (g'.children node) :=
    funext fun node ↦ sortNodes_congr hpriority (hchildren node)
  rw [topologicalPlan, topologicalPlan, hsorted, hnodes.length_eq,
    startState_congr hg hg' hnodes hchildren hpriority]

/-- An empty graph needs no planner. -/
theorem order_planIn (g : DependencyGraph) (priority : Dict String ℤ) :
    (if g.nodes.isEmpty then .ok [] else topologicalPlan g priority) = topologicalPlan g priority := by
  split
  · rename_i hempty
    rw [List.isEmpty_iff] at hempty
    rw [topologicalPlan, hempty]
    rfl
  · rfl

end Graph

section Build

variable {nodes nodes' executable executable' : SetOrder} {edges edges' : String → SetOrder}
  {names names' : List String} {dependencyMap dependencyMap' : Dict String (List String)}

theorem dependenciesAmong_perm (hnames : names.Perm names')
    (hdependencies : ∀ n,
      (dependenciesOf dependencyMap n).Perm (dependenciesOf dependencyMap' n)) (n : String) :
    (dependenciesAmong edges names dependencyMap n).Perm
      (dependenciesAmong edges' names' dependencyMap' n) := by
  have hiterate : ((edges n).iterate (dependenciesOf dependencyMap n)).Perm
      ((edges' n).iterate (dependenciesOf dependencyMap' n)) :=
    ((edges n).perm _).trans ((hdependencies n).trans ((edges' n).perm _).symm)
  have hmem : (fun d ↦ decide (d ∈ names)) = fun d ↦ decide (d ∈ names') :=
    funext fun d ↦ decide_eq_decide.mpr hnames.mem_iff
  rw [dependenciesAmong, dependenciesAmong, hmem]
  exact hiterate.filter _

theorem children_buildGraphIn_perm (hnames : names.Perm names')
    (hdependencies : ∀ n,
      (dependenciesOf dependencyMap n).Perm (dependenciesOf dependencyMap' n)) (p : String) :
    ((buildGraphIn nodes executable edges names dependencyMap).children p).Perm
      ((buildGraphIn nodes' executable' edges' names' dependencyMap').children p) := by
  have hiterate : (executable.iterate names).Perm (executable'.iterate names') :=
    (executable.perm names).trans (hnames.trans (executable'.perm names').symm)
  rw [(extended_buildGraphIn nodes executable edges names dependencyMap).children,
    (extended_buildGraphIn nodes' executable' edges' names' dependencyMap').children]
  refine (hiterate.flatMap fun n _ ↦ ?_).append_left _
  rw [(dependenciesAmong_perm hnames hdependencies n).count_eq]

theorem topologicalPlan_buildGraphIn (hnames : names.Perm names')
    (hdependencies : ∀ n, (dependenciesOf dependencyMap n).Perm (dependenciesOf dependencyMap' n))
    {priority priority' : Dict String ℤ} (hpriority : ∀ n, priority.get? n = priority'.get? n) :
    topologicalPlan (buildGraphIn nodes executable edges names dependencyMap) priority =
      topologicalPlan (buildGraphIn nodes' executable' edges' names' dependencyMap') priority' := by
  have hleft := extended_buildGraphIn nodes executable edges names dependencyMap
  have hright := extended_buildGraphIn nodes' executable' edges' names' dependencyMap'
  refine topologicalPlan_congr hleft.wellFormed hright.wellFormed ?_
    (children_buildGraphIn_perm hnames hdependencies) hpriority
  rw [List.perm_ext_iff_of_nodup hleft.wellFormed.nodup hright.wellFormed.nodup]
  intro c
  rw [hleft.nodes, hright.nodes, hnames.mem_iff]

end Build

/-! ## The loop over blocked targets -/

/-- The policies agree but for the order of the dependencies. -/
structure SamePolicy (policy policy' : ECUDependencyPolicy) : Prop where
  dependencies : policy.dependencies.Perm policy'.dependencies
  criticality : policy.criticality = policy'.criticality
  onUnavailable : policy.onUnavailable = policy'.onUnavailable
  onDependencyFailed : policy.onDependencyFailed = policy'.onDependencyFailed

theorem SamePolicy.refl (policy : ECUDependencyPolicy) : SamePolicy policy policy :=
  ⟨List.Perm.refl _, rfl, rfl, rfl⟩

theorem SamePolicy.unavailableAbortsCampaign {policy policy' : ECUDependencyPolicy}
    (h : SamePolicy policy policy') :
    policy.unavailableAbortsCampaign = policy'.unavailableAbortsCampaign := by
  rw [ECUDependencyPolicy.unavailableAbortsCampaign, h.criticality, h.onUnavailable,
    ← ECUDependencyPolicy.unavailableAbortsCampaign]

theorem SamePolicy.dependencyFailureAbortsCampaign {policy policy' : ECUDependencyPolicy}
    (h : SamePolicy policy policy') :
    policy.dependencyFailureAbortsCampaign = policy'.dependencyFailureAbortsCampaign := by
  rw [ECUDependencyPolicy.dependencyFailureAbortsCampaign, h.criticality, h.onDependencyFailed,
    ← ECUDependencyPolicy.dependencyFailureAbortsCampaign]

/-- The states of the loop agree but for the order of the names and of the errors. -/
structure SameBlocking (s t : BlockingState) : Prop where
  executableNames : s.executableNames.Perm t.executableNames
  classifications : ∀ n, s.classifications.get? n = t.classifications.get? n
  blockingErrors : s.blockingErrors.Perm t.blockingErrors

section Loop

variable {resolver resolver' : DependencyPolicyResolver}
  {dependencyMap dependencyMap' : Dict String (List String)} {satisfied satisfied' : List String}
  {s t : BlockingState}

theorem SameBlocking.missingDependencies (h : SameBlocking s t)
    (hdependencies : ∀ n, (dependenciesOf dependencyMap n).Perm (dependenciesOf dependencyMap' n))
    (hsatisfied : ∀ n, n ∈ satisfied ↔ n ∈ satisfied') (ecuName : String) :
    (missingDependencies dependencyMap satisfied s.executableNames ecuName).Perm
      (missingDependencies dependencyMap' satisfied' t.executableNames ecuName) := by
  have hmissing : (fun d ↦ decide (d ∉ s.executableNames ∧ d ∉ satisfied)) =
      fun d ↦ decide (d ∉ t.executableNames ∧ d ∉ satisfied') := by
    ext d
    rw [decide_eq_decide.mpr (and_congr (not_congr h.executableNames.mem_iff)
      (not_congr (hsatisfied d)))]
  rw [Tcu.missingDependencies, Tcu.missingDependencies, hmissing]
  exact (hdependencies ecuName).filter _

theorem mem_skippedNames (s : BlockingState) (n : String) :
    n ∈ s.skippedNames ↔ ∃ c, s.classifications.get? n = some c ∧ c.isSkipped = true := by
  rw [BlockingState.skippedNames, List.mem_map]
  constructor
  · rintro ⟨e, he, rfl⟩
    obtain ⟨hmem, hskipped⟩ := List.mem_filter.mp he
    exact ⟨e.2, (Dict.get?_eq_some_iff _ _ _).mpr hmem, hskipped⟩
  · rintro ⟨c, hc, hskipped⟩
    exact ⟨(n, c), List.mem_filter.mpr ⟨(Dict.get?_eq_some_iff _ _ _).mp hc, hskipped⟩, rfl⟩

theorem SameBlocking.mem_skippedNames (h : SameBlocking s t) (n : String) :
    n ∈ s.skippedNames ↔ n ∈ t.skippedNames := by
  rw [Tcu.mem_skippedNames, Tcu.mem_skippedNames, h.classifications n]

theorem SameBlocking.blockTarget (h : SameBlocking s t)
    (hpolicies : ∀ n, SamePolicy (resolver.forEcu n) (resolver'.forEcu n))
    (hdependencies : ∀ n, (dependenciesOf dependencyMap n).Perm (dependenciesOf dependencyMap' n))
    (hsatisfied : ∀ n, n ∈ satisfied ↔ n ∈ satisfied') (ecuName : String) :
    SameBlocking (blockTarget resolver dependencyMap satisfied s ecuName)
      (blockTarget resolver' dependencyMap' satisfied' t ecuName) := by
  have hmissing := h.missingDependencies hdependencies hsatisfied ecuName
  have hskipped : (fun d ↦ decide (d ∈ s.skippedNames)) = fun d ↦ decide (d ∈ t.skippedNames) :=
    funext fun d ↦ decide_eq_decide.mpr (h.mem_skippedNames d)
  have hreason := (hmissing.filter fun d ↦ decide (d ∈ t.skippedNames)).isEmpty_eq
  refine ⟨h.executableNames.filter _, fun n ↦ ?_, ?_⟩
  · rw [Tcu.blockTarget, Tcu.blockTarget, Dict.get?_set, Dict.get?_set, h.classifications n,
      hskipped, hreason]
  · rw [Tcu.blockTarget, Tcu.blockTarget, (hpolicies ecuName).dependencyFailureAbortsCampaign,
      sortedNames_eq_of_perm hmissing]
    dsimp only
    split
    · exact h.blockingErrors.append_right _
    · exact h.blockingErrors

/-- A pass looks at the names in their sorted order, so that both states block the same target. -/
theorem SameBlocking.blockingPass (h : SameBlocking s t)
    (hpolicies : ∀ n, SamePolicy (resolver.forEcu n) (resolver'.forEcu n))
    (hdependencies : ∀ n, (dependenciesOf dependencyMap n).Perm (dependenciesOf dependencyMap' n))
    (hsatisfied : ∀ n, n ∈ satisfied ↔ n ∈ satisfied') :
    Option.Rel SameBlocking (blockingPass resolver dependencyMap satisfied s)
      (blockingPass resolver' dependencyMap' satisfied' t) := by
  have hblocked : (fun n ↦
      !(Tcu.missingDependencies dependencyMap satisfied s.executableNames n).isEmpty) = fun n ↦
        !(Tcu.missingDependencies dependencyMap' satisfied' t.executableNames n).isEmpty :=
    funext fun n ↦ congrArg not (h.missingDependencies hdependencies hsatisfied n).isEmpty_eq
  rw [Tcu.blockingPass, Tcu.blockingPass, hblocked, sortedNames_eq_of_perm h.executableNames]
  cases (sortedNames t.executableNames).find? fun n ↦
      !(Tcu.missingDependencies dependencyMap' satisfied' t.executableNames n).isEmpty with
  | none => exact .none
  | some ecuName => exact .some (h.blockTarget hpolicies hdependencies hsatisfied ecuName)

end Loop

/-! ## Input in another order -/

/-- The same input with its targets, ECUs, eligible updates and dependency lists in another order. -/
structure Reordered (resolver resolver' : DependencyPolicyResolver) (vehicle vehicle' : Vehicle)
    (campaign campaign' : Campaign) (eligibleUpdates eligibleUpdates' : List EligibleUpdate) :
    Prop where
  registry : ∀ n, Option.Rel SamePolicy (resolver.ecuRegistry.get? n) (resolver'.ecuRegistry.get? n)
  ecus : vehicle.getAllEcus.Perm vehicle'.getAllEcus
  targets : campaign.targets.Perm campaign'.targets
  dependencyOverrides : ∀ n, Option.Rel List.Perm (campaign.dependencyOverrides.get? n)
    (campaign'.dependencyOverrides.get? n)
  skippedOptionalTargets : campaign.skippedOptionalTargets = campaign'.skippedOptionalTargets
  eligibleUpdates : eligibleUpdates.Perm eligibleUpdates'

/-- The discovered ECUs of one name agree on whether they run the version of the target, wherever
the planner compares it. -/
def OneVersion (vehicle : Vehicle) (campaign : Campaign) (eligibleUpdates : List EligibleUpdate) :
    Prop :=
  ∀ target ∈ campaign.targets, target.ecuName ∉ eligibleNames eligibleUpdates →
    (skippedTargets campaign).get? target.ecuName = none →
      ∀ a ∈ vehicle.getAllEcus, ∀ b ∈ vehicle.getAllEcus,
        a.ecuName = target.ecuName → b.ecuName = target.ecuName →
          versionMatches a.currentVersion target.targetVersion =
            versionMatches b.currentVersion target.targetVersion

section Reordered

variable {resolver resolver' : DependencyPolicyResolver} {vehicle vehicle' : Vehicle}
  {campaign campaign' : Campaign} {eligibleUpdates eligibleUpdates' : List EligibleUpdate}
  (h : Reordered resolver resolver' vehicle vehicle' campaign campaign' eligibleUpdates
    eligibleUpdates')
  (hdistinct : (campaign.targets.map CampaignTarget.ecuName).Nodup)

include h

theorem Reordered.samePolicy (n : String) :
    SamePolicy (resolver.forEcu n) (resolver'.forEcu n) := by
  rw [DependencyPolicyResolver.forEcu, DependencyPolicyResolver.forEcu]
  rcases rel_cases (h.registry n) with ⟨hl, hr⟩ | ⟨policy, policy', hl, hr, hsame⟩
  · rw [hl, hr]
    exact .refl _
  · rw [hl, hr]
    exact hsame

theorem Reordered.mem_eligibleNames (n : String) :
    n ∈ eligibleNames eligibleUpdates ↔ n ∈ eligibleNames eligibleUpdates' :=
  (h.eligibleUpdates.map _).mem_iff

theorem Reordered.skippedTargets : skippedTargets campaign = skippedTargets campaign' := by
  rw [Tcu.skippedTargets, Tcu.skippedTargets, h.skippedOptionalTargets]

include hdistinct

theorem Reordered.get?_targetByName (n : String) :
    (targetByName campaign).get? n = (targetByName campaign').get? n := by
  refine Dict.get?_ofPairs_perm (h.targets.map _) ?_ n
  rwa [List.map_map]

theorem Reordered.get?_targetPriority (n : String) :
    (targetPriority campaign).get? n = (targetPriority campaign').get? n := by
  refine Dict.get?_ofPairs_perm (h.targets.map _) ?_ n
  rwa [List.map_map]

theorem Reordered.nodup : (campaign'.targets.map CampaignTarget.ecuName).Nodup :=
  (h.targets.map _).nodup_iff.mp hdistinct

theorem Reordered.entries_targetByName :
    (targetByName campaign).entries.Perm (targetByName campaign').entries := by
  have hkeys : ((campaign.targets.map fun target ↦ (target.ecuName, target)).map Prod.fst).Nodup := by
    rwa [List.map_map]
  have hkeys' :
      ((campaign'.targets.map fun target ↦ (target.ecuName, target)).map Prod.fst).Nodup := by
    rw [List.map_map]
    exact h.nodup hdistinct
  rw [targetByName, targetByName, Dict.ofPairs_entries hkeys, Dict.ofPairs_entries hkeys']
  exact h.targets.map _

theorem Reordered.dependencies_perm (n : String) :
    (dependenciesOf (resolveDependencies resolver campaign) n).Perm
      (dependenciesOf (resolveDependencies resolver' campaign') n) := by
  rw [dependenciesOf, dependenciesOf, resolveDependencies, resolveDependencies, Dict.get?_mapValues,
    Dict.get?_mapValues, h.get?_targetByName hdistinct n]
  cases (targetByName campaign').get? n with
  | none => exact .refl _
  | some target =>
      dsimp only [Option.map_some, Option.getD_some]
      rcases rel_cases (h.dependencyOverrides n) with
        ⟨hl, hr⟩ | ⟨dependencies, dependencies', hl, hr, hperm⟩
      · rw [hl, hr]
        exact (h.samePolicy n).dependencies.dedup
      · rw [hl, hr]
        exact hperm.dedup

/-! ### Classification -/

omit h hdistinct in
theorem discoveredByName_eq_some {n : String} {ecu : ECU}
    (hecu : (discoveredByName vehicle).get? n = some ecu) :
    ecu ∈ vehicle.getAllEcus ∧ ecu.ecuName = n := by
  obtain ⟨found, hmem, hfound⟩ := List.mem_map.mp (Dict.mem_of_get?_ofPairs hecu)
  obtain ⟨rfl, rfl⟩ := Prod.mk.inj hfound
  exact ⟨hmem, rfl⟩

omit h hdistinct in
theorem discoveredByName_eq_none_iff (n : String) :
    (discoveredByName vehicle).get? n = none ↔ n ∉ vehicle.getAllEcus.map ECU.ecuName := by
  rw [Dict.get?_eq_none_iff, discoveredByName, Dict.mem_keys_ofPairs, List.map_map]
  rfl

omit hdistinct in
theorem Reordered.classifyRemaining (honce : OneVersion vehicle campaign eligibleUpdates)
    {target : CampaignTarget} (htarget : target ∈ campaign.targets)
    (hnot : target.ecuName ∉ eligibleNames eligibleUpdates)
    (hskipped : (Tcu.skippedTargets campaign).get? target.ecuName = none) :
    classifyRemaining resolver vehicle target.ecuName target =
      classifyRemaining resolver' vehicle' target.ecuName target := by
  have hnames : target.ecuName ∈ vehicle.getAllEcus.map ECU.ecuName ↔
      target.ecuName ∈ vehicle'.getAllEcus.map ECU.ecuName := (h.ecus.map _).mem_iff
  unfold Tcu.classifyRemaining
  dsimp only
  rw [(h.samePolicy target.ecuName).unavailableAbortsCampaign]
  cases hl : (discoveredByName vehicle).get? target.ecuName with
  | none =>
      rw [discoveredByName_eq_none_iff, hnames, ← discoveredByName_eq_none_iff] at hl
      rw [hl]
  | some ecu =>
      cases hr : (discoveredByName vehicle').get? target.ecuName with
      | none =>
          rw [discoveredByName_eq_none_iff, ← hnames, ← discoveredByName_eq_none_iff, hl] at hr
          cases hr
      | some ecu' =>
          obtain ⟨hecu, hname⟩ := discoveredByName_eq_some hl
          obtain ⟨hecu', hname'⟩ := discoveredByName_eq_some hr
          have hmatches := honce target htarget hnot hskipped ecu hecu ecu'
            (h.ecus.mem_iff.mpr hecu') hname hname'
          dsimp only
          rw [hmatches]

omit hdistinct in
theorem Reordered.classify (honce : OneVersion vehicle campaign eligibleUpdates)
    {target : CampaignTarget} (htarget : target ∈ campaign.targets) :
    classify resolver vehicle campaign eligibleUpdates target.ecuName target =
      classify resolver' vehicle' campaign' eligibleUpdates' target.ecuName target := by
  unfold Tcu.classify
  rw [← h.skippedTargets]
  by_cases hmem : target.ecuName ∈ eligibleNames eligibleUpdates
  · rw [if_pos hmem, if_pos ((h.mem_eligibleNames _).mp hmem)]
  · rw [if_neg hmem, if_neg fun hmem' ↦ hmem ((h.mem_eligibleNames _).mpr hmem')]
    cases hskipped : (Tcu.skippedTargets campaign).get? target.ecuName with
    | some reason => rfl
    | none => exact h.classifyRemaining honce htarget hmem hskipped

omit h hdistinct in
theorem targetByName_eq_some {n : String} {target : CampaignTarget}
    (htarget : (targetByName campaign).get? n = some target) :
    target ∈ campaign.targets ∧ target.ecuName = n := by
  obtain ⟨found, hmem, hfound⟩ := List.mem_map.mp (Dict.mem_of_get?_ofPairs htarget)
  obtain ⟨rfl, rfl⟩ := Prod.mk.inj hfound
  exact ⟨hmem, rfl⟩

theorem Reordered.initialClassifications (honce : OneVersion vehicle campaign eligibleUpdates)
    (n : String) :
    (initialClassifications resolver vehicle campaign eligibleUpdates).get? n =
      (initialClassifications resolver' vehicle' campaign' eligibleUpdates').get? n := by
  rw [Tcu.initialClassifications, Tcu.initialClassifications, Dict.get?_mapValues,
    Dict.get?_mapValues, ← h.get?_targetByName hdistinct n]
  cases htarget : (targetByName campaign).get? n with
  | none => rfl
  | some target =>
      obtain ⟨hmem, rfl⟩ := targetByName_eq_some htarget
      rw [Option.map_some, Option.map_some, h.classify honce hmem]

theorem Reordered.classificationErrors (honce : OneVersion vehicle campaign eligibleUpdates) :
    (classificationErrors resolver vehicle campaign eligibleUpdates).Perm
      (classificationErrors resolver' vehicle' campaign' eligibleUpdates') := by
  refine (h.entries_targetByName hdistinct).flatMap fun e he ↦ ?_
  obtain ⟨hmem, hname⟩ := targetByName_eq_some ((Dict.get?_eq_some_iff _ _ _).mpr he)
  rw [← hname, h.classify honce hmem]

/-! ### Dependencies -/

theorem Reordered.mem_knownNames (n : String) :
    n ∈ resolver.ecuRegistry.keys ++ (targetByName campaign).keys ↔
      n ∈ resolver'.ecuRegistry.keys ++ (targetByName campaign').keys := by
  have hregistry : n ∈ resolver.ecuRegistry.keys ↔ n ∈ resolver'.ecuRegistry.keys := by
    rw [← Dict.isSome_get?, ← Dict.isSome_get?]
    rcases rel_cases (h.registry n) with ⟨hl, hr⟩ | ⟨policy, policy', hl, hr, -⟩
    · rw [hl, hr]
    · rw [hl, hr]
      simp
  have htargets : n ∈ (targetByName campaign).keys ↔ n ∈ (targetByName campaign').keys := by
    rw [← Dict.isSome_get?, ← Dict.isSome_get?, h.get?_targetByName hdistinct n]
  rw [List.mem_append, List.mem_append, hregistry, htargets]

omit h hdistinct in
/-- The dependencies of a target as an entry of the map. -/
theorem dependenciesOf_of_mem {dependencyMap : Dict String (List String)} {e : String × List String}
    (he : e ∈ dependencyMap.entries) : dependenciesOf dependencyMap e.1 = e.2 := by
  rw [dependenciesOf, (Dict.get?_eq_some_iff _ _ _).mpr he]
  rfl

omit h hdistinct in
theorem unknownDependencyErrorsIn_eq (orders : SetOrders) :
    unknownDependencyErrorsIn orders resolver campaign =
      (targetByName campaign).keys.flatMap fun n ↦
        (((orders.unknown n).iterate (dependenciesOf (resolveDependencies resolver campaign) n)).filter
          fun d ↦ d ∉ resolver.ecuRegistry.keys ++ (targetByName campaign).keys).map
            fun d ↦ s!"{n} depends on unknown ECU: {d}" := by
  have hkeys : (targetByName campaign).keys =
      (resolveDependencies resolver campaign).entries.map Prod.fst := (Dict.keys_mapValues _ _).symm
  rw [unknownDependencyErrorsIn, hkeys, List.flatMap_map]
  refine List.flatMap_congr fun e he ↦ ?_
  rw [dependenciesOf_of_mem he]

variable (orders orders' : SetOrders)

theorem Reordered.unknownDependencyErrorsIn :
    (unknownDependencyErrorsIn orders resolver campaign).Perm
      (unknownDependencyErrorsIn orders' resolver' campaign') := by
  have hknown :
      (fun d ↦ decide (d ∉ resolver.ecuRegistry.keys ++ (targetByName campaign).keys)) =
        fun d ↦ decide (d ∉ resolver'.ecuRegistry.keys ++ (targetByName campaign').keys) :=
    funext fun d ↦ decide_eq_decide.mpr (not_congr (h.mem_knownNames hdistinct d))
  rw [unknownDependencyErrorsIn_eq, unknownDependencyErrorsIn_eq, hknown]
  refine ((h.entries_targetByName hdistinct).map Prod.fst).flatMap fun n _ ↦ ?_
  have hiterate : ((orders.unknown n).iterate
      (dependenciesOf (resolveDependencies resolver campaign) n)).Perm
        ((orders'.unknown n).iterate
          (dependenciesOf (resolveDependencies resolver' campaign') n)) :=
    ((orders.unknown n).perm _).trans
      ((h.dependencies_perm hdistinct n).trans ((orders'.unknown n).perm _).symm)
  exact (hiterate.filter _).map _

theorem Reordered.cycleErrorsIn :
    cycleErrorsIn orders (resolveDependencies resolver campaign) =
      cycleErrorsIn orders' (resolveDependencies resolver' campaign') := by
  have hkeys : (resolveDependencies resolver campaign).keys.Perm
      (resolveDependencies resolver' campaign').keys := by
    rw [resolveDependencies, resolveDependencies, Dict.keys_mapValues, Dict.keys_mapValues]
    exact (h.entries_targetByName hdistinct).map Prod.fst
  rw [Tcu.cycleErrorsIn, Tcu.cycleErrorsIn,
    topologicalPlan_buildGraphIn hkeys (h.dependencies_perm hdistinct) fun _ ↦ rfl]

theorem Reordered.dependencyErrorsIn :
    (dependencyErrorsIn orders resolver campaign).Perm
      (dependencyErrorsIn orders' resolver' campaign') := by
  have hunknown := h.unknownDependencyErrorsIn hdistinct orders orders'
  unfold Tcu.dependencyErrorsIn
  dsimp only
  rw [hunknown.isEmpty_eq, h.cycleErrorsIn hdistinct orders orders']
  split
  · exact .refl _
  · exact hunknown

/-! ### The states around the loop -/

omit h hdistinct in
theorem nodup_namesWith (classifications : Dict String Classification) (c : Classification) :
    (namesWith classifications c).Nodup :=
  (List.filter_sublist.map Prod.fst).nodup classifications.nodup

theorem Reordered.mem_namesWith (honce : OneVersion vehicle campaign eligibleUpdates)
    (c : Classification) (n : String) :
    n ∈ namesWith (Tcu.initialClassifications resolver vehicle campaign eligibleUpdates) c ↔
      n ∈ namesWith
        (Tcu.initialClassifications resolver' vehicle' campaign' eligibleUpdates') c := by
  rw [Tcu.mem_namesWith, Tcu.mem_namesWith, h.initialClassifications hdistinct honce]

theorem Reordered.initialBlockingIn (honce : OneVersion vehicle campaign eligibleUpdates) :
    SameBlocking (initialBlockingIn orders resolver vehicle campaign eligibleUpdates)
      (initialBlockingIn orders' resolver' vehicle' campaign' eligibleUpdates') where
  executableNames := (List.perm_ext_iff_of_nodup (nodup_namesWith _ _) (nodup_namesWith _ _)).mpr
    (h.mem_namesWith hdistinct honce .eligible)
  classifications := h.initialClassifications hdistinct honce
  blockingErrors := (h.classificationErrors hdistinct honce).append
    (h.dependencyErrorsIn hdistinct orders orders')

theorem Reordered.finalBlockingIn (honce : OneVersion vehicle campaign eligibleUpdates) :
    SameBlocking (finalBlockingIn orders resolver vehicle campaign eligibleUpdates)
      (finalBlockingIn orders' resolver' vehicle' campaign' eligibleUpdates') := by
  have hstart := h.initialBlockingIn hdistinct orders orders' honce
  unfold Tcu.finalBlockingIn
  dsimp only
  rw [hstart.executableNames.length_eq]
  refine Pruner.loop_rel (fun s t hst ↦ ?_) _ _ _ hstart
  exact hst.blockingPass h.samePolicy (h.dependencies_perm hdistinct)
    (h.mem_namesWith hdistinct honce .alreadySatisfied)

end Reordered

/-- For every campaign with distinct target names and all orders of the input and of the sets: if
the discovered ECUs of a name agree on its target version, both runs raise the same error, or
both return the same order and classifications, and the same blocking errors up to order. -/
theorem plan_order_independent (orders orders' : SetOrders)
    (resolver resolver' : DependencyPolicyResolver) (vehicle vehicle' : Vehicle)
    (campaign campaign' : Campaign) (eligibleUpdates eligibleUpdates' : List EligibleUpdate)
    (hdistinct : (campaign.targets.map CampaignTarget.ecuName).Nodup)
    (h : Reordered resolver resolver' vehicle vehicle' campaign campaign' eligibleUpdates
      eligibleUpdates')
    (honce : OneVersion vehicle campaign eligibleUpdates) :
    (∃ e, planIn orders resolver vehicle campaign eligibleUpdates = .error e ∧
      planIn orders' resolver' vehicle' campaign' eligibleUpdates' = .error e) ∨
    ∃ p p', planIn orders resolver vehicle campaign eligibleUpdates = .ok p ∧
      planIn orders' resolver' vehicle' campaign' eligibleUpdates' = .ok p' ∧
      p.updateOrder = p'.updateOrder ∧
      (∀ n, p.classifications.get? n = p'.classifications.get? n) ∧
      p.blockingErrors.Perm p'.blockingErrors := by
  have hfinal := h.finalBlockingIn hdistinct orders orders' honce
  have horder := @topologicalPlan_buildGraphIn orders.nodes orders'.nodes orders.executable
    orders'.executable orders.edges orders'.edges _ _ _ _ hfinal.executableNames
    (h.dependencies_perm hdistinct) _ _ (h.get?_targetPriority hdistinct)
  unfold planIn
  dsimp only
  rw [order_planIn, order_planIn, horder]
  cases topologicalPlan (buildGraphIn orders'.nodes orders'.executable orders'.edges
      (finalBlockingIn orders' resolver' vehicle' campaign' eligibleUpdates').executableNames
      (resolveDependencies resolver' campaign')) (targetPriority campaign') with
  | error e => exact Or.inl ⟨e, rfl, rfl⟩
  | ok order =>
      exact Or.inr ⟨_, _, rfl, rfl, rfl, hfinal.classifications, hfinal.blockingErrors⟩

/-! ## Two orders -/

theorem rel_samePolicy_refl (x : Option ECUDependencyPolicy) : Option.Rel SamePolicy x x := by
  cases x with
  | none => exact .none
  | some policy => exact .some (.refl policy)

/-- The demo campaign from its last target to its first, and its vehicle likewise. -/
def backwardCampaign : Campaign := { demoCampaign with targets := demoCampaign.targets.reverse }

def backwardVehicle : Vehicle where
  ecus := Dict.ofPairs demoVehicle.ecus.entries.reverse

def SetOrder.backward : SetOrder := ⟨List.reverse, List.reverse_perm⟩

def SetOrders.backward : SetOrders :=
  ⟨fun _ ↦ .backward, fun _ ↦ .backward, .backward, .backward, fun _ ↦ .backward⟩

theorem reordered_backward : Reordered demoResolver demoResolver demoVehicle backwardVehicle
    demoCampaign backwardCampaign demoEligible demoEligible.reverse where
  registry n := rel_samePolicy_refl _
  ecus := by decide
  targets := (List.reverse_perm demoCampaign.targets).symm
  dependencyOverrides n := .none
  skippedOptionalTargets := rfl
  eligibleUpdates := (List.reverse_perm demoEligible).symm

theorem oneVersion_demo : OneVersion demoVehicle demoCampaign demoEligible := by
  unfold OneVersion
  decide +kernel

theorem plan_order_independent_backward :
    (∃ e, planIn .inserted demoResolver demoVehicle demoCampaign demoEligible = .error e ∧
      planIn .backward demoResolver backwardVehicle backwardCampaign demoEligible.reverse = .error e) ∨
    ∃ p p', planIn .inserted demoResolver demoVehicle demoCampaign demoEligible = .ok p ∧
      planIn .backward demoResolver backwardVehicle backwardCampaign demoEligible.reverse = .ok p' ∧
      p.updateOrder = p'.updateOrder ∧
      (∀ n, p.classifications.get? n = p'.classifications.get? n) ∧
      p.blockingErrors.Perm p'.blockingErrors :=
  plan_order_independent .inserted .backward demoResolver demoResolver demoVehicle backwardVehicle
    demoCampaign backwardCampaign demoEligible demoEligible.reverse (by decide) reordered_backward
    oneVersion_demo

/-- Two discovered ECUs of one name, of which only the second runs the target version. -/
def twinVehicle : Vehicle where
  ecus := Dict.ofPairs [(1, demoEcu 1 "BCM ECU" "1.0.0"), (2, demoEcu 2 "BCM ECU" "2.0.0")]

def swappedVehicle : Vehicle where
  ecus := Dict.ofPairs [(2, demoEcu 2 "BCM ECU" "2.0.0"), (1, demoEcu 1 "BCM ECU" "1.0.0")]

def twinCampaign : Campaign := { demoCampaign with targets := [demoTarget "BCM ECU" true 1] }

theorem reordered_twin : Reordered demoResolver demoResolver twinVehicle swappedVehicle twinCampaign
    twinCampaign [] [] where
  registry n := rel_samePolicy_refl _
  ecus := by decide
  targets := .refl _
  dependencyOverrides n := .none
  skippedOptionalTargets := rfl
  eligibleUpdates := .refl _

theorem plan_depends_on_ecu_order :
    (twinCampaign.targets.map CampaignTarget.ecuName).Nodup ∧
      Reordered demoResolver demoResolver twinVehicle swappedVehicle twinCampaign twinCampaign [] [] ∧
      ∃ p p', plan demoResolver twinVehicle twinCampaign [] = .ok p ∧
        plan demoResolver swappedVehicle twinCampaign [] = .ok p' ∧
        p.classifications.get? "BCM ECU" = some .alreadySatisfied ∧
        p'.classifications.get? "BCM ECU" = some (.abortRequired "NOT_ELIGIBLE") := by
  refine ⟨by decide, reordered_twin, ?_⟩
  have hleft : (plan demoResolver twinVehicle twinCampaign []).toOption.map
      (fun p ↦ p.classifications.get? "BCM ECU") = some (some .alreadySatisfied) := by
    decide +kernel
  have hright : (plan demoResolver swappedVehicle twinCampaign []).toOption.map
      (fun p ↦ p.classifications.get? "BCM ECU") = some (some (.abortRequired "NOT_ELIGIBLE")) := by
    decide +kernel
  cases hp : plan demoResolver twinVehicle twinCampaign [] with
  | error e =>
      rw [hp] at hleft
      cases hleft
  | ok p =>
      cases hp' : plan demoResolver swappedVehicle twinCampaign [] with
      | error e =>
          rw [hp'] at hright
          cases hright
      | ok p' =>
          rw [hp] at hleft
          rw [hp'] at hright
          exact ⟨p, p', rfl, rfl, Option.some.inj hleft, Option.some.inj hright⟩

end VehicleOta.Tcu
