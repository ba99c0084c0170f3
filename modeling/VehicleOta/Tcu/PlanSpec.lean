import VehicleOta.Tcu.DynamicUpdatePlanner

/-!
# The dynamic plan is sound and maximal

The executable targets are the greatest set of eligible ones whose dependencies are executable
or already satisfied, and the update order lists them behind their dependencies.
-/

namespace VehicleOta.Tcu

open PruningLogic KahnLogic

/-! ## The graph of the executable targets -/

section Graph

variable {names : List String} {dependencyMap : Dict String (List String)}

theorem foldl_addNode (names : List String) (g : DependencyGraph) (hg : g.WellFormed) :
    (names.foldl (fun g name ↦ g.addNode name) g).WellFormed ∧
      (∀ c, c ∈ (names.foldl (fun g name ↦ g.addNode name) g).nodes ↔ c ∈ names ∨ c ∈ g.nodes) ∧
      ∀ p, (names.foldl (fun g name ↦ g.addNode name) g).children p = g.children p := by
  induction names generalizing g with
  | nil => exact ⟨hg, by simp, fun _ ↦ rfl⟩
  | cons name names ih =>
      obtain ⟨hwf, hmem, hchildren⟩ := ih (g.addNode name) (hg.addNode name)
      refine ⟨hwf, fun c ↦ ?_, fun p ↦ hchildren p⟩
      rw [List.foldl_cons, hmem, DependencyGraph.mem_nodes_addNode, List.mem_cons]
      tauto

/-- `g` has the nodes `names`, and the edges into the targets of `done`. -/
structure Built (names : List String) (dependencyMap : Dict String (List String))
    (done : List String) (g : DependencyGraph) : Prop where
  wellFormed : g.WellFormed
  mem_nodes : ∀ c, c ∈ g.nodes ↔ c ∈ names
  mem_children : ∀ p c, c ∈ g.children p ↔
    c ∈ done ∧ p ∈ dependenciesOf dependencyMap c ∧ p ∈ names

theorem foldl_addDependency {child : String} (hchild : child ∈ names) (dependencies : List String)
    (hsub : ∀ d ∈ dependencies, d ∈ names) (g : DependencyGraph) (hg : g.WellFormed)
    (hnodes : ∀ c, c ∈ g.nodes ↔ c ∈ names) :
    let g' := dependencies.foldl (fun g dependency ↦ g.addDependency dependency child) g
    g'.WellFormed ∧ (∀ c, c ∈ g'.nodes ↔ c ∈ names) ∧
      ∀ p c, c ∈ g'.children p ↔ c ∈ g.children p ∨ c = child ∧ p ∈ dependencies := by
  induction dependencies generalizing g with
  | nil => exact ⟨hg, hnodes, by simp⟩
  | cons d dependencies ih =>
      have hd : d ∈ names := hsub d List.mem_cons_self
      have hnodes' : ∀ c, c ∈ (g.addDependency d child).nodes ↔ c ∈ names := by
        intro c
        rw [DependencyGraph.mem_nodes_addDependency, hnodes]
        constructor
        · rintro (rfl | rfl | hc)
          · exact hchild
          · exact hd
          · exact hc
        · exact fun hc ↦ Or.inr (Or.inr hc)
      obtain ⟨hwf, hmem, hchildren⟩ := ih (fun e he ↦ hsub e (List.mem_cons_of_mem d he))
        (g.addDependency d child) (hg.addDependency d child) hnodes'
      refine ⟨hwf, hmem, fun p c ↦ ?_⟩
      rw [List.foldl_cons, hchildren, DependencyGraph.children_addDependency, List.mem_cons]
      by_cases hp : p = d
      · rw [if_pos hp, List.mem_append, List.mem_singleton]
        tauto
      · rw [if_neg hp]
        tauto

theorem built_buildGraph (names : List String) (dependencyMap : Dict String (List String)) :
    Built names dependencyMap names (buildGraph names dependencyMap) := by
  obtain ⟨hwf, hmem, hchildren⟩ := foldl_addNode names {} DependencyGraph.wellFormed_empty
  have hstep : ∀ (rest done : List String) (g : DependencyGraph), (∀ n ∈ rest, n ∈ names) →
      Built names dependencyMap done g →
      Built names dependencyMap (done ++ rest) (rest.foldl (fun g name ↦
        ((dependenciesOf dependencyMap name).filter (· ∈ names)).foldl
          (fun g dependency ↦ g.addDependency dependency name) g) g) := by
    intro rest
    induction rest with
    | nil => intro done g _ hg; simpa using hg
    | cons name rest ih =>
        intro done g hsub hg
        obtain ⟨hwf', hmem', hchildren'⟩ := foldl_addDependency
          (hsub name List.mem_cons_self) ((dependenciesOf dependencyMap name).filter (· ∈ names))
          (fun d hd ↦ by simpa using (List.mem_filter.mp hd).2) g hg.wellFormed hg.mem_nodes
        have hnext := ih (done ++ [name]) _ (fun n hn ↦ hsub n (List.mem_cons_of_mem name hn))
          ⟨hwf', hmem', fun p c ↦ by
            rw [hchildren', hg.mem_children, List.mem_append, List.mem_singleton, List.mem_filter,
              decide_eq_true_eq]
            constructor
            · rintro (⟨hc, hp⟩ | ⟨rfl, hp⟩)
              · exact ⟨Or.inl hc, hp⟩
              · exact ⟨Or.inr rfl, hp⟩
            · rintro ⟨hc | rfl, hp⟩
              · exact Or.inl ⟨hc, hp⟩
              · exact Or.inr ⟨rfl, hp⟩⟩
        simpa using hnext
  have hempty : ∀ p, (names.foldl (fun g name ↦ g.addNode name)
      ({} : DependencyGraph)).children p = [] := hchildren
  have hstart : Built names dependencyMap []
      (names.foldl (fun g name ↦ g.addNode name) {}) :=
    ⟨hwf, fun c ↦ by rw [hmem]; simp, fun p c ↦ by rw [hempty]; simp⟩
  simpa [buildGraph] using hstep names [] _ (fun _ h ↦ h) hstart

end Graph

/-! ## The loop over blocked targets -/

section Loop

variable (resolver : DependencyPolicyResolver) (vehicle : Vehicle) (campaign : Campaign)
  (eligibleUpdates : List EligibleUpdate)

theorem mem_namesWith {classifications : Dict String Classification} {c : Classification}
    {ecuName : String} :
    ecuName ∈ namesWith classifications c ↔ classifications.get? ecuName = some c := by
  rw [namesWith, List.mem_map, Dict.get?_eq_some_iff]
  constructor
  · rintro ⟨e, he, rfl⟩
    obtain ⟨hmem, hc⟩ := List.mem_filter.mp he
    have hc : e.2 = c := by simpa using hc
    exact hc ▸ hmem
  · intro h
    exact ⟨(ecuName, c), List.mem_filter.mpr ⟨h, by simp⟩, rfl⟩

/-- What the loop keeps: the classifications are those of the targets, they say which targets
are executable, and the satisfied ones stay. -/
structure LoopInvariant (satisfied : List String) (s : BlockingState) : Prop where
  keys : s.classifications.keys = (targetByName campaign).keys
  executable : ∀ n, s.classifications.get? n = some .eligible ↔ n ∈ s.executableNames
  satisfied : ∀ n, s.classifications.get? n = some .alreadySatisfied ↔ n ∈ satisfied

variable {campaign}

theorem LoopInvariant.blockTarget {satisfied : List String} {s : BlockingState}
    (h : LoopInvariant campaign satisfied s) (dependencyMap : Dict String (List String))
    {ecuName : String} (hmem : ecuName ∈ s.executableNames) :
    LoopInvariant campaign satisfied
      (blockTarget resolver dependencyMap satisfied s ecuName) where
  keys := by
    have hkey : ecuName ∈ s.classifications.keys := by
      rw [← Dict.isSome_get?, (h.executable ecuName).mpr hmem]
      rfl
    rw [Tcu.blockTarget, Dict.keys_set, if_pos hkey]
    exact h.keys
  executable n := by
    rw [Tcu.blockTarget, Dict.get?_set]
    by_cases hn : n = ecuName
    · simp [hn]
    · simp [hn, h.executable n]
  satisfied n := by
    rw [Tcu.blockTarget, Dict.get?_set]
    by_cases hn : n = ecuName
    · subst hn
      have hnot : n ∉ satisfied := fun hs ↦ by
        have := ((h.satisfied n).mpr hs).symm.trans ((h.executable n).mpr hmem)
        simp at this
      simp [hnot]
    · simp [hn, h.satisfied n]

variable (campaign)

/-- The names satisfied from the start. -/
def satisfiedNames : List String :=
  namesWith (initialClassifications resolver vehicle campaign eligibleUpdates) .alreadySatisfied

theorem loopInvariant_finalBlocking :
    LoopInvariant campaign (satisfiedNames resolver vehicle campaign eligibleUpdates)
      (finalBlocking resolver vehicle campaign eligibleUpdates) := by
  refine Pruner.loop_induction (fun s t hst hs ↦ ?_) _ _ ⟨?_, fun n ↦ ?_, fun n ↦ ?_⟩
  · obtain ⟨ecuName, hmem, -, rfl⟩ := blockingPass_eq_some _ _ _ hst
    exact hs.blockTarget resolver _ hmem
  · exact Dict.keys_mapValues _ _
  · exact mem_namesWith.symm
  · exact mem_namesWith.symm

/-- The initially eligible targets. -/
def InitiallyEligible (ecuName : String) : Prop :=
  ecuName ∈ campaign.targets.map CampaignTarget.ecuName ∧ ecuName ∈ eligibleNames eligibleUpdates

theorem mem_keys_targetByName (ecuName : String) :
    ecuName ∈ (targetByName campaign).keys ↔
      ecuName ∈ campaign.targets.map CampaignTarget.ecuName := by
  rw [targetByName, Dict.mem_keys_ofPairs, List.map_map]
  rfl

theorem classify_eq_eligible_iff (ecuName : String) (target : CampaignTarget) :
    (classify resolver vehicle campaign eligibleUpdates ecuName target).1 = .eligible ↔
      ecuName ∈ eligibleNames eligibleUpdates := by
  unfold classify
  split
  · simp [*]
  · rename_i hnot
    simp only [hnot, iff_false]
    split
    · simp
    · unfold classifyRemaining
      dsimp only
      split
      · split_ifs <;> simp
      · split_ifs <;> simp

theorem mem_initial_iff (ecuName : String) :
    ecuName ∈ (initialBlocking resolver vehicle campaign eligibleUpdates).executableNames ↔
      InitiallyEligible campaign eligibleUpdates ecuName := by
  rw [initialBlocking, mem_namesWith, initialClassifications, Dict.get?_mapValues,
    Option.map_eq_some_iff, InitiallyEligible, ← mem_keys_targetByName, ← Dict.isSome_get?,
    Option.isSome_iff_exists]
  simp only [classify_eq_eligible_iff]
  constructor
  · rintro ⟨target, h, hmem⟩
    exact ⟨⟨target, h⟩, hmem⟩
  · rintro ⟨⟨target, h⟩, hmem⟩
    exact ⟨target, h, hmem⟩

/-- The discovered ECU of this name runs the version of its target. -/
def AtTarget (name : String) : Prop :=
  (skippedTargets campaign).get? name = none ∧
    ∃ target ecu, (targetByName campaign).get? name = some target ∧
      (discoveredByName vehicle).get? name = some ecu ∧
      versionMatches ecu.currentVersion target.targetVersion = true

theorem classify_eq_satisfied_iff (name : String) (target : CampaignTarget) :
    (classify resolver vehicle campaign eligibleUpdates name target).1 = .alreadySatisfied ↔
      name ∉ eligibleNames eligibleUpdates ∧ (skippedTargets campaign).get? name = none ∧
        ∃ ecu, (discoveredByName vehicle).get? name = some ecu ∧
          versionMatches ecu.currentVersion target.targetVersion = true := by
  unfold classify
  split
  · rename_i hname
    simp [hname]
  · rename_i hname
    split
    · rename_i reason hskipped
      simp [hskipped]
    · rename_i hskipped
      unfold classifyRemaining
      dsimp only
      split
      · rename_i hecu
        split_ifs <;> simp [hecu]
      · rename_i ecu hecu
        by_cases hmatches : versionMatches ecu.currentVersion target.targetVersion = true
        · simp [hname, hskipped, hecu, hmatches]
        · rw [if_neg hmatches]
          split_ifs <;> simp [hecu, hmatches]

theorem mem_satisfiedNames (name : String) :
    name ∈ satisfiedNames resolver vehicle campaign eligibleUpdates ↔
      name ∉ eligibleNames eligibleUpdates ∧ AtTarget vehicle campaign name := by
  rw [satisfiedNames, mem_namesWith, initialClassifications, Dict.get?_mapValues,
    Option.map_eq_some_iff]
  simp only [classify_eq_satisfied_iff]
  constructor
  · rintro ⟨target, htarget, hnot, hskipped, ecu, hecu, hmatches⟩
    exact ⟨hnot, hskipped, target, ecu, htarget, hecu, hmatches⟩
  · rintro ⟨hnot, hskipped, target, ecu, htarget, hecu, hmatches⟩
    exact ⟨target, htarget, hnot, hskipped, ecu, hecu, hmatches⟩

/-- The names that the loop leaves support each other, and every other such set lies among them. -/
theorem isGreatest_finalBlocking :
    IsGreatest {E : Set String | ∀ n ∈ E, InitiallyEligible campaign eligibleUpdates n ∧
        ∀ d ∈ dependenciesOf (resolveDependencies resolver campaign) n,
          d ∈ E ∨ d ∈ satisfiedNames resolver vehicle campaign eligibleUpdates}
      {n | n ∈ (finalBlocking resolver vehicle campaign eligibleUpdates).executableNames} := by
  let P := blockingPruner resolver (resolveDependencies resolver campaign)
    (satisfiedNames resolver vehicle campaign eligibleUpdates)
  let start := initialBlocking resolver vehicle campaign eligibleUpdates
  constructor
  · intro n hn
    have hinitial : n ∈ (initialBlocking resolver vehicle campaign eligibleUpdates).executableNames :=
      Pruner.loop_subset (P := P) start.executableNames.length start n hn
    refine ⟨(mem_initial_iff ..).mp hinitial, fun d hd ↦ ?_⟩
    exact Pruner.loop_supported (P := P) start.executableNames.length start le_rfl n hn d hd
  · intro E hE n hn
    refine Pruner.loop_greatest (P := P) (S := fun n ↦ n ∈ E) start.executableNames.length start
      (fun m hm ↦ ?_) (fun m hm d hd ↦ (hE m hm).2 d hd) n hn
    exact (mem_initial_iff resolver vehicle campaign eligibleUpdates m).mpr (hE m hm).1

end Loop

/-! ## The plan -/

section Plan

variable {resolver : DependencyPolicyResolver} {vehicle : Vehicle} {campaign : Campaign}
  {eligibleUpdates : List EligibleUpdate} {p : DynamicUpdatePlan}

def DynamicUpdatePlan.dependencies (p : DynamicUpdatePlan) (ecuName : String) : List String :=
  dependenciesOf p.dependencyMap ecuName

/-- Sets of initially eligible targets whose dependencies lie in the set or are satisfied. -/
def SelfSupporting (campaign : Campaign) (eligibleUpdates : List EligibleUpdate)
    (p : DynamicUpdatePlan) : Set (Set String) :=
  {E | ∀ n ∈ E, InitiallyEligible campaign eligibleUpdates n ∧
    ∀ d ∈ p.dependencies n, d ∈ E ∨ p.classifications.get? d = some .alreadySatisfied}

theorem map_eq_ok {α β : Type} {x : Except PyError α} {f : α → β} {b : β} (h : x.map f = .ok b) :
    ∃ a, x = .ok a ∧ f a = b := by
  cases x with
  | error e => cases h
  | ok a => exact ⟨a, rfl, Except.ok.inj h⟩

/-- An empty graph has the empty order, so the test for it in the code changes nothing. -/
theorem plan_eq_map (resolver : DependencyPolicyResolver) (vehicle : Vehicle) (campaign : Campaign)
    (eligibleUpdates : List EligibleUpdate) :
    plan resolver vehicle campaign eligibleUpdates =
      (topologicalPlan
        (buildGraph (finalBlocking resolver vehicle campaign eligibleUpdates).executableNames
          (resolveDependencies resolver campaign)) (targetPriority campaign)).map fun updateOrder ↦
        { updateOrder
          dependencyMap := resolveDependencies resolver campaign
          dependencySources := dependencySources resolver campaign
          classifications :=
            (finalBlocking resolver vehicle campaign eligibleUpdates).classifications
          blockingErrors := (finalBlocking resolver vehicle campaign eligibleUpdates).blockingErrors } := by
  unfold plan
  dsimp only
  split
  · rename_i hempty
    rw [List.isEmpty_iff] at hempty
    rw [topologicalPlan, hempty]
    rfl
  · rfl

/-- A returned plan, and the order behind it. -/
theorem plan_eq_ok (h : plan resolver vehicle campaign eligibleUpdates = .ok p) :
    p.classifications = (finalBlocking resolver vehicle campaign eligibleUpdates).classifications ∧
      p.dependencyMap = resolveDependencies resolver campaign ∧
      p.updateOrder.Nodup ∧
      (∀ n, n ∈ p.updateOrder ↔
        n ∈ (finalBlocking resolver vehicle campaign eligibleUpdates).executableNames) ∧
      ParentsFirst (fun d n ↦ d ∈ p.dependencies n ∧ d ∈ p.updateOrder) p.updateOrder := by
  set names := (finalBlocking resolver vehicle campaign eligibleUpdates).executableNames with hnames
  have hbuilt := built_buildGraph names (resolveDependencies resolver campaign)
  rw [plan_eq_map, ← hnames] at h
  obtain ⟨order, horder, rfl⟩ := map_eq_ok h
  obtain ⟨hnodup, hmem, hparents⟩ := topologicalPlan_ok hbuilt.wellFormed horder
  have hmem' : ∀ n, n ∈ order ↔ n ∈ names := fun n ↦ (hmem n).trans (hbuilt.mem_nodes n)
  refine ⟨rfl, rfl, hnodup, hmem', ?_⟩
  intro before n after heq d hd
  refine hparents before n after heq d ((hbuilt.mem_children d n).mpr ⟨?_, hd.1, ?_⟩)
  · have horder : order = before ++ n :: after := heq
    exact (hmem' n).mp (by rw [horder]; simp)
  · exact (hmem' d).mp hd.2

theorem mem_updateOrder_iff (h : plan resolver vehicle campaign eligibleUpdates = .ok p)
    (n : String) : n ∈ p.updateOrder ↔ p.classifications.get? n = some .eligible := by
  obtain ⟨hclass, -, -, hmem, -⟩ := plan_eq_ok h
  rw [hmem, hclass]
  exact ((loopInvariant_finalBlocking resolver vehicle campaign eligibleUpdates).executable n).symm

/-- The executable targets support each other, and every other such set lies among them. -/
theorem isGreatest_updateOrder (h : plan resolver vehicle campaign eligibleUpdates = .ok p) :
    IsGreatest (SelfSupporting campaign eligibleUpdates p) {n | n ∈ p.updateOrder} := by
  obtain ⟨hclass, hmap, -, hmem, -⟩ := plan_eq_ok h
  have hsatisfied : ∀ d, p.classifications.get? d = some .alreadySatisfied ↔
      d ∈ satisfiedNames resolver vehicle campaign eligibleUpdates := fun d ↦ by
    rw [hclass]
    exact (loopInvariant_finalBlocking resolver vehicle campaign eligibleUpdates).satisfied d
  have hgreatest := isGreatest_finalBlocking resolver vehicle campaign eligibleUpdates
  simp only [← hmem, ← hsatisfied, ← hmap] at hgreatest
  exact hgreatest

/-- Every returned plan: the order has no duplicates and lists exactly the targets classified
as eligible, these are the greatest self-supporting set, dependencies come first, and every
target of the campaign has exactly one classification. -/
theorem plan_sound_and_maximal (resolver : DependencyPolicyResolver) (vehicle : Vehicle)
    (campaign : Campaign) (eligibleUpdates : List EligibleUpdate) (p : DynamicUpdatePlan)
    (hdistinct : (campaign.targets.map CampaignTarget.ecuName).Nodup)
    (h : plan resolver vehicle campaign eligibleUpdates = .ok p) :
    p.updateOrder.Nodup ∧
      (∀ n, n ∈ p.updateOrder ↔ p.classifications.get? n = some .eligible) ∧
      IsGreatest (SelfSupporting campaign eligibleUpdates p) {n | n ∈ p.updateOrder} ∧
      (∀ before n after, p.updateOrder = before ++ n :: after →
        ∀ d ∈ p.dependencies n, d ∈ p.updateOrder → d ∈ before) ∧
      p.classifications.keys = campaign.targets.map CampaignTarget.ecuName ∧
      ∀ target ∈ campaign.targets, ∃! c, (target.ecuName, c) ∈ p.classifications.entries := by
  obtain ⟨hclass, -, hnodup, -, hparents⟩ := plan_eq_ok h
  have hkeys : p.classifications.keys = campaign.targets.map CampaignTarget.ecuName := by
    rw [hclass, (loopInvariant_finalBlocking resolver vehicle campaign eligibleUpdates).keys,
      targetByName, Dict.keys, Dict.ofPairs_entries, List.map_map]
    · rfl
    · rw [List.map_map]
      exact hdistinct
  refine ⟨hnodup, mem_updateOrder_iff h, isGreatest_updateOrder h, ?_, hkeys, ?_⟩
  · exact fun before n after heq d hd hmem ↦ hparents before n after heq d ⟨hd, hmem⟩
  · intro target htarget
    have hkey : target.ecuName ∈ p.classifications.keys := by
      rw [hkeys]
      exact List.mem_map_of_mem htarget
    obtain ⟨c, hc⟩ := Option.isSome_iff_exists.mp ((Dict.isSome_get? _ _).mpr hkey)
    refine ⟨c, (Dict.get?_eq_some_iff _ _ _).mp hc, fun c' hc' ↦ ?_⟩
    exact Option.some.inj (((Dict.get?_eq_some_iff _ _ _).mpr hc').symm.trans hc)

end Plan

/-! ## The demo vehicle with an updated gateway -/

def demoResolver : DependencyPolicyResolver where
  ecuRegistry := Dict.ofPairs
    [("Gateway ECU", { criticality := "critical" }),
     ("BCM ECU", { dependencies := ["Gateway ECU"], criticality := "critical" }),
     ("Cluster ECU", { dependencies := ["BCM ECU"] })]

def demoEcu (ecuId : ℕ) (ecuName currentVersion : String) : ECU :=
  { ecuId, ecuName, currentVersion, transport := "VCAN" }

def demoVehicle : Vehicle where
  ecus := Dict.ofPairs
    [(0x201, demoEcu 0x201 "Gateway ECU" "2.0.0"), (0x202, demoEcu 0x202 "BCM ECU" "1.0.0"),
     (0x203, demoEcu 0x203 "Cluster ECU" "1.0.0")]

def demoTarget (ecuName : String) (mandatory : Bool) (priority : ℤ) : CampaignTarget :=
  { ecuName, mandatory, priority, targetVersion := "2.0.0", minimumSupportedVersion := "1.0.0",
    hardwareVariant := "GENERIC", minimumBootloader := "1.0.0" }

def demoCampaign : Campaign where
  releaseVersion := "2.0.0"
  transport := "VCAN"
  targets := [demoTarget "Cluster ECU" false 3, demoTarget "Gateway ECU" true 1,
    demoTarget "BCM ECU" true 2]

def demoPackage (ecuName file : String) : Package :=
  { ecuName, file, hardwareVariant := "GENERIC", targetVersion := "2.0.0",
    minimumBootloader := "1.0.0", transport := some "VCAN" }

def demoEligible : List EligibleUpdate :=
  [{ ecu := demoEcu 0x203 "Cluster ECU" "1.0.0", package := demoPackage "Cluster ECU" "cluster_v2.bin" },
   { ecu := demoEcu 0x202 "BCM ECU" "1.0.0", package := demoPackage "BCM ECU" "bcm_v2.bin" }]

theorem exists_demoPlan : ∃ p, plan demoResolver demoVehicle demoCampaign demoEligible = .ok p ∧
    p.updateOrder = ["BCM ECU", "Cluster ECU"] ∧ p.executable := by
  have h : (plan demoResolver demoVehicle demoCampaign demoEligible).toOption.map
      (fun p ↦ (p.updateOrder, p.executable)) = some (["BCM ECU", "Cluster ECU"], true) := by
    decide +kernel
  cases hp : plan demoResolver demoVehicle demoCampaign demoEligible with
  | error e => simp [hp, Except.toOption] at h
  | ok p => exact ⟨p, rfl, by simpa [hp, Except.toOption] using h⟩

theorem plan_sound_and_maximal_demo : ∃ p, p.updateOrder = ["BCM ECU", "Cluster ECU"] ∧
    IsGreatest (SelfSupporting demoCampaign demoEligible p) {n | n ∈ p.updateOrder} := by
  obtain ⟨p, hp, horder, -⟩ := exists_demoPlan
  exact ⟨p, horder, (plan_sound_and_maximal demoResolver demoVehicle demoCampaign demoEligible p
    (by decide) hp).2.2.1⟩

end VehicleOta.Tcu
