import VehicleOta.Tcu.SkippedTargets

/-!
# The version of the campaign

An ECU is flashed with the first package of its name, and the campaign expects the version of
its target.  Nothing between the two compares these versions.
-/

namespace VehicleOta.Tcu

open FirmwareCompatibilityValidator

section Inputs

variable (resolver : DependencyPolicyResolver) (vehicle : Vehicle) (campaign : Campaign)
  (manifest : Manifest) (files : String → Option Bytes) (requireDownloadedFiles : Bool)
  (targetNames : List String)

/-- An ECU of this name is selected, approved and can take its package. -/
def Installable (name : String) : Prop :=
  ∃ ecu ∈ vehicle.getAllEcus, ecu.ecuName = name ∧ admitted campaign targetNames ecu = true ∧
    ∃ entry, checkPackage manifest files requireDownloadedFiles campaign ecu = .ok (some entry)

/-- The target belongs to a set of installable targets whose dependencies lie in the set or are
at their own targets. -/
def Planned (name : String) : Prop :=
  ∃ E : Set String, name ∈ E ∧ ∀ n ∈ E,
    n ∈ campaign.targets.map CampaignTarget.ecuName ∧
    Installable vehicle campaign manifest files requireDownloadedFiles targetNames n ∧
    ∀ d ∈ dependenciesOf (resolveDependencies resolver campaign) n, d ∈ E ∨
      ¬ Installable vehicle campaign manifest files requireDownloadedFiles targetNames d ∧
        AtTarget vehicle campaign d

/-- The manifest carries the version that the campaign gives to the ECU. -/
def CarriesTarget (name : String) : Prop :=
  ∀ package target, (manifest.packages.find? fun package ↦ package.ecuName = name) = some package →
    (targetByName campaign).get? name = some target →
    versionEq package.targetVersion target.targetVersion = .ok true

end Inputs

/-- Every ECU in the order has a target, and its entries have packages of that version. -/
def FlashesTargets (campaign : Campaign) (eligible : List EligibleUpdate) (p : DynamicUpdatePlan) :
    Prop :=
  ∀ name ∈ p.updateOrder, ∃ target, (targetByName campaign).get? name = some target ∧
    (∃ entry ∈ eligible, entry.ecu.ecuName = name) ∧
    ∀ entry ∈ eligible, entry.ecu.ecuName = name →
      versionEq entry.package.targetVersion target.targetVersion = .ok true

section Plan

variable {resolver : DependencyPolicyResolver} {vehicle : Vehicle} {campaign : Campaign}
  {manifest : Manifest} {files : String → Option Bytes} {requireDownloadedFiles : Bool}
  {targetNames : List String} {eligible : List EligibleUpdate} {p : DynamicUpdatePlan}

theorem mem_satisfiedNames_iff
    (heligible : validate manifest files requireDownloadedFiles campaign vehicle targetNames =
      .ok eligible) (name : String) :
    name ∈ satisfiedNames resolver vehicle campaign eligible ↔
      ¬ Installable vehicle campaign manifest files requireDownloadedFiles targetNames name ∧
        AtTarget vehicle campaign name := by
  rw [mem_satisfiedNames, mem_eligibleNames_iff heligible]
  exact Iff.rfl

/-- The update order in terms of the inputs. -/
theorem mem_updateOrder_iff_planned
    (heligible : validate manifest files requireDownloadedFiles campaign vehicle targetNames =
      .ok eligible) (hplan : plan resolver vehicle campaign eligible = .ok p) (name : String) :
    name ∈ p.updateOrder ↔ Planned resolver vehicle campaign manifest files requireDownloadedFiles
      targetNames name := by
  obtain ⟨hclass, hmap, -, -, -⟩ := plan_eq_ok hplan
  obtain ⟨hself, hgreatest⟩ := isGreatest_updateOrder hplan
  have hsatisfied : ∀ d, p.classifications.get? d = some .alreadySatisfied ↔
      ¬ Installable vehicle campaign manifest files requireDownloadedFiles targetNames d ∧
        AtTarget vehicle campaign d := by
    intro d
    rw [hclass, ← mem_satisfiedNames_iff heligible]
    exact (loopInvariant_finalBlocking resolver vehicle campaign eligible).satisfied d
  have hdependencies : ∀ n, p.dependencies n =
      dependenciesOf (resolveDependencies resolver campaign) n := by
    intro n
    rw [DynamicUpdatePlan.dependencies, hmap]
  constructor
  · intro hname
    refine ⟨{n | n ∈ p.updateOrder}, hname, fun n hn ↦ ?_⟩
    obtain ⟨⟨htarget, hinstallable⟩, hdeps⟩ := hself n hn
    refine ⟨htarget, (mem_eligibleNames_iff heligible n).mp hinstallable, fun d hd ↦ ?_⟩
    rw [← hsatisfied]
    exact hdeps d (by rwa [hdependencies])
  · rintro ⟨E, hname, hE⟩
    refine hgreatest (a := E) (fun n hn ↦ ?_) hname
    obtain ⟨htarget, hinstallable, hdeps⟩ := hE n hn
    refine ⟨⟨htarget, (mem_eligibleNames_iff heligible n).mpr hinstallable⟩, fun d hd ↦ ?_⟩
    rw [hsatisfied]
    exact hdeps d (by rwa [← hdependencies])

theorem package_of_mem_eligible
    (heligible : validate manifest files requireDownloadedFiles campaign vehicle targetNames =
      .ok eligible) {entry : EligibleUpdate} (hentry : entry ∈ eligible) :
    (manifest.packages.find? fun package ↦ package.ecuName = entry.ecu.ecuName) =
      some entry.package := by
  rcases (foldlM_checkEcu heligible entry).mp hentry with hnone | ⟨ecu, -, -, hcheck⟩
  · exact absurd hnone List.not_mem_nil
  · obtain ⟨hecu, hfind⟩ := checkPackage_entry hcheck
    rw [hecu]
    exact hfind

end Plan

/-- The campaign's versions are flashed exactly if the manifest carries them for every target
that is planned. -/
theorem flashes_targets_iff (resolver : DependencyPolicyResolver) (vehicle : Vehicle)
    (campaign : Campaign) (manifest : Manifest) (files : String → Option Bytes)
    (requireDownloadedFiles : Bool) (targetNames : List String) (eligible : List EligibleUpdate)
    (p : DynamicUpdatePlan)
    (heligible : validate manifest files requireDownloadedFiles campaign vehicle targetNames =
      .ok eligible) (hplan : plan resolver vehicle campaign eligible = .ok p) :
    FlashesTargets campaign eligible p ↔
      ∀ name, Planned resolver vehicle campaign manifest files requireDownloadedFiles targetNames
        name → CarriesTarget campaign manifest name := by
  constructor
  · intro h name hplanned package target hfind htarget
    obtain ⟨target', htarget', ⟨entry, hentry, rfl⟩, hall⟩ :=
      h name ((mem_updateOrder_iff_planned heligible hplan name).mpr hplanned)
    obtain rfl := Option.some.inj (htarget'.symm.trans htarget)
    obtain rfl := Option.some.inj ((package_of_mem_eligible heligible hentry).symm.trans hfind)
    exact hall entry hentry rfl
  · intro h name hname
    have hinitial := ((isGreatest_updateOrder hplan).1 name hname).1
    obtain ⟨entry, hentry, hentryName⟩ := List.mem_map.mp hinitial.2
    obtain ⟨target, htarget⟩ := Option.isSome_iff_exists.mp ((Dict.isSome_get? _ _).mpr
      ((mem_keys_targetByName campaign name).mpr hinitial.1))
    refine ⟨target, htarget, ⟨entry, hentry, hentryName⟩, fun entry hentry hentryName ↦ ?_⟩
    have hfind := package_of_mem_eligible heligible hentry
    rw [hentryName] at hfind
    exact h name ((mem_updateOrder_iff_planned heligible hplan name).mp hname) _ target hfind
      htarget

/-! ## A release behind the campaign -/

/-- The trusted manifest of a later release than the campaign names. -/
def hotfixManifest : Manifest where
  releaseVersion := "2.1.0"
  packages := [{ demoPackage "Cluster ECU" "cluster_v2.bin" with targetVersion := "2.1.0" }]
  trustedTargets := Dict.ofPairs [("cluster_v2.bin", {
    length := 176
    sha256 := ""
    custom := ⟨some "Cluster ECU", some "GENERIC", some "2.1.0"⟩ })]

/-- The versions in the eligible list, and the update order. -/
def hotfixRun : Except PyError (List (String × String) × List String) := do
  let eligible ← validate hotfixManifest (fun _ ↦ none) false clusterCampaign clusterVehicle []
  let p ← plan demoResolver clusterVehicle clusterCampaign eligible
  return (eligible.map fun entry ↦ (entry.ecu.ecuName, entry.package.targetVersion), p.updateOrder)

theorem hotfixRun_eq : hotfixRun.toOption =
    some ([("Cluster ECU", "2.1.0")], ["Cluster ECU"]) := by
  decide +kernel

theorem exists_hotfixStages : ∃ eligible p,
    validate hotfixManifest (fun _ ↦ none) false clusterCampaign clusterVehicle [] = .ok eligible ∧
    plan demoResolver clusterVehicle clusterCampaign eligible = .ok p ∧
    ¬ FlashesTargets clusterCampaign eligible p := by
  have hrun := hotfixRun_eq
  unfold hotfixRun at hrun
  cases heligible : validate hotfixManifest (fun _ ↦ none) false clusterCampaign clusterVehicle []
    with
  | error e =>
      rw [heligible] at hrun
      cases hrun
  | ok eligible =>
      rw [heligible] at hrun
      simp only [bind, Except.bind] at hrun
      cases hplan : plan demoResolver clusterVehicle clusterCampaign eligible with
      | error e =>
          rw [hplan] at hrun
          cases hrun
      | ok p =>
          rw [hplan] at hrun
          simp only [pure, Except.pure, Except.toOption, Option.some.injEq, Prod.mk.injEq] at hrun
          obtain ⟨hversions, horder⟩ := hrun
          refine ⟨eligible, p, rfl, hplan, fun hflashes ↦ ?_⟩
          obtain ⟨target, htarget, ⟨entry, hentry, hname⟩, hall⟩ :=
            hflashes "Cluster ECU" (by simp [horder])
          have hentry' := List.mem_map_of_mem (f := fun entry : EligibleUpdate ↦
            (entry.ecu.ecuName, entry.package.targetVersion)) hentry
          rw [hversions, List.mem_singleton, Prod.mk.injEq] at hentry'
          have heq := hall entry hentry hname
          rw [hentry'.2] at heq
          have htarget' : (targetByName clusterCampaign).get? "Cluster ECU" =
              some { demoTarget "Cluster ECU" false 3 with minimumSupportedVersion := "1.5.0" } := by
            rfl
          obtain rfl := Option.some.inj (htarget'.symm.trans htarget)
          exact absurd heq (by decide +kernel)

/-- The cluster is flashed with 2.1.0 for the target version 2.0.0. -/
theorem hotfix_flashed_for_target :
    ¬ ∀ resolver vehicle campaign manifest files requireDownloadedFiles targetNames eligible p,
      validate manifest files requireDownloadedFiles campaign vehicle targetNames = .ok eligible →
      plan resolver vehicle campaign eligible = .ok p → FlashesTargets campaign eligible p := by
  intro hclaim
  obtain ⟨eligible, p, heligible, hplan, hnot⟩ := exists_hotfixStages
  exact hnot (hclaim _ _ _ _ _ _ _ _ _ heligible hplan)

theorem flashes_targets_hotfix :
    ¬ ∀ name, Planned demoResolver clusterVehicle clusterCampaign hotfixManifest (fun _ ↦ none) false
      [] name → CarriesTarget clusterCampaign hotfixManifest name := by
  intro hcarries
  obtain ⟨eligible, p, heligible, hplan, hnot⟩ := exists_hotfixStages
  exact hnot ((flashes_targets_iff demoResolver clusterVehicle clusterCampaign hotfixManifest
    (fun _ ↦ none) false [] eligible p heligible hplan).mpr hcarries)

end VehicleOta.Tcu
