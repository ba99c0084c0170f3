import VehicleOta.Tcu.CompatibilityValidator
import VehicleOta.Tcu.FirmwareCompatibility
import VehicleOta.Tcu.PlanSpec

/-!
# Skipped targets in the plan

An empty list of approved targets filters no ECU.  So a skipped target is planned where the
campaign approved no target at all, and where it approved another target of the same name, if
the package of the ECU passes its own checks.
-/

namespace VehicleOta.Tcu

namespace FirmwareCompatibilityValidator

/-! ## The eligible list -/

variable {manifest : Manifest} {files : String → Option Bytes} {requireDownloadedFiles : Bool}
  {campaign : Campaign} {targetNames : List String} {ecu : ECU}

/-- An entry has the first package of its ECU. -/
theorem checkPackage_entry {entry : EligibleUpdate}
    (h : checkPackage manifest files requireDownloadedFiles campaign ecu = .ok (some entry)) :
    entry.ecu = ecu ∧ (manifest.packages.find? fun package ↦ package.ecuName = ecu.ecuName) =
      some entry.package := by
  unfold checkPackage at h
  split at h
  · cases h
  rename_i package hfind
  split at h
  · cases h
  rename_i trusted _
  split at h
  · cases h
  cases hsize : artifactSize manifest files requireDownloadedFiles package trusted with
  | error e =>
      rw [hsize] at h
      cases h
  | ok size =>
      rw [hsize] at h
      cases size with
      | none => cases h
      | some size =>
          cases haccepts : ecuAccepts campaign ecu package with
          | error e =>
              rw [haccepts] at h
              cases h
          | ok accepts =>
              rw [haccepts] at h
              simp only [bind, Except.bind, pure, Except.pure] at h
              split at h
              · cases h
              split at h
              · cases h
              rw [← Option.some.inj (Except.ok.inj h)]
              exact ⟨rfl, hfind⟩

theorem checkPackage_ecu {entry : EligibleUpdate}
    (h : checkPackage manifest files requireDownloadedFiles campaign ecu = .ok (some entry)) :
    entry.ecu = ecu :=
  (checkPackage_entry h).1

/-- One lemma for the loop. -/
theorem foldlM_checkEcu {ecus : List ECU} {before eligible : List EligibleUpdate}
    (h : ecus.foldlM (checkEcu manifest files requireDownloadedFiles campaign targetNames) before =
      .ok eligible) (entry : EligibleUpdate) :
    entry ∈ eligible ↔ entry ∈ before ∨ ∃ ecu ∈ ecus, admitted campaign targetNames ecu = true ∧
      checkPackage manifest files requireDownloadedFiles campaign ecu = .ok (some entry) := by
  induction ecus generalizing before with
  | nil =>
      obtain rfl := Except.ok.inj h
      simp
  | cons ecu ecus ih =>
      rw [List.foldlM_cons] at h
      cases hadmitted : admitted campaign targetNames ecu with
      | false =>
          have hstep : checkEcu manifest files requireDownloadedFiles campaign targetNames before
              ecu = .ok before := by
            rw [checkEcu, hadmitted]
            rfl
          rw [hstep] at h
          rw [ih h]
          simp [hadmitted]
      | true =>
          unfold checkEcu at h
          rw [hadmitted] at h
          cases hcheck : checkPackage manifest files requireDownloadedFiles campaign ecu with
          | error e =>
              rw [hcheck] at h
              cases h
          | ok found =>
              rw [hcheck] at h
              cases found with
              | none =>
                  have h := ih h
                  rw [h]
                  simp [hcheck]
              | some found =>
                  have h := ih h
                  rw [h, List.mem_append, List.mem_singleton, or_assoc, @eq_comm _ entry found]
                  simp only [List.mem_cons, exists_eq_or_imp, hadmitted, hcheck, true_and,
                    Except.ok.injEq, Option.some.injEq]

theorem mem_eligibleNames_iff {vehicle : Vehicle} {eligible : List EligibleUpdate}
    (h : validate manifest files requireDownloadedFiles campaign vehicle targetNames = .ok eligible)
    (name : String) :
    name ∈ eligibleNames eligible ↔ ∃ ecu ∈ vehicle.getAllEcus, ecu.ecuName = name ∧
      admitted campaign targetNames ecu = true ∧
      ∃ entry, checkPackage manifest files requireDownloadedFiles campaign ecu =
        .ok (some entry) := by
  rw [eligibleNames, List.mem_map]
  constructor
  · rintro ⟨entry, hentry, rfl⟩
    rcases (foldlM_checkEcu h entry).mp hentry with hnone | ⟨ecu, hecu, hadmitted, hcheck⟩
    · exact absurd hnone List.not_mem_nil
    · exact ⟨ecu, hecu, by rw [checkPackage_ecu hcheck], hadmitted, entry, hcheck⟩
  · rintro ⟨ecu, hecu, rfl, hadmitted, entry, hcheck⟩
    exact ⟨entry, (foldlM_checkEcu h entry).mpr (Or.inr ⟨ecu, hecu, hadmitted, hcheck⟩),
      by rw [checkPackage_ecu hcheck]⟩

/-- Only the transport of the campaign matters to the package checks. -/
theorem checkPackage_decided (approved : List String) (skipped : List (String × String)) :
    checkPackage manifest files requireDownloadedFiles
      { campaign with approvedTargets := approved, skippedOptionalTargets := skipped } ecu =
    checkPackage manifest files requireDownloadedFiles campaign ecu := rfl

end FirmwareCompatibilityValidator

open FirmwareCompatibilityValidator

/-! ## Behind the two validators -/

variable {resolver : DependencyPolicyResolver} {vehicle : Vehicle} {campaign decided : Campaign}
  {eligible : List EligibleUpdate} {name : String}

/-- An ECU of this name is selected and passes the checks on its package. -/
def PackageAccepted (manifest : Manifest) (files : String → Option Bytes)
    (requireDownloadedFiles : Bool) (vehicle : Vehicle) (campaign : Campaign)
    (targetNames : List String) (name : String) : Prop :=
  ∃ ecu ∈ vehicle.getAllEcus, ecu.ecuName = name ∧
    (selectedTargets targetNames = [] ∨ name ∈ selectedTargets targetNames) ∧
    ∃ entry, checkPackage manifest files requireDownloadedFiles campaign ecu = .ok (some entry)

theorem eligible_iff {result : Bool} {manifest : Manifest} {files : String → Option Bytes}
    {requireDownloadedFiles : Bool} {targetNames : List String}
    (hdecided : CompatibilityValidator.validate resolver vehicle campaign = .ok (result, decided))
    (heligible : FirmwareCompatibilityValidator.validate manifest files requireDownloadedFiles
      decided vehicle targetNames = .ok eligible) :
    name ∈ eligibleNames eligible ↔
      PackageAccepted manifest files requireDownloadedFiles vehicle campaign targetNames name ∧
        ((∀ target ∈ campaign.targets, ¬ CompatibilityValidator.Passes vehicle campaign target) ∨
          ∃ target ∈ campaign.targets, target.ecuName = name ∧
            CompatibilityValidator.Passes vehicle campaign target) := by
  obtain ⟨⟨approved, skipped, hcampaign⟩, happroved, -⟩ :=
    CompatibilityValidator.validate_ok hdecided
  have hempty : decided.approvedTargets = [] ↔
      ∀ target ∈ campaign.targets, ¬ CompatibilityValidator.Passes vehicle campaign target := by
    rw [List.eq_nil_iff_forall_not_mem]
    constructor
    · exact fun h target htarget hpasses ↦
        h target.ecuName ((happroved _).mpr ⟨target, htarget, rfl, hpasses⟩)
    · intro h name hname
      obtain ⟨target, htarget, -, hpasses⟩ := (happroved name).mp hname
      exact h target htarget hpasses
  have hpackage : ∀ ecu, checkPackage manifest files requireDownloadedFiles decided ecu =
      checkPackage manifest files requireDownloadedFiles campaign ecu := by
    intro ecu
    rw [hcampaign, checkPackage_decided]
  rw [mem_eligibleNames_iff heligible, ← hempty, ← happroved name]
  simp only [admitted, decide_eq_true_eq, hpackage, PackageAccepted]
  constructor
  · rintro ⟨ecu, hecu, rfl, ⟨hselected, hallowed⟩, hentry⟩
    exact ⟨⟨ecu, hecu, rfl, hselected, hentry⟩, hallowed⟩
  · rintro ⟨⟨ecu, hecu, rfl, hselected, hentry⟩, hallowed⟩
    exact ⟨ecu, hecu, rfl, ⟨hselected, hallowed⟩, hentry⟩

/-- What is not eligible is not in the update order. -/
theorem not_mem_updateOrder {p : DynamicUpdatePlan}
    (h : plan resolver vehicle campaign eligible = .ok p) (hname : name ∉ eligibleNames eligible) :
    name ∉ p.updateOrder :=
  fun hmem ↦ hname ((isGreatest_updateOrder h).1 name hmem).1.2

/-- A target that the campaign skips stays out of the eligible list and of the update order
exactly where its package is refused, or another target was approved and none of its name. -/
theorem skipped_not_flashed_iff (resolver : DependencyPolicyResolver) (vehicle : Vehicle)
    (campaign decided : Campaign) (manifest : Manifest) (files : String → Option Bytes)
    (requireDownloadedFiles : Bool) (targetNames : List String) (eligible : List EligibleUpdate)
    (hdecided : CompatibilityValidator.validate resolver vehicle campaign = .ok (true, decided))
    (heligible : FirmwareCompatibilityValidator.validate manifest files requireDownloadedFiles
      decided vehicle targetNames = .ok eligible) :
    (∀ name reason, (name, reason) ∈ decided.skippedOptionalTargets →
      (name ∉ eligibleNames eligible ∧
        ∀ p, plan resolver vehicle decided eligible = .ok p → name ∉ p.updateOrder)) ↔
    ∀ skipped ∈ campaign.targets,
      (∃ reason, CompatibilityValidator.checkTarget resolver vehicle campaign skipped =
        .ok (.skipped reason)) →
      PackageAccepted manifest files requireDownloadedFiles vehicle campaign targetNames
        skipped.ecuName →
      (∃ target ∈ campaign.targets, CompatibilityValidator.Passes vehicle campaign target) ∧
        ∀ target ∈ campaign.targets, target.ecuName = skipped.ecuName →
          ¬ CompatibilityValidator.Passes vehicle campaign target := by
  obtain ⟨-, -, hskipped⟩ := CompatibilityValidator.validate_ok hdecided
  have hiff : ∀ name, name ∈ eligibleNames eligible ↔ _ := fun _ ↦ eligible_iff hdecided heligible
  constructor
  · rintro h skipped htarget ⟨reason, hcheck⟩ hpackage
    have hout := (h skipped.ecuName reason
      ((hskipped _ _).mpr ⟨skipped, htarget, rfl, hcheck⟩)).1
    rw [hiff, not_and, not_or] at hout
    obtain ⟨hnone, hsame⟩ := hout hpackage
    refine ⟨?_, fun target htarget hname hpasses ↦ hsame ⟨target, htarget, hname, hpasses⟩⟩
    by_contra hall
    exact hnone fun target htarget hpasses ↦ hall ⟨target, htarget, hpasses⟩
  · intro h name reason hname
    obtain ⟨skipped, htarget, rfl, hcheck⟩ := (hskipped _ _).mp hname
    have hout : skipped.ecuName ∉ eligibleNames eligible := by
      rw [hiff]
      rintro ⟨hpackage, hallowed⟩
      obtain ⟨⟨other, hother, hpasses⟩, hsame⟩ := h skipped htarget ⟨reason, hcheck⟩ hpackage
      rcases hallowed with hnone | ⟨target, htarget', hname', hpasses'⟩
      · exact hnone other hother hpasses
      · exact hsame target htarget' hname' hpasses'
    exact ⟨hout, fun p hp ↦ not_mem_updateOrder hp hout⟩

/-! ## The optional cluster alone -/

/-- The only target wants a later version than the cluster runs. -/
def clusterCampaign : Campaign where
  releaseVersion := "2.0.0"
  transport := "VCAN"
  targets := [{ demoTarget "Cluster ECU" false 3 with minimumSupportedVersion := "1.5.0" }]
  dependencyOverrides := Dict.ofPairs [("Cluster ECU", [])]

def clusterVehicle : Vehicle where
  ecus := Dict.ofPairs [(0x203, demoEcu 0x203 "Cluster ECU" "1.0.0")]

def clusterManifest : Manifest where
  releaseVersion := "2.0.0"
  packages := [demoPackage "Cluster ECU" "cluster_v2.bin"]
  trustedTargets := Dict.ofPairs [("cluster_v2.bin", {
    length := 176
    sha256 := ""
    custom := ⟨some "Cluster ECU", some "GENERIC", some "2.0.0"⟩ })]

/-- The names that the three stages hand over. -/
def clusterRun : Except PyError (Bool × List (String × String) × List String × List String) := do
  let (accepted, decided) ← CompatibilityValidator.validate demoResolver clusterVehicle
    clusterCampaign
  let eligible ← FirmwareCompatibilityValidator.validate clusterManifest (fun _ ↦ none) false decided
    clusterVehicle []
  let p ← plan demoResolver clusterVehicle decided eligible
  return (accepted, decided.skippedOptionalTargets, eligibleNames eligible, p.updateOrder)

theorem clusterRun_eq : clusterRun.toOption =
    some (true, [("Cluster ECU", "INCOMPATIBLE")], ["Cluster ECU"], ["Cluster ECU"]) := by
  decide +kernel

theorem exists_clusterStages : ∃ decided eligible p,
    CompatibilityValidator.validate demoResolver clusterVehicle clusterCampaign =
      .ok (true, decided) ∧
    FirmwareCompatibilityValidator.validate clusterManifest (fun _ ↦ none) false decided
      clusterVehicle [] = .ok eligible ∧
    plan demoResolver clusterVehicle decided eligible = .ok p ∧
    ("Cluster ECU", "INCOMPATIBLE") ∈ decided.skippedOptionalTargets ∧
    "Cluster ECU" ∈ eligibleNames eligible ∧ "Cluster ECU" ∈ p.updateOrder := by
  have hrun := clusterRun_eq
  unfold clusterRun at hrun
  cases hdecided : CompatibilityValidator.validate demoResolver clusterVehicle clusterCampaign with
  | error e =>
      rw [hdecided] at hrun
      cases hrun
  | ok verdict =>
      rw [hdecided] at hrun
      simp only [bind, Except.bind] at hrun
      cases heligible : FirmwareCompatibilityValidator.validate clusterManifest (fun _ ↦ none)
          false verdict.2 clusterVehicle [] with
      | error e =>
          rw [heligible] at hrun
          cases hrun
      | ok eligible =>
          rw [heligible] at hrun
          dsimp only at hrun
          cases hplan : plan demoResolver clusterVehicle verdict.2 eligible with
          | error e =>
              rw [hplan] at hrun
              cases hrun
          | ok p =>
              rw [hplan] at hrun
              simp only [pure, Except.pure, Except.toOption, Option.some.injEq, Prod.mk.injEq]
                at hrun
              obtain ⟨haccepted, hskipped, hnames, horder⟩ := hrun
              refine ⟨verdict.2, eligible, p, ?_, heligible, hplan, ?_, ?_, ?_⟩
              · rw [← haccepted]
              · simp [hskipped]
              · simp [hnames]
              · simp [horder]

/-- The cluster is skipped and flashed. -/
theorem skipped_cluster_planned :
    ¬ ∀ resolver vehicle campaign decided manifest files requireDownloadedFiles targetNames eligible,
      CompatibilityValidator.validate resolver vehicle campaign = .ok (true, decided) →
      FirmwareCompatibilityValidator.validate manifest files requireDownloadedFiles decided vehicle
        targetNames = .ok eligible →
      ∀ name reason, (name, reason) ∈ decided.skippedOptionalTargets →
        name ∉ eligibleNames eligible ∧
          ∀ p, plan resolver vehicle decided eligible = .ok p → name ∉ p.updateOrder := by
  intro hclaim
  obtain ⟨decided, eligible, p, hdecided, heligible, hplan, hskipped, -, horder⟩ :=
    exists_clusterStages
  exact (hclaim _ _ _ _ _ _ _ _ _ hdecided heligible _ _ hskipped).2 p hplan horder

theorem skipped_not_flashed_cluster : ∃ decided : Campaign,
    ("Cluster ECU", "INCOMPATIBLE") ∈ decided.skippedOptionalTargets ∧
      ¬ ∀ skipped ∈ clusterCampaign.targets,
        (∃ reason, CompatibilityValidator.checkTarget demoResolver clusterVehicle clusterCampaign
          skipped = .ok (.skipped reason)) →
        PackageAccepted clusterManifest (fun _ ↦ none) false clusterVehicle clusterCampaign []
          skipped.ecuName →
        (∃ target ∈ clusterCampaign.targets,
          CompatibilityValidator.Passes clusterVehicle clusterCampaign target) ∧
          ∀ target ∈ clusterCampaign.targets, target.ecuName = skipped.ecuName →
            ¬ CompatibilityValidator.Passes clusterVehicle clusterCampaign target := by
  obtain ⟨decided, eligible, p, hdecided, heligible, -, hskipped, hnames, -⟩ :=
    exists_clusterStages
  refine ⟨decided, hskipped, fun hcondition ↦ ?_⟩
  have hout := (skipped_not_flashed_iff demoResolver clusterVehicle clusterCampaign decided
    clusterManifest (fun _ ↦ none) false [] eligible hdecided heligible).mpr hcondition
  exact (hout _ _ hskipped).1 hnames

end VehicleOta.Tcu
