import VehicleOta.Common.Json
import VehicleOta.Tcu.Models

/-!
# Loading and checking a campaign

`CampaignManager.load_campaign` of `tcu/campaign_manager.py` on the JSON value of the file, and
`CampaignValidator` of `tcu/validation/campaign_validator.py`.  A campaign whose fields have the
types of the dataclasses is loaded as it is; a text or a number of another type is refused.
-/

namespace VehicleOta.Tcu

/-- The campaign with the two fields that only the run itself looks at. -/
structure LoadedCampaign extends Campaign where
  campaignId : Json
  vehicleModel : Json

namespace CampaignManager

def text : Json → Except PyError String
  | .str s => .ok s
  | x => .error (.typeError ("str expected, not " ++ x.typeName))

def number : Json → Except PyError ℤ
  | .int n => .ok n
  | x => .error (.typeError ("int expected, not " ++ x.typeName))

/-- The body of the loop over the targets. -/
def loadTarget (item : Json) : Except PyError CampaignTarget := do
  let ecuName ← text (← item.getItem "ecu_name")
  let targetVersion ← text (← item.getItem "target_version")
  let minimumSupportedVersion ← text (← item.getItem "minimum_supported_version")
  let hardwareVariant ← text (← item.getItem "hardware_variant")
  let minimumBootloader ← text (← item.getItem "minimum_bootloader")
  let mandatory := (← item.getItem "mandatory").truthy
  let priority ← number (← item.getItem "priority")
  let _ ← item.getItem "requires_reboot"
  let skipIfUnavailable := (← item.getD "skip_if_unavailable" (.bool false)).truthy
  let skipIfIncompatible := (← item.getD "skip_if_incompatible" (.bool false)).truthy
  return { ecuName, targetVersion, minimumSupportedVersion, hardwareVariant, minimumBootloader,
           mandatory, priority, skipIfUnavailable, skipIfIncompatible }

/-- `load_campaign` -/
def loadCampaign (data : Json) : Except PyError LoadedCampaign := do
  let targets ← (← (← data.getItem "targets").iter).mapM loadTarget
  let campaignId ← data.getItem "campaign_id"
  let vehicleModel ← data.getItem "vehicle_model"
  let releaseVersion ← text (← data.getItem "release_version")
  let _ ← data.getItem "priority"
  let transport ← text (← data.getItem "transport")
  let _ ← data.getItem "rollback_enabled"
  let _ ← data.getItem "created_by"
  let overrides ← (← data.getD "dependency_overrides" (.dict [])).items
  let overrides ← overrides.mapM fun e ↦ do return (e.1, ← (← e.2.iter).mapM text)
  return { releaseVersion, transport, targets, campaignId, vehicleModel,
           dependencyOverrides := Dict.ofPairs overrides }

end CampaignManager

namespace CampaignValidator

def supportedTransports : List String := ["VCAN", "CAN", "DOIP", "ETHERNET"]

/-- The local variables of the loop. -/
structure Seen where
  valid : Bool
  ecuNames : List String := []
  priorities : List ℤ := []

/-- The body of the loop over the targets. -/
def checkTarget (seen : Seen) (target : CampaignTarget) : Seen :=
  let duplicateName := decide (target.ecuName ∈ seen.ecuNames)
  let duplicatePriority := decide (target.priority ∈ seen.priorities)
  { valid := seen.valid && !duplicateName && !duplicatePriority && target.targetVersion ≠ "" &&
      target.minimumSupportedVersion ≠ "" && target.minimumBootloader ≠ ""
    ecuNames := if duplicateName then seen.ecuNames else seen.ecuNames ++ [target.ecuName]
    priorities :=
      if duplicatePriority then seen.priorities else seen.priorities ++ [target.priority] }

def validate (campaign : LoadedCampaign) : Bool :=
  let valid := campaign.campaignId.truthy && campaign.vehicleModel.truthy &&
    campaign.releaseVersion ≠ "" && campaign.targets.length ≠ 0 &&
    decide (normalizeTransport campaign.transport ∈ supportedTransports)
  (campaign.targets.foldl checkTarget { valid }).valid

/-! ## What is valid -/

/-- A target with all its versions. -/
structure Versioned (target : CampaignTarget) : Prop where
  targetVersion : target.targetVersion ≠ ""
  minimumSupportedVersion : target.minimumSupportedVersion ≠ ""
  minimumBootloader : target.minimumBootloader ≠ ""

structure Valid (campaign : LoadedCampaign) : Prop where
  campaignId : campaign.campaignId.truthy
  vehicleModel : campaign.vehicleModel.truthy
  releaseVersion : campaign.releaseVersion ≠ ""
  targets : campaign.targets ≠ []
  transport : normalizeTransport campaign.transport ∈ supportedTransports
  ecuNames : (campaign.targets.map CampaignTarget.ecuName).Nodup
  priorities : (campaign.targets.map CampaignTarget.priority).Nodup
  versioned : ∀ target ∈ campaign.targets, Versioned target

/-- What the loop has seen of the targets that it has passed. -/
structure Passed (valid : Bool) (targets : List CampaignTarget) (seen : Seen) : Prop where
  ecuNames : ∀ n, n ∈ seen.ecuNames ↔ n ∈ targets.map CampaignTarget.ecuName
  priorities : ∀ p, p ∈ seen.priorities ↔ p ∈ targets.map CampaignTarget.priority
  valid_iff : seen.valid = true ↔ valid = true ∧ (targets.map CampaignTarget.ecuName).Nodup ∧
    (targets.map CampaignTarget.priority).Nodup ∧ ∀ target ∈ targets, Versioned target

theorem nodup_concat_iff {α : Type*} {xs : List α} {x : α} :
    (xs ++ [x]).Nodup ↔ xs.Nodup ∧ x ∉ xs := by
  rw [List.nodup_append_comm, List.singleton_append, List.nodup_cons, and_comm]

theorem mem_insert_iff {α : Type*} [DecidableEq α] {xs ys : List α} {x : α}
    (h : ∀ a, a ∈ xs ↔ a ∈ ys) (a : α) :
    a ∈ (if decide (x ∈ xs) = true then xs else xs ++ [x]) ↔ a ∈ ys ++ [x] := by
  by_cases hx : x ∈ xs
  · rw [if_pos (decide_eq_true hx), h, List.mem_append, List.mem_singleton]
    exact ⟨Or.inl, fun hor ↦ hor.elim id fun heq ↦ heq ▸ (h x).mp hx⟩
  · rw [if_neg (by simpa using hx), List.mem_append, List.mem_append, h]

theorem Passed.checkTarget {valid : Bool} {targets : List CampaignTarget} {seen : Seen}
    (h : Passed valid targets seen) (target : CampaignTarget) :
    Passed valid (targets ++ [target]) (checkTarget seen target) where
  ecuNames := by
    rw [List.map_append]
    exact mem_insert_iff h.ecuNames
  priorities := by
    rw [List.map_append]
    exact mem_insert_iff h.priorities
  valid_iff := by
    have hversioned : Versioned target ↔ target.targetVersion ≠ "" ∧
        target.minimumSupportedVersion ≠ "" ∧ target.minimumBootloader ≠ "" :=
      ⟨fun h ↦ ⟨h.1, h.2, h.3⟩, fun h ↦ ⟨h.1, h.2.1, h.2.2⟩⟩
    simp only [CampaignValidator.checkTarget, Bool.and_eq_true, Bool.not_eq_true',
      decide_eq_true_eq, decide_eq_false_iff_not, h.valid_iff, h.ecuNames, h.priorities,
      List.map_append, List.map_cons, List.map_nil, nodup_concat_iff, List.forall_mem_append,
      List.forall_mem_singleton, hversioned]
    tauto

/-- The campaigns that pass. -/
theorem validate_eq_true_iff (campaign : LoadedCampaign) :
    validate campaign = true ↔ Valid campaign := by
  have hloop : ∀ (valid : Bool) (targets : List CampaignTarget),
      Passed valid targets (targets.foldl checkTarget { valid }) := by
    intro valid targets
    induction targets using List.reverseRecOn with
    | nil => exact ⟨by simp, by simp, by simp⟩
    | append_singleton targets target ih =>
        rw [List.foldl_append]
        exact ih.checkTarget target
  rw [validate, (hloop _ campaign.targets).valid_iff]
  simp only [Bool.and_eq_true, decide_eq_true_eq, List.length_eq_zero_iff, ne_eq]
  constructor
  · rintro ⟨⟨⟨⟨⟨hid, hmodel⟩, hversion⟩, htargets⟩, htransport⟩, hnames, hpriorities, hversioned⟩
    exact ⟨hid, hmodel, hversion, htargets, htransport, hnames, hpriorities, hversioned⟩
  · intro h
    exact ⟨⟨⟨⟨⟨h.campaignId, h.vehicleModel⟩, h.releaseVersion⟩, h.targets⟩, h.transport⟩,
      h.ecuNames, h.priorities, h.versioned⟩

end CampaignValidator

end VehicleOta.Tcu
