import VehicleOta.Common.Version

/-!
# Vehicle, campaign and dependency policy

`tcu/models/ecu.py`, `vehicle.py` and `campaign.py`, and `tcu/dependency_policy.py` over the
ECU registry of `vehicle/topology_loader.py`.
-/

namespace VehicleOta.Tcu

structure ECU where
  ecuId : ℕ
  ecuName : String
  currentVersion : String
  transport : String
  hardwareVariant : String := "GENERIC"
  bootloaderVersion : String := "1.0.0"
  rollbackSupported : Bool := true
  deriving DecidableEq

/-- The ECUs by identifier, in the order in which they were added. -/
structure Vehicle where
  ecus : Dict ℕ ECU

namespace Vehicle

def addEcu (v : Vehicle) (ecu : ECU) : Vehicle := ⟨v.ecus.set ecu.ecuId ecu⟩

def getAllEcus (v : Vehicle) : List ECU := v.ecus.values

end Vehicle

structure CampaignTarget where
  ecuName : String
  targetVersion : String
  minimumSupportedVersion : String
  hardwareVariant : String
  minimumBootloader : String
  mandatory : Bool
  priority : ℤ
  skipIfUnavailable : Bool := false
  skipIfIncompatible : Bool := false

/-- `approved_targets` and `skipped_optional_targets` are set by the compatibility validator;
`getattr` gives an empty list where they are missing. -/
structure Campaign where
  releaseVersion : String
  transport : String
  targets : List CampaignTarget
  dependencyOverrides : Dict String (List String) := Dict.empty
  approvedTargets : List String := []
  skippedOptionalTargets : List (String × String) := []

structure ECUDependencyPolicy where
  dependencies : List String := []
  criticality : String := "optional"
  onUnavailable : String := "skip"
  onDependencyFailed : String := "skip"

namespace ECUDependencyPolicy

def unavailableAbortsCampaign (p : ECUDependencyPolicy) : Bool :=
  p.criticality = "critical" ∨ p.onUnavailable = "abort_campaign"

def dependencyFailureAbortsCampaign (p : ECUDependencyPolicy) : Bool :=
  p.criticality = "critical" ∨ p.onDependencyFailed = "abort_campaign"

end ECUDependencyPolicy

structure DependencyPolicyResolver where
  ecuRegistry : Dict String ECUDependencyPolicy

/-- An ECU outside the registry has the default policy. -/
def DependencyPolicyResolver.forEcu (resolver : DependencyPolicyResolver) (ecuName : String) :
    ECUDependencyPolicy :=
  (resolver.ecuRegistry.get? ecuName).getD {}

/-- A package of the manifest. -/
structure Package where
  ecuName : String
  file : String
  hardwareVariant : String
  targetVersion : String
  minimumBootloader : String
  transport : Option String := none
  transportSupport : Option (List String) := none
  sha256 : Option String := none
  flashAddress : Option String := none
  partNumber : Option String := none

/-- The `custom` dictionary of a trusted target. -/
structure TrustedCustom where
  ecuName : Option String := none
  hardwareVariant : Option String := none
  targetVersion : Option String := none

structure TrustedTarget where
  length : ℤ
  sha256 : String
  custom : TrustedCustom := {}

/-- An entry of the eligible list. -/
structure EligibleUpdate where
  ecu : ECU
  package : Package
  firmwarePath : String := ""
  size : ℤ := 0

end VehicleOta.Tcu
