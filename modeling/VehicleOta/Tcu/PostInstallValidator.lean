import VehicleOta.Ecu.LifeCycle
import VehicleOta.Tcu.EcuDiscovery

/-!
# Validation behind an installation

`PostInstallValidator` of `tcu/post_install_validator.py` over the versions that
`ECUDiscovery._discover_can` reports.
-/

namespace VehicleOta.Tcu

open Can Ecu CrashLogic

/-! ## The validator -/

namespace PostInstallValidator

/-- The files of every ECU, by the key of its `VersionManager`. -/
abbrev Stores := String → EcuStore

def onEcu {α : Type} (key : String) (m : EcuM α) (stores : Stores) : Except PyError α × Stores :=
  ((m (stores key)).result, Function.update stores key (m.store (stores key)))

/-- `_ecu_key`; `lower` maps the ASCII letters only. -/
def ecuKey (ecuName : String) : Except PyError String :=
  let normalized := ecuName.toList.map Char.toLower
  if "gateway".toList <:+: normalized then .ok "gateway"
  else if "cluster".toList <:+: normalized then .ok "cluster"
  else if "bcm".toList <:+: normalized then .ok "bcm"
  else
    match (normalized.dropWhile isSpace).takeWhile fun c ↦ !isSpace c with
    | [] => .error (.indexError "list index out of range")
    | word => .ok (String.ofList word)

def validationTargetNames (campaign : Campaign) : List String :=
  if campaign.approvedTargets ≠ [] then campaign.approvedTargets.dedup
  else
    ((campaign.targets.map CampaignTarget.ecuName).filter fun name ↦
      name ∉ campaign.skippedOptionalTargets.map Prod.fst).dedup

def targetVersions (campaign : Campaign) : Dict String String :=
  Dict.ofPairs ((campaign.targets.filter fun target ↦
    target.ecuName ∈ validationTargetNames campaign).map fun target ↦
      (target.ecuName, target.targetVersion))

def allRunning (discovered : Dict String String) : List (String × String) → Except PyError Bool
  | [] => .ok true
  | (ecuName, expected) :: targets =>
      match discovered.get? ecuName with
      | none => .ok false
      | some actual => do
          if ← versionEq actual expected then allRunning discovered targets else return false

/-- `_all_targets_running` -/
def allTargetsRunning (vehicle : Vehicle) (targetVersions : Dict String String) :
    Except PyError Bool :=
  allRunning (Dict.ofPairs (vehicle.getAllEcus.map fun ecu ↦ (ecu.ecuName, ecu.currentVersion)))
    targetVersions.entries

/-- `_wait_for_expected_versions` over the discoveries it makes, each with the answer to whether
the deadline has come. -/
def waitForExpectedVersions (targetVersions : Dict String String) :
    List (Vehicle × Bool) → Except PyError (Option Vehicle)
  | [] => .ok none
  | (vehicle, deadline) :: polls => do
      if ← allTargetsRunning vehicle targetVersions then return some vehicle
      else if deadline then return some vehicle
      else waitForExpectedVersions targetVersions polls

/-- The body of the loop over the sorted names; the result is false where `all_updated` becomes
false. -/
def validateTarget (vehicle : Vehicle) (targetVersions : Dict String String) (ecuName : String)
    (stores : Stores) : Except PyError Bool × Stores :=
  let discoveredByName := Dict.ofPairs (vehicle.getAllEcus.map fun ecu ↦ (ecu.ecuName, ecu))
  match targetVersions.get? ecuName, discoveredByName.get? ecuName with
  | none, _ => (.ok true, stores)
  | some _, none => (.ok false, stores)
  | some expected, some ecu =>
      match versionEq ecu.currentVersion expected, ecuKey ecu.ecuName with
      | .error e, _ => (.error e, stores)
      | .ok _, .error e => (.error e, stores)
      | .ok passed, .ok key =>
          match onEcu key (Ecu.PostInstallValidator.validateEcu passed ecu.currentVersion) stores with
          | (.error e, stores) => (.error e, stores)
          | (.ok _, stores) => (.ok passed, stores)

def validateTargets (vehicle : Vehicle) (targetVersions : Dict String String) :
    List String → Stores → Except PyError Bool × Stores
  | [], stores => (.ok true, stores)
  | ecuName :: names, stores =>
      match validateTarget vehicle targetVersions ecuName stores with
      | (.error e, stores) => (.error e, stores)
      | (.ok passed, stores) =>
          match validateTargets vehicle targetVersions names stores with
          | (.error e, stores) => (.error e, stores)
          | (.ok rest, stores) => (.ok (passed && rest), stores)

/-- `validate`; without a result while it waits for the ECUs. -/
def validate (campaign : Campaign) (polls : List (Vehicle × Bool)) (stores : Stores) :
    Except PyError (Option Bool) × Stores :=
  match waitForExpectedVersions (targetVersions campaign) polls with
  | .error e => (.error e, stores)
  | .ok none => (.ok none, stores)
  | .ok (some vehicle) =>
      match validateTargets vehicle (targetVersions campaign)
        ((validationTargetNames campaign).mergeSort fun a b ↦ decide (a ≤ b)) stores with
      | (.error e, stores) => (.error e, stores)
      | (.ok updated, stores) => (.ok (some updated), stores)

end PostInstallValidator

end VehicleOta.Tcu
