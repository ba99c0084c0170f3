import VehicleOta.Ecu.RuntimeControl
import VehicleOta.Tcu.CampaignLoading
import VehicleOta.Tcu.CampaignResult
import VehicleOta.Tcu.CloudClient
import VehicleOta.Tcu.CompatibilityValidator
import VehicleOta.Tcu.UptaneVerifier

/-!
# One run of the update manager

`main` of `tcu/main.py`, from the choice of the transport to the exit code.
-/

namespace VehicleOta.Tcu

open CrashLogic TraceLogic Ecu Mqtt
open FirmwareCompatibilityValidator (joinPath)

/-! ## What a run finds around it -/

/-- A manifest as it is read at one moment, with the metadata beside it and the time. -/
structure ReleaseReading where
  /-- `release_version` and `packages` -/
  manifest : String → Except PyError (String × List Package)
  metadata : String → String → JsonFile
  now : ℤ

/-- The environment variables and inputs of a run, stripped and in lower case where `main` does
that, and the answers of everything outside the TCU. -/
structure Surroundings where
  /-- `_validate_active_scenario_consistency` -/
  consistent : Bool
  transport : String := ""
  transportInput : String := ""
  cloudControl : String := ""
  cloudInput : String := ""
  cloud : Cloud
  discovered : String → Except PyError Vehicle
  expectedVersions : List Char := []
  offlineEcus : List Char := []
  runtimeControl : String → Option (List Char)
  resolver : DependencyPolicyResolver
  planned : ReleaseReading
  downloaded : ReleaseReading
  /-- The packages of the manifest in `RELEASE_DIRECTORY`. -/
  repository : Except PyError (List Package)
  flashRetryCount : ℕ
  /-- `send_firmware` for an ECU at an attempt. -/
  sendFirmware : String → ℕ → Except PyError Bool
  /-- The discoveries before the deadline of the validation and the one at the deadline. -/
  polls : List Vehicle
  lastPoll : Vehicle
  summaryEnabled : Bool := true
  /-- What comes of writing the file of a summary. -/
  summaryWritten : ExecutionSummary → Except PyError Unit := fun _ ↦ .ok ()

/-! ## Choices -/

def transportChoice (configured input : String) : String :=
  if configured = "" then input
  else if configured ∈ ["vcan", "can"] then "1"
  else if configured = "doip" then "2"
  else ""

def selectTransport (configured input : String) : Option String :=
  if transportChoice configured input = "1" then some "VCAN"
  else if transportChoice configured input = "2" then some "DOIP"
  else none

def cloudChoice (configured input : String) : String :=
  if configured = "" then input
  else if configured ∈ ["http", "https", "http_poll", "https_poll", "poll"] then "1"
  else if configured ∈ ["mqtt", "mqtt_notify", "notify"] then "2"
  else ""

def Surroundings.usesMqtt (env : Surroundings) : Bool :=
  cloudChoice env.cloudControl env.cloudInput = "2"

/-! ## The expected versions -/

section Expected

-- `float(text)`
variable (float : List Char → Json)

/-- `text.replace(" ecu", "")` -/
def removeEcu : List Char → List Char
  | ' ' :: 'e' :: 'c' :: 'u' :: rest => removeEcu rest
  | c :: rest => c :: removeEcu rest
  | [] => []

/-- The names in `OTA_SCENARIO_OFFLINE_ECUS`. -/
def configuredOffline (text : List Char) : List String :=
  ((text.splitOn ',').map strip).filter (· ≠ []) |>.map String.ofList

/-- `_offline_mismatch_allowed`; `lower` maps the ASCII letters only. -/
def offlineMismatchAllowed (control : String → Option (List Char)) (ecuName : String)
    (offline : List String) : Except PyError Bool :=
  if ecuName ∈ offline then .ok true
  else
    let ecuKey := removeEcu ((strip ecuName.toList).map Char.toLower)
    if ecuKey = [] then .ok false
    else do
      let control ← RuntimeControl.load float (control (String.ofList ecuKey))
      return !control.heartbeatEnabled || !control.diagnosticsEnabled

/-- Whether an entry of the expected versions is no mismatch. -/
def versionExpected (control : String → Option (List Char)) (offline : List String)
    (discovered : Dict String String) (e : String × Json) : Except PyError Bool :=
  match discovered.get? e.1 with
  | none => offlineMismatchAllowed float control e.1 offline
  | some actual => .ok (e.2.eq (.str actual))

/-- `_validate_expected_ecu_versions` -/
def validateExpectedEcuVersions (env : Surroundings) (vehicle : Vehicle) : Except PyError Bool :=
  let raw := strip env.expectedVersions
  if raw = [] then .ok true
  else
    match Json.loads float raw with
    | .error .decodeError => .ok true
    | .error (.valueError e) => .error e
    | .ok expected =>
        if ¬ expected.truthy then .ok true
        else do
          let discovered := Dict.ofPairs
            (vehicle.getAllEcus.map fun ecu ↦ (ecu.ecuName, ecu.currentVersion))
          let matched ← (← expected.items).mapM (versionExpected float env.runtimeControl
            (configuredOffline env.offlineEcus) discovered)
          return matched.all id

end Expected

/-! ## The manifest of a release -/

/-- A program on the files as a call. -/
def persist {ι σ α : Type} (get : World → σ) (set : World → σ → World)
    (m : Persist ι σ PyError α) : Call PyError World α := fun w ↦
  ((m (get w)).result, set w (m.store (get w)))

def textOf (custom : Json) (key : String) : Option String :=
  match custom.getD key .null with
  | .ok (.str s) => some s
  | _ => none

/-- The fields of a verified target that the checks of a package read. -/
def trustedOf (target : UptaneVerifier.TrustedTarget) : TrustedTarget where
  length := target.length
  sha256 := target.sha256
  custom := {
    ecuName := textOf target.custom "ecu_name"
    hardwareVariant := textOf target.custom "hardware_variant"
    targetVersion := textOf target.custom "target_version" }

/-- The release that `UptaneVerifier` looks at. -/
def releaseOf (reading : ReleaseReading) (files : Files) (version : String) : Release :=
  let directory := joinPath (joinPath "firmware" "releases") version
  { directory
    metadata := reading.metadata version
    artifacts := fun filename ↦ files (joinPath directory filename)
    now := reading.now }

section Run

variable (float : List Char → Json) (fromisoformat : String → Except PyError DateTime)

/-- `FirmwareManifest(…).load(verify_trust=True)` -/
def loadManifest (reading : ReleaseReading) (version : String) : Call PyError World Manifest := do
  let manifest ← Call.ofExcept (reading.manifest version)
  let files ← Call.reads World.files
  let targets ← persist World.trust (fun w trust ↦ { w with trust })
    (UptaneVerifier.verify fromisoformat (releaseOf reading files version))
  return { releaseVersion := manifest.1
           packages := manifest.2
           trustedTargets := Dict.ofPairs (targets.map fun t ↦ (t.file, trustedOf t)) }

/-! ## The repository -/

/-- `_selected_packages` -/
def selectedPackages (packages : List Package) (targetNames : List String) : List Package :=
  if targetNames = [] then packages
  else packages.filter fun package ↦
    package.ecuName ∈ FirmwareCompatibilityValidator.selectedTargets targetNames

/-- `verify_repository` -/
def verifyRepository (files : Files) (packages : List Package) (targetNames : List String) : Bool :=
  (selectedPackages packages targetNames).all fun package ↦ (files (releasePath package.file)).isSome

/-- `build_inventory`, for the exception that it raises. -/
def buildInventory (files : Files) (packages : List Package) (targetNames : List String) :
    Except PyError Unit :=
  match (selectedPackages packages targetNames).find? fun package ↦
    (files (releasePath package.file)).isNone with
  | none => .ok ()
  | some package => .error (.fileNotFoundError
      ("[Errno 2] No such file or directory: '" ++ releasePath package.file ++ "'"))

/-- `_selected_update_names` -/
def selectedUpdateNames (plan : DynamicUpdatePlan) : List String :=
  (plan.classifications.entries.filter fun e ↦
    e.2 = .eligible ∧ e.1 ∈ plan.updateOrder).map Prod.fst

/-! ## The stages -/

variable (env : Surroundings)

/-- `ExecutionSummaryWriter.write`, where the file of a write that raises is left out. -/
def writeSummary (summary : ExecutionSummary) : Call PyError World Unit :=
  if env.summaryEnabled then do
    Call.ofExcept (env.summaryWritten summary)
    Call.modify fun w ↦ { w with summary := some summary }
  else pure ()

/-- The local function `finalize`. -/
def finalize (summary : ExecutionSummary) : Call PyError World ℕ := do
  writeSummary env summary
  return if summary.status = "COMPLETED" then 0 else 1

/-- The end of a run that has got its campaign and fails. -/
def abort (summary : ExecutionSummary) (reason : String) : Call PyError World ℕ := do
  markCurrentJob float env.cloud "FAILED"
  finalize env { summary with status := "FAILED", reason }

/-- A check of the run in front of the rest. -/
def gate (passed : Bool) (summary : ExecutionSummary) (reason : String)
    (next : Call PyError World ℕ) : Call PyError World ℕ :=
  if passed then next else abort float env summary reason

/-- `UpdateScheduler.execute` on the files that it finds. -/
def execution (vehicle : Vehicle) (plan : DynamicUpdatePlan)
    (eligible : List EligibleUpdate) (packages : List Package) (files : Files) : Execution where
  resolver := env.resolver
  flashRetryCount := env.flashRetryCount
  transport := env.sendFirmware
  repositoryComplete := verifyRepository files packages (eligibleNames eligible)
  eligibleUpdates := eligible
  updateOrder := plan.updateOrder
  vehicle := some vehicle
  dependencyMap := some plan.dependencyMap

/-- `PostInstallValidator.validate`, which always comes to an end. -/
def validateInstallation (campaign : Campaign) : Call PyError World Bool := fun w ↦
  match PostInstallValidator.validate campaign
    (env.polls.map (·, false) ++ [(env.lastPoll, true)]) w.stores with
  | (result, stores) => (result.map (·.getD false), { w with stores })

/-- From the execution on. -/
def installUpdates (summary : ExecutionSummary) (campaign : Campaign) (x : Execution) :
    Call PyError World ℕ := do
  Call.modify fun w ↦ { w with log := w.log ++ x.execute.1 }
  let success ← Call.ofExcept x.execute.2
  let results := resultsOf x.execute.1
  let summary := { summary with perEcuResults := results }
  gate float env success summary (campaignResult results) do
    let updated ← validateInstallation env campaign
    gate float env updated summary "POST_INSTALL_VALIDATION_FAILED" do
      markCurrentJob float env.cloud "COMPLETED"
      finalize env { summary with status := "COMPLETED", reason := campaignResult results }

/-- The download of the planned firmware and the second check. -/
def downloadUpdates (summary : ExecutionSummary) (data : Json) (campaign : Campaign)
    (vehicle : Vehicle) (plan : DynamicUpdatePlan) : Call PyError World ℕ := do
  let names := selectedUpdateNames plan
  gate float env (names ≠ []) summary "NO_EXECUTABLE_UPDATES" do
    persist World.files (fun w files ↦ { w with files })
      (downloadFirmware env.cloud.respond data names)
    let packages ← Call.ofExcept env.repository
    let files ← Call.reads World.files
    Call.ofExcept (buildInventory files packages names)
    let manifest ← loadManifest fromisoformat env.downloaded campaign.releaseVersion
    let eligible ← Call.ofExcept
      (FirmwareCompatibilityValidator.validate manifest files true campaign vehicle names)
    gate float env (eligible.length = names.length) summary
      "DOWNLOADED_ARTIFACT_VERIFICATION_FAILED"
      (installUpdates float env summary campaign
        (execution env vehicle plan eligible packages files))

/-- From the compatibility of the campaign to the plan. -/
def planUpdates (summary : ExecutionSummary) (data : Json) (campaign : Campaign)
    (vehicle : Vehicle) : Call PyError World ℕ := do
  let decided ← Call.ofExcept (CompatibilityValidator.validate env.resolver vehicle campaign)
  gate float env decided.1 summary "CAMPAIGN_COMPATIBILITY_FAILED" do
    let manifest ← loadManifest fromisoformat env.planned campaign.releaseVersion
    let files ← Call.reads World.files
    let eligible ← Call.ofExcept
      (FirmwareCompatibilityValidator.validate manifest files false decided.2 vehicle [])
    let summary := { summary with eligibleEcus := eligibleNames eligible }
    gate float env (eligible.length ≠ 0) summary "NO_COMPATIBLE_ECUS" do
      let plan ← Call.ofExcept (plan env.resolver vehicle decided.2 eligible)
      gate float env plan.executable summary "DYNAMIC_PLANNING_FAILED"
        (downloadUpdates float fromisoformat env { summary with updateOrder := plan.updateOrder }
          data decided.2 vehicle plan)

/-- From the downloaded campaign on. -/
def updateVehicle (summary : ExecutionSummary) (transport : String) (data : Json) :
    Call PyError World ℕ := do
  let file ← Call.reads World.localCampaign
  let text ← Call.ofExcept (match file with
    | some text => .ok text
    | none => .error (.fileNotFoundError
        "[Errno 2] No such file or directory: 'campaigns/campaign_v1.json'"))
  let campaign ← Call.ofExcept (readJson float text >>= CampaignManager.loadCampaign)
  let campaign := { campaign with transport }
  let summary := { summary with campaignId := campaign.campaignId }
  gate float env (CampaignValidator.validate campaign) summary "CAMPAIGN_VALIDATION_FAILED" do
    let vehicle ← Call.ofExcept (env.discovered transport)
    let summary := { summary with discoveredEcus := vehicle.getAllEcus.map ECU.ecuName }
    let expected ← Call.ofExcept (validateExpectedEcuVersions float env vehicle)
    gate float env expected summary "RUNTIME_ECU_STATE_MISMATCH"
      (planUpdates float fromisoformat env summary data campaign.toCampaign vehicle)

/-- The body of the `try` statement. -/
def notifiedCampaign : Call JobError World Json := do
  Call.mapError .python (Call.ofExcept env.cloud.published)
  downloadCampaignFromMqtt float env.cloud

/-- The campaign of the run, or nothing for a job that is completed. -/
def obtainCampaign : Call PyError World (Option Json) :=
  if env.usesMqtt then do
    match ← Call.attempt (notifiedCampaign float env) with
    | .ok data => return some data
    | .error (.duplicate _) => return none
    | .error (.python _) => some <$> downloadCampaign float env.cloud
  else some <$> downloadCampaign float env.cloud

/-- The part of `main` behind the choice of the transport. -/
def runOver (transport : String) : Call PyError World ℕ := do
  let summary : ExecutionSummary :=
    { transport, cloudControl := if env.usesMqtt then "mqtt" else "http" }
  match ← obtainCampaign float env with
  | none => finalize env { summary with status := "FAILED", reason := "DUPLICATE_MQTT_JOB" }
  | some data => updateVehicle float fromisoformat env summary transport data

/-- `main`, with the exit code. -/
def main : Call PyError World ℕ := do
  -- `OTACloudClient()`
  Call.modify fun w ↦ { w with currentJob := .null }
  if ¬ env.consistent then
    finalize env { status := "FAILED", reason := "ACTIVE_SCENARIO_MISMATCH" }
  else
    match selectTransport env.transport env.transportInput with
    | none => finalize env { status := "FAILED", reason := "INVALID_TRANSPORT_SELECTION" }
    | some transport => runOver float fromisoformat env transport

end Run

end VehicleOta.Tcu
