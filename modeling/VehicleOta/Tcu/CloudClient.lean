import VehicleOta.Crash.Persist
import VehicleOta.Mqtt.JobNotification
import VehicleOta.Mqtt.JobState
import VehicleOta.Tcu.FirmwareCompatibility
import VehicleOta.Tcu.PostInstallValidator
import VehicleOta.Tcu.UpdateScheduler
import VehicleOta.Trace.Calls

/-!
# The cloud client

`OTACloudClient` of `tcu/cloud_client.py`: the campaign over HTTP or behind a notification, the
state of the current job, and the firmware files of a campaign.
-/

namespace VehicleOta.Tcu

open CrashLogic TraceLogic Mqtt
open FirmwareCompatibilityValidator (joinPath)

/-! ## What a run finds and leaves -/

/-- The summary of a run; the fields that only repeat the environment are left out. -/
structure ExecutionSummary where
  status : String := ""
  transport : String := ""
  cloudControl : String := ""
  campaignId : Json := .str ""
  reason : String := ""
  discoveredEcus : List String := []
  eligibleEcus : List String := []
  updateOrder : List String := []
  perEcuResults : List (String × Status) := []

/-- The files below the working directory, by their paths. -/
abbrev Files := String → Option Bytes

/-- The files of the TCU and of the ECUs, the summary, the transport attempts and
`current_job`. -/
structure World where
  jobs : StateFile := none
  localCampaign : Option (List Char) := none
  files : Files := fun _ ↦ none
  trust : JsonFile := none
  stores : PostInstallValidator.Stores
  summary : Option ExecutionSummary := none
  log : List Event := []
  currentJob : Json := .null

/-! ## Firmware files -/

/-- What the server sends for a file: the chunks, and the exception that ends them. -/
structure Response where
  chunks : List Bytes
  failure : Option PyError := none

def Response.body (r : Response) : Bytes := r.chunks.flatten

/-- `self.local_firmware` -/
def localFirmware : String := "firmware/releases/2.0.0"

def releasePath (filename : String) : String := joinPath localFirmware filename

def downloadingPath (filename : String) : String := releasePath (filename ++ ".downloading")

/-- A write goes to the temporary file, or the file takes its name. -/
inductive DownloadWrite where
  | temporary
  | publish

/-- The name of the file of a target.  `with_name` refuses a `/`; the names that stand for
directories are refused with it. -/
def filenameOf : Json → Except PyError String
  | .str name =>
      if '/' ∈ name.toList ∨ name ∈ ["", ".", ".."] then
        .error (.valueError ("Invalid name '" ++ name ++ ".downloading'"))
      else .ok name
  | x => .error (.typeError ("unsupported operand type(s) for /: 'PosixPath' and '" ++
      x.typeName ++ "'"))

/-- `unlink` where the file exists. -/
def unlink (path : String) : Persist DownloadWrite Files PyError PUnit := do
  if (← Persist.reads fun files ↦ (files path).isSome) then
    Persist.write .temporary fun files ↦ Function.update files path none

/-- The part of `download_firmware` behind a response. -/
def saveResponse (filename : String) (response : Response) :
    Persist DownloadWrite Files PyError PUnit := do
  let temp := downloadingPath filename
  unlink temp
  Persist.write .temporary fun files ↦ Function.update files temp (some [])
  Persist.forEach (response.chunks.filter (· ≠ [])) fun chunk ↦
    Persist.write .temporary fun files ↦
      Function.update files temp (some ((files temp).getD [] ++ chunk))
  match response.failure with
  | some e => do
      unlink temp
      Persist.raise e
  | none =>
      Persist.write .publish fun files ↦
        Function.update (Function.update files temp none) (releasePath filename) (files temp)

/-- The targets that a run downloads. -/
def downloadTargets (campaign : Json) (targetNames : List String) : Except PyError (List Json) := do
  let selected := targetNames.filter fun name ↦ strip name.toList ≠ []
  let targets ← (← campaign.getItem "targets").iter
  targets.filterM fun target ↦ do
    let ecuName ← target.getD "ecu_name" (.str "")
    return selected = [] ∨ String.ofList (strip (formatValue ecuName).toList) ∈ selected

/-- `download_firmware`; the server answers the request at a position of the loop. -/
def downloadFirmware (respond : ℕ → Json → Except PyError Response) (campaign : Json)
    (targetNames : List String) : Persist DownloadWrite Files PyError PUnit := do
  let targets ← Persist.ofExcept (downloadTargets campaign targetNames)
  Persist.forEach targets.zipIdx fun target ↦ do
    let file ← Persist.ofExcept (target.1.getItem "firmware_file")
    let response ← Persist.ofExcept (respond target.2 file)
    let filename ← Persist.ofExcept (filenameOf file)
    saveResponse filename response

/-! ## Campaigns and jobs -/

/-- What the cloud answers during a run, with the messages that arrive while the client waits, and
the time at which a status is recorded.  `resumes` says whether the thread of `paho-mqtt` goes on
behind an exception in a callback. -/
structure Cloud where
  campaignUrl : String
  fetch : String → Except PyError (List Char)
  /-- `_auto_publish_mqtt_job` -/
  published : Except PyError Unit
  mqttAvailable : Bool := true
  signingKey : String
  resumes : Bool := false
  received : List Mqtt.Event := []
  recordedAt : String → String
  respond : ℕ → Json → Except PyError Response

section Client

-- `float(text)`
variable (float : List Char → Json) (cloud : Cloud)

/-- `json.loads(text)` with the exceptions of the run. -/
def readJson (text : List Char) : Except PyError Json :=
  match Json.loads float text with
  | .ok x => .ok x
  | .error .decodeError => .error (.valueError "JSONDecodeError")
  | .error (.valueError e) => .error e

/-- `download_campaign_from_url`: a local file or the answer of the server. -/
def downloadCampaignFromUrl : Json → Call PyError World Json
  | .str url => do
      let campaign ← Call.ofExcept (cloud.fetch url >>= readJson float)
      Call.modify fun w ↦ { w with localCampaign := some (campaign.dump (.indented 4) 0) }
      return campaign
  | x => Call.raise (.attributeError ("'" ++ x.typeName ++ "' object has no attribute 'startswith'"))

def downloadCampaign : Call PyError World Json :=
  downloadCampaignFromUrl float cloud (.str cloud.campaignUrl)

/-- `payload.get("job_id", payload.get("campaign_id", "UNKNOWN"))` -/
def notifiedId (payload : Json) : Except PyError Json := do
  payload.getD "job_id" (← payload.getD "campaign_id" (.str "UNKNOWN"))

def recordJob (jobId campaignId : Json) (status : String) : Call PyError World Unit := do
  let file ← Call.reads World.jobs
  let file ← Call.ofExcept
    (MQTTJobState.record float file jobId campaignId status (cloud.recordedAt status))
  Call.modify fun w ↦ { w with jobs := file }

/-- The url behind `document` and `download_url`. -/
def downloadUrl (payload : Json) : Except PyError Json := do
  let document ← payload.getD "document" (.dict [])
  let campaignUrl ← document.getD "campaign_url" .null
  let url ← if campaignUrl.truthy then pure campaignUrl else payload.getD "download_url" .null
  raiseIf (¬ url.truthy) (.runtimeError "MQTT campaign payload missing download_url")
  return url

/-- `download_campaign_from_mqtt` behind the test for a duplicate. -/
def acceptJob (payload jobId campaignId : Json) : Call PyError World Json := do
  recordJob float cloud jobId campaignId "RECEIVED"
  Call.modify fun w ↦ { w with currentJob := payload }
  let url ← Call.ofExcept (downloadUrl payload)
  recordJob float cloud jobId campaignId "PROCESSING"
  downloadCampaignFromUrl float cloud url

/-- The payload that `download_campaign_from_mqtt` waits for. -/
def notification : Except PyError Json :=
  if ¬ cloud.mqttAvailable then .error (.runtimeError "paho-mqtt is not installed")
  else waitForCampaign float cloud.signingKey cloud.resumes {} cloud.received

def downloadCampaignFromMqtt : Call JobError World Json := do
  let payload ← Call.mapError .python (Call.ofExcept (notification float cloud))
  let jobId ← Call.mapError .python (Call.ofExcept (notifiedId payload))
  let campaignId ← Call.mapError .python
    (Call.ofExcept (payload.getD "campaign_id" (.str "UNKNOWN")))
  let file ← Call.reads World.jobs
  Call.ofExcept (MQTTJobState.ensureNotCompleted float file jobId)
  Call.mapError .python (acceptJob float cloud payload jobId campaignId)

def markCurrentJob (status : String) : Call PyError World Unit := do
  let job ← Call.reads World.currentJob
  if job.truthy then
    let jobId ← Call.ofExcept (notifiedId job)
    let campaignId ← Call.ofExcept (job.getD "campaign_id" (.str "UNKNOWN"))
    recordJob float cloud jobId campaignId status

end Client

end VehicleOta.Tcu
