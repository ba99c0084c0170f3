import VehicleOta.Python.Utf8
import VehicleOta.Uds.FlashManager

/-!
# The checks behind a reset

What the flashing client does once the ECU has been reset: `wait_for_boot` of
`transport/doip/library_client.py` and of `transport/can/can_sender.py`, and
`UDSClient.flash_firmware` of `transport/uds/client.py`.  A loop that runs until a deadline is
given what comes in before it.
-/

namespace VehicleOta.Uds

/-! ## Reading the version -/

/-- `text.strip("\x00")` -/
def stripNul (text : List Char) : List Char :=
  (((text.dropWhile (· = '\x00')).reverse).dropWhile (· = '\x00')).reverse

def parseSoftwareVersion (payload : Bytes) : Option String :=
  if payload.length < 3 ∨ payload.head? ≠ some (positiveResponseSid sidReadDataByIdentifier) then none
  else if intFromBytes (slice payload 1 3) ≠ didSoftwareVersion then none
  else some (String.ofList (stripNul (decodeUtf8 (payload.drop 3))))

/-- `read_version_by_address` and `read_software_version`, on the responses that come in. -/
def readSoftwareVersion (responses : List Bytes) : Except PyError (Option String) := do
  return parseSoftwareVersion (← expectPositiveResponse sidReadDataByIdentifier responses)

/-- The messages that the loops tell apart. -/
inductive Message where
  | installComplete
  | ack
  | healthy
  | other
  deriving DecidableEq

/-! ## Waiting over DoIP -/

namespace LibraryDoIPClient

/-- The loop of `wait_for_boot` over the reads of the version. -/
def waitForVersion (targetVersion : String) : List (List Bytes) → Except PyError Bool
  | [] => .error (.runtimeError
      ("Boot confirmation failed: version did not reach " ++ targetVersion))
  | responses :: later => do
      let version ← readSoftwareVersion responses
      if version = some targetVersion then return true else waitForVersion targetVersion later

/-- The loop over the messages behind a `HEALTH_CHECK`. -/
def waitForHealth : List (Except PyError Message) → Except PyError Bool
  | [] => .error (.runtimeError "Boot confirmation failed: timed out waiting for HEALTHY")
  | message :: later => do
      if (← message) = .healthy then return true else waitForHealth later

/-- `wait_for_boot` -/
def waitForBoot (usingLibrary : Bool) (targetVersion : String) (reads : List (List Bytes))
    (messages : List (Except PyError Message)) : Except PyError Bool :=
  if usingLibrary then waitForVersion targetVersion reads else waitForHealth messages

end LibraryDoIPClient

/-! ## Waiting over CAN -/

namespace CANSender

/-- One round of the loop over a zone controller: the responses to the read, and the
`current_version` that the `version.json` of the ECU holds, where that can be read. -/
structure ZoneRound where
  responses : List Bytes
  currentVersion : Option String

/-- One round of the other loop: what answers the `HEALTH_CHECK`, and the responses to the read. -/
structure HealthRound where
  message : Except PyError Message
  responses : List Bytes

/-- `_read_local_ecu_version` -/
def readLocalEcuVersion (currentVersion : Option String) : String :=
  match currentVersion with
  | some version => String.ofList (strip version.toList)
  | none => ""

def waitOverZone (targetVersion : String) : List ZoneRound → Except PyError Bool
  | [] => .error (.runtimeError
      "Boot confirmation failed: timed out waiting for UDS version confirmation")
  | round :: later =>
      match readSoftwareVersion round.responses with
      | .ok version =>
          if version = some targetVersion then .ok true else waitOverZone targetVersion later
      | .error _ =>
          if readLocalEcuVersion round.currentVersion = targetVersion then .ok true
          else waitOverZone targetVersion later

def waitForHealth (targetVersion : String) : List HealthRound → Except PyError Bool
  | [] => .error (.runtimeError "Boot confirmation failed: timed out waiting for HEALTHY")
  | round :: later => do
      if (← round.message) = .healthy then
        let version ← readSoftwareVersion round.responses
        if version = some targetVersion then return true else waitForHealth targetVersion later
      else waitForHealth targetVersion later

/-- `wait_for_boot`, with the rounds of the loop that it runs. -/
def waitForBoot (targetVersion : String) : List ZoneRound ⊕ List HealthRound → Except PyError Bool
  | .inl rounds => waitOverZone targetVersion rounds
  | .inr rounds => waitForHealth targetVersion rounds

end CANSender

/-! ## The flashing client -/

namespace UDSClient

/-- What the calls of the flash manager return. -/
structure Phases where
  enterProgramming : Except PyError Unit
  eraseMemory : Except PyError Bool
  requestDownload : Except PyError Bool
  transferData : Except PyError Bool
  transferExit : Except PyError Bool
  ecuReset : Except PyError Bool

/-- A transport behind the reset: its methods, where it has them, and the target version of its
current package. -/
structure Transport where
  waitForBoot : Option (Except PyError Bool)
  readSoftwareVersion : Option (Except PyError (Option String))
  targetVersion : Option String

/-- `if not call: raise RuntimeError(message)` -/
def require (call : Except PyError Bool) (message : String) : Except PyError Unit := do
  raiseIf (!(← call)) (.runtimeError message)

/-- The comparison of the version that is read back. -/
def compareReadback (actualVersion : Option String) (targetVersion : String) : Except PyError Unit :=
  raiseIf (actualVersion ≠ some targetVersion) (.runtimeError
    ("Post-reset version readback mismatch: expected " ++ targetVersion ++ ", got " ++
      actualVersion.getD "None"))

def flashFirmware (phases : Phases) (transport : Transport) : Except PyError Bool := do
  phases.enterProgramming
  require phases.eraseMemory "Erase routine failed"
  require phases.requestDownload "Request download rejected"
  require phases.transferData "Transfer data failed"
  require phases.transferExit "Request transfer exit failed"
  require phases.ecuReset "ECU reset failed"
  match transport.waitForBoot with
  | some call => require call "Post-reset boot confirmation failed"
  | none => pure ()
  match transport.readSoftwareVersion, transport.targetVersion with
  | some read, some targetVersion => compareReadback (← read) targetVersion
  | _, _ => pure ()
  return true

end UDSClient

end VehicleOta.Uds
