import VehicleOta.Doip.BlockLength
import VehicleOta.Trace.Calls
import VehicleOta.Uds.Answers
import VehicleOta.Uds.BootConfirmation

/-!
# The flashing tester and its server

`UDSClient` and `FlashManager` of `transport/uds` over the methods of `LibraryDoIPClient` and of
`CANSender`, with one server at the other end of a channel that neither loses nor delays a message.
-/

namespace VehicleOta.Uds

open TraceLogic

/-! ## The remaining request builders -/

/-- The service builders of the `udsoncan` package, with those of a session. -/
structure UdsSessionLibrary extends UdsLibrary where
  diagnosticSessionControl (session : UInt8) : Except PyError Bytes
  testerPresent : Except PyError Bytes
  readDataByIdentifier (did : ℕ) : Except PyError Bytes
  securityAccess (level : UInt8) (key : Bytes) : Except PyError Bytes
  ecuReset (resetType : UInt8) : Except PyError Bytes

/-- The payloads that the package documents. -/
structure UdsSessionLibrary.Documented (library : UdsSessionLibrary) : Prop where
  download : library.toUdsLibrary.Documented
  diagnosticSessionControl : ∀ session, library.diagnosticSessionControl session =
    .ok [sidDiagnosticSessionControl, session]
  testerPresent : library.testerPresent = .ok [sidTesterPresent, 0x00]
  readDataByIdentifier : ∀ did, did < 256 ^ 2 →
    library.readDataByIdentifier did = .ok (sidReadDataByIdentifier :: intToBytes 2 did)
  securityAccess : ∀ level key, library.securityAccess level key =
    .ok ([sidSecurityAccess, level] ++ key)
  ecuReset : ∀ resetType, library.ecuReset resetType = .ok [sidEcuReset, resetType]

def buildDiagnosticSessionControl (library? : Option UdsSessionLibrary) : Except PyError Bytes :=
  match library? with
  | some library => library.diagnosticSessionControl defaultSessionProgramming
  | none => .ok [sidDiagnosticSessionControl, defaultSessionProgramming]

def buildTesterPresent (library? : Option UdsSessionLibrary) : Except PyError Bytes :=
  match library? with
  | some library => library.testerPresent
  | none => .ok [sidTesterPresent, 0x00]

def buildReadVersion (library? : Option UdsSessionLibrary) : Except PyError Bytes :=
  match library? with
  | some library => library.readDataByIdentifier didSoftwareVersion
  | none => .ok (sidReadDataByIdentifier :: intToBytes 2 didSoftwareVersion)

def buildSecurityAccessRequestSeed (library? : Option UdsSessionLibrary) : Except PyError Bytes :=
  match library? with
  | some library => library.securityAccess securityAccessRequestSeed []
  | none => .ok [sidSecurityAccess, securityAccessRequestSeed]

def buildSecurityAccessSendKey (library? : Option UdsSessionLibrary) (key : Bytes) :
    Except PyError Bytes :=
  match library? with
  | some library => library.securityAccess securityAccessSendKey key
  | none => .ok ([sidSecurityAccess, securityAccessSendKey] ++ key)

def buildEcuReset (library? : Option UdsSessionLibrary) : Except PyError Bytes :=
  match library? with
  | some library => library.ecuReset 0x01
  | none => .ok [sidEcuReset, 0x01]

/-! ## The channel -/

/-- The DoIP connection to the gateway, or ISO-TP messages on the bus of the ECU. -/
inductive Channel where
  | doip
  | isoTp
  deriving DecidableEq

/-- A message that is not taken is read over. -/
def Channel.takes (requestSid : UInt8) (payload : Bytes) : Channel → Bool
  | .doip => true
  | .isoTp => Can.isResponseForRequest payload requestSid

def Channel.timeout : Channel → PyError
  | .doip => .timeoutError "Timed out waiting for diagnostic response"
  | .isoTp => .timeoutError "Timed out waiting for UDS response over ISO-TP"

/-- `_expect_positive_response` on the messages under way, and those that it leaves. -/
def awaitResponse (channel : Channel) (requestSid : UInt8) : List Bytes → Except PyError Bytes × List Bytes
  | [] => (.error channel.timeout, [])
  | current :: later =>
      if channel.takes requestSid current then
        match checkResponse requestSid current with
        | none => awaitResponse channel requestSid later
        | some result => (result, later)
      else awaitResponse channel requestSid later

/-- What the tester remembers, what is under way to it, and the server. -/
structure Tester (σ : Type) where
  server : σ
  inbox : List Bytes := []
  exchanges : List Exchange := []
  maxTransferPayload : ℕ

/-- The two sides of a session.  `surroundings` is what the server finds while it handles a
request, and `online` what `require_ecu_online` does in front of it, by the number of the
request.  Over DoIP nobody asks the guard. -/
structure Bench (σ : Type) where
  channel : Channel
  handle : Request → σ → Outcome σ
  surroundings : ℕ → Request
  online : ℕ → Except PyError Unit
  library? : Option UdsSessionLibrary
  security : SecurityEnvironment

/-- `DocumentedLibrary` of the larger package. -/
def Bench.Documented {σ : Type} (x : Bench σ) : Prop :=
  ∀ library, x.library? = some library → library.Documented

namespace Bench

variable {σ : Type} (x : Bench σ)

abbrev downloadLibrary? : Option UdsLibrary := x.library?.map UdsSessionLibrary.toUdsLibrary

def nextRequest (payload : Bytes) (t : Tester σ) : Request :=
  { x.surroundings t.exchanges.length with payload := payload }

def nextOutcome (payload : Bytes) (t : Tester σ) : Outcome σ :=
  x.handle (x.nextRequest payload t) t.server

/-- The server has handled one more request. -/
def after (payload : Bytes) (t : Tester σ) : Tester σ :=
  { t with
    server := (x.nextOutcome payload t).state
    inbox := t.inbox ++ (x.nextOutcome payload t).responses
    exchanges := t.exchanges ++ [exchange (x.nextRequest payload t) (x.nextOutcome payload t)] }

/-- `_send_uds_request` asks the guard of the zone first. -/
def send (payload : Bytes) : Call PyError (Tester σ) Unit := fun t ↦
  match x.channel, x.online t.exchanges.length with
  | .isoTp, .error e => (.error e, t)
  | _, _ => (.ok (), x.after payload t)

def expectPositiveResponse (requestSid : UInt8) : Call PyError (Tester σ) Bytes := fun t ↦
  ((awaitResponse x.channel requestSid t.inbox).1,
    { t with inbox := (awaitResponse x.channel requestSid t.inbox).2 })

def request (requestSid : UInt8) (payload : Except PyError Bytes) :
    Call PyError (Tester σ) Bytes := do
  let payload ← Call.ofExcept payload
  x.send payload
  x.expectPositiveResponse requestSid

/-- A method that returns true behind the positive response. -/
def perform (requestSid : UInt8) (payload : Except PyError Bytes) :
    Call PyError (Tester σ) Bool := do
  let _ ← x.request requestSid payload
  return true

/-! ## The transport methods -/

def diagnosticSessionControl : Call PyError (Tester σ) Bool :=
  x.perform sidDiagnosticSessionControl (buildDiagnosticSessionControl x.library?)

def testerPresent : Call PyError (Tester σ) Bool :=
  x.perform sidTesterPresent (buildTesterPresent x.library?)

def requestSeed : Call PyError (Tester σ) Bytes := do
  let response ← x.request sidSecurityAccess (buildSecurityAccessRequestSeed x.library?)
  return response.drop 2

def sendKey (seed : Bytes) : Call PyError (Tester σ) Bool := do
  let key ← Call.ofExcept (deriveSecurityKey x.security seed)
  x.perform sidSecurityAccess (buildSecurityAccessSendKey x.library? key)

def eraseMemory (size : ℕ) : Call PyError (Tester σ) Bool :=
  x.perform sidRoutineControl (FlashManager.eraseMemory x.downloadLibrary? size)

/-- The DoIP client takes the block length from the response. -/
def requestDownload (size : ℕ) : Call PyError (Tester σ) Bool := do
  let response ← x.request sidRequestDownload (FlashManager.requestDownload x.downloadLibrary? size)
  match x.channel with
  | .doip =>
      Call.modify fun t ↦
        { t with maxTransferPayload := negotiateTransferPayload t.maxTransferPayload response }
      return true
  | .isoTp => return true

/-- What `LibraryDoIPClient.transfer_data` makes of the messages behind a block; `retry` where there
is none. -/
def finishTransfer (sequence attempt : ℕ) (retry : Call PyError (Tester σ) Bool) :
    List Bytes → Call PyError (Tester σ) Bool
  | [] => retry
  | response :: later =>
      if isNegativeResponse response ∧ response.getD 2 0 = nrcWrongBlockSequenceCounter ∧
          1 < attempt then do
        Call.modify fun t ↦ { t with inbox := later }
        return true
      else do
        let final ← x.expectPositiveResponse sidTransferData
        if final.length < 2 ∨ (final.getD 1 0).toNat ≠ sequence &&& 0xFF then
          Call.raise (.runtimeError
            ("Unexpected TransferData sequence response: " ++ Hash.hexDigest final))
        else return true

/-- The loop of the attempts, with the number of those that are left. -/
def transferAttempts (sequence : ℕ) (request : Bytes) : ℕ → ℕ → Call PyError (Tester σ) Bool
  | 0, _ => return false
  | left + 1, attempt => do
      x.send request
      let inbox ← Call.reads Tester.inbox
      x.finishTransfer sequence attempt
        (if left = 0 then Call.raise x.channel.timeout
          else transferAttempts sequence request left (attempt + 1)) inbox

def transferData (sequence : ℕ) (payload : Bytes) : Call PyError (Tester σ) Bool :=
  match x.channel with
  | .doip => do
      let request ← Call.ofExcept (buildTransferData x.downloadLibrary? sequence payload)
      x.transferAttempts sequence request transferRetryLimit 1
  | .isoTp => x.perform sidTransferData (buildTransferData x.downloadLibrary? sequence payload)

def requestTransferExit : Call PyError (Tester σ) Bool :=
  x.perform sidRequestTransferExit (buildRequestTransferExit x.downloadLibrary?)

def verifyProgramming : Call PyError (Tester σ) Bool :=
  x.perform sidRoutineControl (buildRoutineControlStart x.downloadLibrary? routineVerifyImage [])

def activateImage : Call PyError (Tester σ) Bool :=
  x.perform sidRoutineControl (buildRoutineControlStart x.downloadLibrary? routineActivateImage [])

def ecuReset : Call PyError (Tester σ) Bool :=
  x.perform sidEcuReset (buildEcuReset x.library?)

/-- `read_version_by_address` and `read_software_version` -/
def readSoftwareVersion : Call PyError (Tester σ) (Option String) := do
  let response ← x.request sidReadDataByIdentifier (buildReadVersion x.library?)
  return parseSoftwareVersion response

/-! ## The flash manager -/

/-- `if not call: raise RuntimeError(message)` -/
def require (call : Call PyError (Tester σ) Bool) (message : String) :
    Call PyError (Tester σ) Unit := do
  if ← call then return () else Call.raise (.runtimeError message)

def enterProgramming : Call PyError (Tester σ) Unit := do
  require x.diagnosticSessionControl "Failed to enter programming session"
  let _ ← x.testerPresent
  let seed ← x.requestSeed
  if seed.isEmpty then Call.raise (.runtimeError "SecurityAccess seed request failed")
  else require (x.sendKey seed) "SecurityAccess key exchange failed"

/-- `FlashManager.transfer_data` -/
def transferFirmware (firmware : Bytes) : Call PyError (Tester σ) Bool := do
  let chunkSize ← Call.reads Tester.maxTransferPayload
  Call.forEach (FlashManager.transferData chunkSize firmware) fun call ↦ do
    let _ ← x.transferData call.1 call.2
  return true

def transferExit : Call PyError (Tester σ) Bool := do
  if ← x.requestTransferExit then
    if ← x.verifyProgramming then x.activateImage else return false
  else return false

/-! ## The client -/

/-- `UDSClient.flash_firmware` as far as the reset. -/
def programFirmware (firmware : Bytes) : Call PyError (Tester σ) Unit := do
  x.enterProgramming
  require (x.eraseMemory firmware.length) "Erase routine failed"
  require (x.requestDownload firmware.length) "Request download rejected"
  require (x.transferFirmware firmware) "Transfer data failed"
  require x.transferExit "Request transfer exit failed"
  require x.ecuReset "ECU reset failed"

/-- The rounds of `LibraryDoIPClient.wait_for_boot` before its deadline. -/
def waitForVersion (targetVersion : String) : ℕ → Call PyError (Tester σ) Bool
  | 0 => Call.raise (.runtimeError
      ("Boot confirmation failed: version did not reach " ++ targetVersion))
  | rounds + 1 => do
      let version ← x.readSoftwareVersion
      if version = some targetVersion then return true else waitForVersion targetVersion rounds

/-- The rounds of `CANSender.wait_for_boot`, by what answers the `HEALTH_CHECK` of each. -/
def waitForHealth (targetVersion : String) :
    List (Except PyError Message) → Call PyError (Tester σ) Bool
  | [] => Call.raise (.runtimeError "Boot confirmation failed: timed out waiting for HEALTHY")
  | message :: later => do
      let message ← Call.ofExcept message
      if message = .healthy then
        let version ← x.readSoftwareVersion
        if version = some targetVersion then return true else waitForHealth targetVersion later
      else waitForHealth targetVersion later

/-- The checks of `UDSClient.flash_firmware` behind the reset.  Only `CANSender` has the method
`read_software_version`. -/
def confirmBoot (targetVersion : String) (rounds : ℕ) (messages : List (Except PyError Message)) :
    Call PyError (Tester σ) Bool := do
  match x.channel with
  | .doip =>
      require (x.waitForVersion targetVersion rounds) "Post-reset boot confirmation failed"
      return true
  | .isoTp =>
      require (x.waitForHealth targetVersion messages) "Post-reset boot confirmation failed"
      let version ← x.readSoftwareVersion
      let _ ← Call.ofExcept (UDSClient.compareReadback version targetVersion)
      return true

/-- `UDSClient.flash_firmware` -/
def flashFirmware (targetVersion : String) (rounds : ℕ) (messages : List (Except PyError Message))
    (firmware : Bytes) : Call PyError (Tester σ) Bool := do
  x.programFirmware firmware
  x.confirmBoot targetVersion rounds messages

end Bench

end VehicleOta.Uds
