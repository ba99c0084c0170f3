import VehicleOta.Hash.Sha256
import VehicleOta.Uds.Codec

/-!
# What the two programming servers share

`ecus/base/uds_can_programmer.py` and `transport/doip/server.py` implement the same UDS
services over the same `FirmwareReceiver` and, but for a few flags, the same attributes.
A service takes the request and the state of the server, and returns the state it leaves,
what it did in order, and the exception that escaped, if any.  `expected_size` and
`received_size` are the `expected_download_size` and `download_received_size` of the
gateway.
-/

namespace VehicleOta.Uds

/-! ## The receive buffer -/

structure FirmwareReceiver where
  buffer : Bytes := []
  chunkCount : ℕ := 0
  expectedSize : Option ℕ := none

namespace FirmwareReceiver

def clear (_ : FirmwareReceiver) : FirmwareReceiver := {}

def setExpectedSize (f : FirmwareReceiver) (size : ℕ) : FirmwareReceiver :=
  { f with expectedSize := some size }

def firmwareData (f : FirmwareReceiver) : Bytes :=
  match f.expectedSize with
  | none => f.buffer
  | some size => f.buffer.take size

def sha256 (f : FirmwareReceiver) : Bytes := Hash.sha256 f.firmwareData

/-- The first component of `verify`, on what `open(original_path)` read. -/
def verify (f : FirmwareReceiver) (original : Bytes) : Bool := Hash.sha256 original = f.sha256

end FirmwareReceiver

/-! ## Requests and what a server does with them -/

/-- A request, with what the server reads from its surroundings while it handles it: the
runtime control of the ECU, the readings of `time.monotonic()` in the expiry check, in
`_touch_session` and in the security service, the environment of the key derivation, the
original image and the current version. -/
structure Request where
  payload : Bytes
  diagnosticsEnabled : Bool := true
  programmingEnabled : Bool := true
  expiryClock : ℚ := 0
  touchClock : ℚ := 0
  securityClock : ℚ := 0
  security : SecurityEnvironment := {}
  original : Except PyError Bytes := .error (.fileNotFoundError
    "[Errno 2] No such file or directory: 'firmware/releases/2.0.0/bcm_v2.bin'")
  currentVersion : Except PyError String := .ok "1.0.0"

inductive Action where
  | send (payload : Bytes)
  | expire
  | save (file : String) (data : Bytes)
  | compare (original data : Bytes) (passed : Bool)
  | install (ecuKey file version : String)
  deriving DecidableEq

structure Outcome (σ : Type) where
  state : σ
  actions : List Action := []
  error : Option PyError := none

/-- The outcome when `actions` came first. -/
def Outcome.after {σ : Type} (actions : List Action) (o : Outcome σ) : Outcome σ :=
  { o with actions := actions ++ o.actions }

def reply {σ : Type} (payload : Bytes) (s : σ) : Outcome σ := ⟨s, [.send payload], none⟩

@[simp] theorem reply_state {σ : Type} (payload : Bytes) (s : σ) : (reply payload s).state = s :=
  rfl

def negative {σ : Type} (serviceId code : UInt8) (s : σ) : Outcome σ :=
  reply [sidNegativeResponse, serviceId, code] s

def responsePending (serviceId : UInt8) : Action :=
  .send [sidNegativeResponse, serviceId, nrcResponsePending]

/-! ## Attributes -/

structure ProgrammingState where
  receiver : FirmwareReceiver := {}
  expectedSize : ℕ := 0
  receivedSize : ℕ := 0
  installPending : Bool := false
  installStarted : Bool := false
  securityUnlocked : Bool := false
  pendingSeed : Bytes := []
  seedCounter : ℕ := 0
  eraseCompleted : Bool := false
  activationMarked : Bool := false
  currentSession : UInt8 := 0x00
  sessionStartedAt : ℚ := 0
  securityFailures : ℕ := 0
  securityLockedUntil : ℚ := 0
  expectedTransferSequence : ℕ := 1

namespace ProgrammingState

/-- The assignments that both versions of `_reset_programming_state` make. -/
def reset (b : ProgrammingState) : ProgrammingState :=
  { b with
    securityUnlocked := false
    pendingSeed := []
    eraseCompleted := false
    activationMarked := false
    installPending := false
    expectedSize := 0
    receivedSize := 0
    expectedTransferSequence := 1 }

def setSession (session : UInt8) (b : ProgrammingState) : ProgrammingState :=
  { b with currentSession := session }

def touchSession (now : ℚ) (b : ProgrammingState) : ProgrammingState :=
  { b with sessionStartedAt := now }

def sessionTimeoutSeconds : ℚ := 120

/-- The conditions under which `_expire_session_if_needed` closes the session. -/
def sessionExpired (now : ℚ) (b : ProgrammingState) : Bool :=
  b.currentSession = defaultSessionProgramming ∧ b.sessionStartedAt ≠ 0 ∧
    ¬ now - b.sessionStartedAt ≤ sessionTimeoutSeconds

end ProgrammingState

/-- A server with these attributes.  `downloadRequested` is constantly false on the server
that has no such flag. -/
class ProgrammingServer (σ : Type) where
  base : σ → ProgrammingState
  setBase : σ → ProgrammingState → σ
  /-- `_reset_programming_state` -/
  resetProgrammingState : σ → σ
  downloadRequested : σ → Bool
  /-- The number `_generate_seed` builds seeds from. -/
  identifier : σ → ℕ
  firmwareFile : σ → String
  /-- The call of `FirmwareInstaller.install` in the thread that `ECUReset` starts. -/
  installCall : σ → Action
  base_setBase : ∀ s b, base (setBase s b) = b
  downloadRequested_setBase : ∀ s b, downloadRequested (setBase s b) = downloadRequested s
  base_reset : ∀ s, ∃ started,
    base (resetProgrammingState s) = { (base s).reset with installStarted := started }
  downloadRequested_reset : ∀ s, downloadRequested (resetProgrammingState s) = false
  firmwareFile_setBase : ∀ s b, firmwareFile (setBase s b) = firmwareFile s
  firmwareFile_reset : ∀ s, firmwareFile (resetProgrammingState s) = firmwareFile s
  installCall_isInstall : ∀ s, ∃ key version, installCall s = .install key (firmwareFile s) version

open ProgrammingServer

attribute [simp] base_setBase downloadRequested_setBase downloadRequested_reset
  firmwareFile_setBase firmwareFile_reset

section Services

variable {σ : Type} [ProgrammingServer σ]

/-- Assignments to attributes of the server. -/
def update (f : ProgrammingState → ProgrammingState) (s : σ) : σ := setBase s (f (base s))

@[simp] theorem base_update (f : ProgrammingState → ProgrammingState) (s : σ) :
    base (update f s) = f (base s) := base_setBase _ _

@[simp] theorem downloadRequested_update (f : ProgrammingState → ProgrammingState) (s : σ) :
    downloadRequested (update f s) = downloadRequested s := downloadRequested_setBase _ _

@[simp] theorem firmwareFile_update (f : ProgrammingState → ProgrammingState) (s : σ) :
    firmwareFile (update f s) = firmwareFile s := firmwareFile_setBase _ _

/-! ## Sessions -/

/-- `_expire_session_if_needed` -/
def expireSessionIfNeeded (r : Request) (s : σ) : Outcome σ :=
  if (base s).sessionExpired r.expiryClock then
    ⟨resetProgrammingState (update (.setSession 0x00) s), [.expire], none⟩
  else ⟨s, [], none⟩

/-- `_require_programming_session`, followed by the service where it returns true. -/
def requireProgrammingSession (serviceId : UInt8) (service : σ → Outcome σ) (r : Request)
    (s : σ) : Outcome σ :=
  let expired := expireSessionIfNeeded r s
  if (base expired.state).currentSession ≠ defaultSessionProgramming then
    (negative serviceId nrcServiceNotSupportedInActiveSession expired.state).after expired.actions
  else (service (update (.touchSession r.touchClock) expired.state)).after expired.actions

def diagnosticSessionControl (r : Request) (s : σ) : Outcome σ :=
  let session := r.payload.getD 1 0x00
  reply [positiveResponseSid sidDiagnosticSessionControl, session]
    (update (.touchSession r.touchClock) (resetProgrammingState (update (.setSession session) s)))

def testerPresent (r : Request) (s : σ) : Outcome σ :=
  let subfunction := r.payload.getD 1 0x00
  let expired := expireSessionIfNeeded r s
  let touched :=
    if (base expired.state).currentSession = defaultSessionProgramming then
      update (.touchSession r.touchClock) expired.state
    else expired.state
  (reply [positiveResponseSid sidTesterPresent, subfunction] touched).after expired.actions

def readDataByIdentifier (r : Request) (s : σ) : Outcome σ :=
  if r.payload.length < 3 then
    negative sidReadDataByIdentifier nrcIncorrectLengthOrFormat s
  else if intFromBytes (slice r.payload 1 3) ≠ didSoftwareVersion then
    negative sidReadDataByIdentifier nrcRequestOutOfRange s
  else
    match r.currentVersion with
    | .error e => ⟨s, [], some e⟩
    | .ok version =>
        reply (positiveResponseSid sidReadDataByIdentifier :: slice r.payload 1 3 ++
          version.toUTF8.toList) s

/-! ## SecurityAccess -/

def securityAttemptLimit : ℕ := 3

def securityLockoutSeconds : ℚ := 30

def nextSeedCounter (b : ProgrammingState) : ℕ := (b.seedCounter + 1) &&& 0xFFFFFFFF

/-- The seed `_generate_seed` returns. -/
def generateSeed (identifier : ℕ) (b : ProgrammingState) : Bytes :=
  intToBytes 4 (((identifier &&& 0xFFFF) <<< 16) ||| nextSeedCounter b)

def ProgrammingState.issueSeed (seed : Bytes) (b : ProgrammingState) : ProgrammingState :=
  { b with seedCounter := nextSeedCounter b, pendingSeed := seed, securityUnlocked := false }

def ProgrammingState.countFailure (b : ProgrammingState) : ProgrammingState :=
  { b with
    securityUnlocked := false
    securityFailures := b.securityFailures + 1
    pendingSeed := [] }

def ProgrammingState.lockSecurity (until_ : ℚ) (b : ProgrammingState) : ProgrammingState :=
  { b with securityLockedUntil := until_ }

def ProgrammingState.unlock (b : ProgrammingState) : ProgrammingState :=
  { b with securityUnlocked := true, securityFailures := 0, pendingSeed := [] }

def requestSeed (r : Request) (s : σ) : Outcome σ :=
  if r.securityClock < (base s).securityLockedUntil then
    negative sidSecurityAccess nrcRequiredTimeDelayNotExpired s
  else
    let seed := generateSeed (identifier s) (base s)
    reply ([positiveResponseSid sidSecurityAccess, securityAccessRequestSeed] ++ seed)
      (update (.issueSeed seed) s)

/-- The branch of a key that does not match. -/
def rejectKey (r : Request) (s : σ) : Outcome σ :=
  let counted := update ProgrammingState.countFailure s
  if securityAttemptLimit ≤ (base counted).securityFailures then
    negative sidSecurityAccess nrcExceedNumberOfAttempts
      (update (.lockSecurity (r.securityClock + securityLockoutSeconds)) counted)
  else negative sidSecurityAccess nrcInvalidKey counted

def sendKey (r : Request) (s : σ) : Outcome σ :=
  if (base s).pendingSeed.isEmpty then negative sidSecurityAccess nrcRequestSequenceError s
  else
    match deriveSecurityKey r.security (base s).pendingSeed with
    | .error e => ⟨s, [], some e⟩
    | .ok expectedKey =>
        if r.payload.drop 2 ≠ expectedKey then rejectKey r s
        else
          reply [positiveResponseSid sidSecurityAccess, securityAccessSendKey]
            (update ProgrammingState.unlock s)

def securityAccess : Request → σ → Outcome σ := fun r ↦
  requireProgrammingSession sidSecurityAccess (fun s ↦
    if r.payload.length < 2 then negative sidSecurityAccess nrcIncorrectLengthOrFormat s
    else if r.payload.getD 1 0 = securityAccessRequestSeed then requestSeed r s
    else if r.payload.getD 1 0 = securityAccessSendKey then sendKey r s
    else negative sidSecurityAccess nrcSubFunctionNotSupported s) r

/-! ## RoutineControl -/

/-- The assignments of the erase routine that both servers make. -/
def ProgrammingState.erase (routineData : Bytes) (b : ProgrammingState) : ProgrammingState :=
  { b with
    receiver := b.receiver.clear
    expectedSize := if 4 ≤ routineData.length then intFromBytes (routineData.take 4) else 0
    receivedSize := 0
    installPending := false
    eraseCompleted := true
    activationMarked := false
    expectedTransferSequence := 1 }

def ProgrammingState.markActivation (b : ProgrammingState) : ProgrammingState :=
  { b with activationMarked := true }

/-- The two responses of a routine: response pending, then the positive one. -/
def routineResponses (r : Request) : List Action :=
  [responsePending sidRoutineControl,
    .send ([positiveResponseSid sidRoutineControl, r.payload.getD 1 0] ++ slice r.payload 2 4)]

/-- Routine control with type `start`; `erase` is the server's own erase routine. -/
def startRoutine (erase : Bytes → σ → σ) (r : Request) (s : σ) : Outcome σ :=
  let routineId := intFromBytes (slice r.payload 2 4)
  if routineId = routineEraseMemory then
    ⟨erase (r.payload.drop 4) s, routineResponses r, none⟩
  else if routineId = routineVerifyImage then
    if ¬ (base s).installPending then negative sidRoutineControl nrcGeneralProgrammingFailure s
    else ⟨s, routineResponses r, none⟩
  else if routineId = routineActivateImage then
    if ¬ (base s).installPending then negative sidRoutineControl nrcGeneralProgrammingFailure s
    else ⟨update ProgrammingState.markActivation s, routineResponses r, none⟩
  else negative sidRoutineControl nrcRequestOutOfRange s

def routineControl (erase : Bytes → σ → σ) : Request → σ → Outcome σ := fun r ↦
  requireProgrammingSession sidRoutineControl (fun s ↦
    if r.payload.length < 4 then negative sidRoutineControl nrcIncorrectLengthOrFormat s
    else if ¬ (base s).securityUnlocked then
      negative sidRoutineControl nrcSecurityAccessDenied s
    else if r.payload.getD 1 0 ≠ routineControlStart then
      negative sidRoutineControl nrcSubFunctionNotSupported s
    else startRoutine erase r s) r

/-! ## Transfer -/

/-- The assignments of a positive `RequestDownload` that both servers make. -/
def ProgrammingState.beginDownload (size : ℕ) (b : ProgrammingState) : ProgrammingState :=
  { b with
    receiver := b.receiver.clear
    expectedSize := size
    receivedSize := 0
    installPending := false
    installStarted := false
    expectedTransferSequence := 1 }

/-- The part of a block that still belongs to the download. -/
def ProgrammingState.chunk (data : Bytes) (b : ProgrammingState) : Bytes :=
  data.take (b.expectedSize - b.receivedSize)

def ProgrammingState.receive (chunk : Bytes) (b : ProgrammingState) : ProgrammingState :=
  { b with
    receiver := { b.receiver with
      buffer := b.receiver.buffer ++ chunk
      chunkCount := b.receiver.chunkCount + 1 }
    receivedSize := b.receivedSize + chunk.length
    expectedTransferSequence := (b.expectedTransferSequence + 1) &&& 0xFF }

/-- `TransferData` behind the checks of session, length and access. -/
def receiveBlock (r : Request) (s : σ) : Outcome σ :=
  let sequence := r.payload.getD 1 0
  if sequence.toNat ≠ (base s).expectedTransferSequence &&& 0xFF then
    negative sidTransferData nrcWrongBlockSequenceCounter s
  else
    let chunk := (base s).chunk (r.payload.drop 2)
    if chunk.isEmpty ∧ (base s).expectedSize ≠ 0 then
      negative sidTransferData nrcRequestOutOfRange s
    else reply [positiveResponseSid sidTransferData, sequence] (update (.receive chunk) s)

/-- `RequestTransferExit` behind its checks: save the buffer, compare it with the original.
`conclude` stores the result in the server. -/
def saveAndVerify (conclude : Bool → σ → σ) (r : Request) (s : σ) : Outcome σ :=
  let data := (base s).receiver.firmwareData
  let saved := [responsePending sidRequestTransferExit, .save (firmwareFile s) data]
  match r.original with
  | .error e => ⟨s, saved, some e⟩
  | .ok original =>
      let passed := (base s).receiver.verify original
      let verdict := if passed then [positiveResponseSid sidRequestTransferExit]
        else [sidNegativeResponse, sidRequestTransferExit, nrcGeneralProgrammingFailure]
      ⟨conclude passed s, saved ++ [.compare original data passed, .send verdict], none⟩

/-- The test of `RequestTransferExit` on the length of the download. -/
def ProgrammingState.lengthMismatch (b : ProgrammingState) : Bool :=
  b.expectedSize ≠ 0 ∧ b.receivedSize ≠ b.expectedSize

/-! ## ECUReset -/

/-- The condition under which `ECUReset` starts the install thread. -/
def ProgrammingState.installReady (b : ProgrammingState) : Bool :=
  b.installPending ∧ b.activationMarked ∧ ¬ b.installStarted

def ProgrammingState.startInstall (b : ProgrammingState) : ProgrammingState :=
  { b with installStarted := true }

def resetEcu (r : Request) (s : σ) : Outcome σ :=
  let answer := Action.send [positiveResponseSid sidEcuReset, r.payload.getD 1 0x01]
  if (base s).installReady then
    ⟨resetProgrammingState (update (.setSession 0x00) (update ProgrammingState.startInstall s)),
      [answer, installCall s], none⟩
  else ⟨resetProgrammingState (update (.setSession 0x00) s), [answer], none⟩

def ecuReset : Request → σ → Outcome σ := fun r ↦
  requireProgrammingSession sidEcuReset (resetEcu r) r

end Services

end VehicleOta.Uds
