import VehicleOta.Common.Version
import VehicleOta.Python.Hex

/-!
# UDS codes and security keys

`transport/uds/codec.py` and `transport/uds/security.py`: the identifiers the two servers
use, and the key a tester has to return for a seed.
-/

namespace VehicleOta.Uds

/-! ## Service identifiers and response codes -/

def sidDiagnosticSessionControl : UInt8 := 0x10
def sidEcuReset : UInt8 := 0x11
def sidReadDataByIdentifier : UInt8 := 0x22
def sidSecurityAccess : UInt8 := 0x27
def sidRoutineControl : UInt8 := 0x31
def sidRequestDownload : UInt8 := 0x34
def sidTransferData : UInt8 := 0x36
def sidRequestTransferExit : UInt8 := 0x37
def sidTesterPresent : UInt8 := 0x3E

def sidNegativeResponse : UInt8 := 0x7F
def nrcSubFunctionNotSupported : UInt8 := 0x12
def nrcServiceNotSupported : UInt8 := 0x11
def nrcIncorrectLengthOrFormat : UInt8 := 0x13
def nrcConditionsNotCorrect : UInt8 := 0x22
def nrcRequestSequenceError : UInt8 := 0x24
def nrcRequestOutOfRange : UInt8 := 0x31
def nrcSecurityAccessDenied : UInt8 := 0x33
def nrcInvalidKey : UInt8 := 0x35
def nrcExceedNumberOfAttempts : UInt8 := 0x36
def nrcRequiredTimeDelayNotExpired : UInt8 := 0x37
def nrcGeneralProgrammingFailure : UInt8 := 0x72
def nrcWrongBlockSequenceCounter : UInt8 := 0x73
def nrcResponsePending : UInt8 := 0x78
def nrcServiceNotSupportedInActiveSession : UInt8 := 0x7F

def didSoftwareVersion : ℕ := 0xF188

def defaultSessionProgramming : UInt8 := 0x02
def securityAccessRequestSeed : UInt8 := 0x01
def securityAccessSendKey : UInt8 := 0x02
def routineControlStart : UInt8 := 0x01

def routineEraseMemory : ℕ := 0xFF00
def routineVerifyImage : ℕ := 0xFF01
def routineActivateImage : ℕ := 0xFF02

def positiveResponseSid (requestSid : UInt8) : UInt8 := requestSid + 0x40

/-! ## Security keys -/

def demoSecurityXorKey : Bytes := [0xA5, 0x5A, 0x3C, 0xC3]

/-- `(key * n)[: length]` with as many copies as the length needs. -/
def repeatKey (key : Bytes) (length : ℕ) : Bytes :=
  ((List.replicate ((length + key.length - 1) / key.length) key).flatten).take length

def deriveDemoSecurityKey (seed : Bytes) : Bytes :=
  if seed.isEmpty then []
  else List.zipWith (· ^^^ ·) seed (repeatKey demoSecurityXorKey seed.length)

/-- The environment variables `OTA_SECURITY_MODE` and `OTA_SECURITY_STATIC_KEY_HEX`. -/
structure SecurityEnvironment where
  mode : String := "demo_xor"
  staticKeyHex : String := ""

def staticSecurityKey (raw : List Char) (seed : Bytes) : Except PyError Bytes :=
  if raw.isEmpty then
    .error (.runtimeError
      "OTA_SECURITY_STATIC_KEY_HEX must be set when OTA_SECURITY_MODE=static")
  else
    match fromHex raw with
    | .error e => .error e
    | .ok key =>
        if key.isEmpty then
          .error (.runtimeError "OTA_SECURITY_STATIC_KEY_HEX must not be empty")
        else .ok (repeatKey key seed.length)

/-- Lower case on the ASCII letters decides whether the mode reads "static". -/
def deriveSecurityKey (env : SecurityEnvironment) (seed : Bytes) : Except PyError Bytes :=
  if (strip env.mode.toList).map Char.toLower = "static".toList then
    staticSecurityKey (strip env.staticKeyHex.toList) seed
  else .ok (deriveDemoSecurityKey seed)

end VehicleOta.Uds
