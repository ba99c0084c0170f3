import VehicleOta.Data.Blocks
import VehicleOta.Hash.Sha256
import VehicleOta.Uds.Programming

/-!
# The tester's side of a download

The request builders and the response checks of `transport/uds/codec.py`, the calls that
`transport/uds/flash_manager.py` makes on a transport, and what `LibraryDoIPClient` of
`transport/doip/library_client.py` does with the responses.
-/

namespace VehicleOta.Uds

open BlockLogic

/-! ## Request builders -/

/-- The service builders of the `udsoncan` package.  The formats of address and size are those
`build_request_download` passes, 32 bits each. -/
structure UdsLibrary where
  routineControl (routineId : ℕ) (controlType : UInt8) (data : Bytes) : Except PyError Bytes
  requestDownload (address size : ℕ) : Except PyError Bytes
  transferData (sequenceNumber : ℕ) (payload : Bytes) : Except PyError Bytes
  requestTransferExit : Except PyError Bytes

/-- The payloads that the package documents for values in range. -/
structure UdsLibrary.Documented (library : UdsLibrary) : Prop where
  routineControl : ∀ routineId controlType data, routineId < 256 ^ 2 →
    library.routineControl routineId controlType data =
      .ok ([sidRoutineControl, controlType] ++ intToBytes 2 routineId ++ data)
  requestDownload : ∀ address size, address < 256 ^ 4 → size < 256 ^ 4 →
    library.requestDownload address size =
      .ok ([sidRequestDownload, 0x00, 0x44] ++ intToBytes 4 address ++ intToBytes 4 size)
  transferData : ∀ sequenceNumber payload, sequenceNumber < 256 →
    library.transferData sequenceNumber payload =
      .ok ([sidTransferData, UInt8.ofNat sequenceNumber] ++ payload)
  requestTransferExit : library.requestTransferExit = .ok [sidRequestTransferExit]

/-- The package, where it can be imported, keeps to its documentation. -/
def DocumentedLibrary (library? : Option UdsLibrary) : Prop :=
  ∀ library, library? = some library → library.Documented

def buildRoutineControlStart (library? : Option UdsLibrary) (routineId : ℕ) (data : Bytes) :
    Except PyError Bytes :=
  match library? with
  | some library => library.routineControl routineId routineControlStart data
  | none => do return [sidRoutineControl, routineControlStart] ++ (← toBytes 2 routineId) ++ data

def buildRequestDownload (library? : Option UdsLibrary) (memorySize memoryAddress : ℕ) :
    Except PyError Bytes :=
  match library? with
  | some library => library.requestDownload memoryAddress memorySize
  | none => do
      return [sidRequestDownload, 0x00, 0x44] ++ (← toBytes 4 memoryAddress) ++
        (← toBytes 4 memorySize)

def buildTransferData (library? : Option UdsLibrary) (sequenceNumber : ℕ) (payload : Bytes) :
    Except PyError Bytes :=
  match library? with
  | some library => library.transferData sequenceNumber payload
  | none => .ok ([sidTransferData, UInt8.ofNat (sequenceNumber &&& 0xFF)] ++ payload)

def buildRequestTransferExit (library? : Option UdsLibrary) : Except PyError Bytes :=
  match library? with
  | some library => library.requestTransferExit
  | none => .ok [sidRequestTransferExit]

theorem toBytes_of_lt {length n : ℕ} (h : n < 256 ^ length) :
    toBytes length n = .ok (intToBytes length n) := if_pos h

section Builders

variable {library? : Option UdsLibrary} (hlibrary : DocumentedLibrary library?)
include hlibrary

theorem buildRoutineControlStart_eq {routineId : ℕ} (h : routineId < 256 ^ 2) (data : Bytes) :
    buildRoutineControlStart library? routineId data =
      .ok ([sidRoutineControl, routineControlStart] ++ intToBytes 2 routineId ++ data) := by
  cases library? with
  | none => rw [buildRoutineControlStart, toBytes_of_lt h]; rfl
  | some library => exact (hlibrary library rfl).routineControl _ _ _ h

theorem buildRequestDownload_eq {size address : ℕ} (hsize : size < 256 ^ 4)
    (haddress : address < 256 ^ 4) :
    buildRequestDownload library? size address =
      .ok ([sidRequestDownload, 0x00, 0x44] ++ intToBytes 4 address ++ intToBytes 4 size) := by
  cases library? with
  | none => rw [buildRequestDownload, toBytes_of_lt hsize, toBytes_of_lt haddress]; rfl
  | some library => exact (hlibrary library rfl).requestDownload _ _ haddress hsize

theorem buildTransferData_eq {sequenceNumber : ℕ} (h : sequenceNumber < 256) (payload : Bytes) :
    buildTransferData library? sequenceNumber payload =
      .ok ([sidTransferData, UInt8.ofNat sequenceNumber] ++ payload) := by
  cases library? with
  | none =>
      have hbyte : sequenceNumber &&& 0xFF = sequenceNumber :=
        (Nat.and_two_pow_sub_one_eq_mod sequenceNumber 8).trans (Nat.mod_eq_of_lt h)
      rw [buildTransferData, hbyte]
  | some library => exact (hlibrary library rfl).transferData _ _ h

theorem buildRequestTransferExit_eq :
    buildRequestTransferExit library? = .ok [sidRequestTransferExit] := by
  cases library? with
  | none => rfl
  | some library => exact (hlibrary library rfl).requestTransferExit

end Builders

/-! ## Responses -/

def isNegativeResponse (payload : Bytes) : Bool :=
  3 ≤ payload.length ∧ payload.getD 0 0 = sidNegativeResponse

def isResponsePending (payload : Bytes) (requestSid : UInt8) : Bool :=
  isNegativeResponse payload ∧ payload.getD 1 0 = requestSid ∧
    payload.getD 2 0 = nrcResponsePending

/-- Two digits of `02X`. -/
def hexUpper (code : UInt8) : String := (Hash.hexDigest [code]).toUpper

def nrcName (code : UInt8) : String :=
  if code = nrcIncorrectLengthOrFormat then "incorrectLengthOrInvalidFormat"
  else if code = nrcConditionsNotCorrect then "conditionsNotCorrect"
  else if code = nrcRequestSequenceError then "requestSequenceError"
  else if code = nrcRequestOutOfRange then "requestOutOfRange"
  else if code = nrcSecurityAccessDenied then "securityAccessDenied"
  else if code = nrcInvalidKey then "invalidKey"
  else if code = nrcExceedNumberOfAttempts then "exceedNumberOfAttempts"
  else if code = nrcRequiredTimeDelayNotExpired then "requiredTimeDelayNotExpired"
  else if code = 0x70 then "uploadDownloadNotAccepted"
  else if code = nrcWrongBlockSequenceCounter then "wrongBlockSequenceCounter"
  else if code = nrcResponsePending then "responsePending"
  else if code = 0x7E then "subFunctionNotSupportedInActiveSession"
  else if code = nrcServiceNotSupportedInActiveSession then "serviceNotSupportedInActiveSession"
  else "unknownNRC_0x" ++ hexUpper code

/-- One round of the loop in `_expect_positive_response`; `none` where it reads on. -/
def checkResponse (requestSid : UInt8) (current : Bytes) : Option (Except PyError Bytes) :=
  if isResponsePending current requestSid then none
  else if isNegativeResponse current then
    some (.error (.runtimeError ("UDS request 0x" ++ hexUpper requestSid ++ " rejected with NRC 0x" ++
      hexUpper (current.getD 2 0) ++ " (" ++ nrcName (current.getD 2 0) ++ ")")))
  else if current.head? ≠ some (positiveResponseSid requestSid) then
    some (.error (.runtimeError ("Unexpected UDS response for 0x" ++ hexUpper requestSid ++ ": " ++
      Hash.hexDigest current)))
  else some (.ok current)

/-- `_expect_positive_response` on the responses in the order they come; a response that does
not come ends in the time-out. -/
def expectPositiveResponse (requestSid : UInt8) : List Bytes → Except PyError Bytes
  | [] => .error (.timeoutError "Timed out waiting for diagnostic response")
  | current :: later => (checkResponse requestSid current).getD (expectPositiveResponse requestSid later)

theorem checkResponse_positive {requestSid : UInt8}
    (h : positiveResponseSid requestSid ≠ sidNegativeResponse) (parameters : Bytes) :
    checkResponse requestSid (positiveResponseSid requestSid :: parameters) =
      some (.ok (positiveResponseSid requestSid :: parameters)) := by
  have hnot : isNegativeResponse (positiveResponseSid requestSid :: parameters) = false :=
    decide_eq_false fun hneg ↦ h hneg.2
  have hpending : isResponsePending (positiveResponseSid requestSid :: parameters) requestSid =
      false := decide_eq_false fun hneg ↦ Bool.false_ne_true (hnot.symm.trans hneg.1)
  rw [checkResponse, hpending, hnot]
  simp

theorem checkResponse_pending (requestSid : UInt8) :
    checkResponse requestSid [sidNegativeResponse, requestSid, nrcResponsePending] = none := by
  simp [checkResponse, isResponsePending, isNegativeResponse]

/-! ## The flash manager -/

namespace FlashManager

/-- `transport.erase_memory(size)` sends this request. -/
def eraseMemory (library? : Option UdsLibrary) (size : ℕ) : Except PyError Bytes := do
  buildRoutineControlStart library? routineEraseMemory (← toBytes 4 size)

def requestDownload (library? : Option UdsLibrary) (size : ℕ) : Except PyError Bytes :=
  buildRequestDownload library? size 0x00000000

/-- The calls of `transport.transfer_data` for the chunks at these offsets. -/
def transferLoop (chunkSize : ℕ) (firmware : Bytes) (seq : ℕ) : List ℕ → List (ℕ × Bytes)
  | [] => []
  | i :: offsets =>
      (seq, slice firmware i (i + chunkSize)) ::
        transferLoop chunkSize firmware ((seq + 1) &&& 0xFF) offsets

/-- `transfer_data` -/
def transferData (chunkSize : ℕ) (firmware : Bytes) : List (ℕ × Bytes) :=
  transferLoop chunkSize firmware 1 (rangeStep firmware.length chunkSize)

theorem slice_eq_block (chunkSize : ℕ) (firmware : Bytes) (i : ℕ) :
    slice firmware (i * chunkSize) (i * chunkSize + chunkSize) = block chunkSize firmware i := by
  rw [slice, block, List.drop_take, Nat.add_sub_cancel_left]

theorem transferLoop_range (chunkSize : ℕ) (firmware : Bytes) (k n : ℕ) :
    transferLoop chunkSize firmware ((k + 1) % 256) ((List.range' k n).map (· * chunkSize)) =
      (List.range' k n).map fun i ↦ ((i + 1) % 256, block chunkSize firmware i) := by
  induction n generalizing k with
  | zero => rfl
  | succ n ih =>
      have hnext : ((k + 1) % 256 + 1) &&& 0xFF = (k + 1 + 1) % 256 := by
        rw [show ((k + 1) % 256 + 1) &&& 0xFF = ((k + 1) % 256 + 1) % 256 from
          Nat.and_two_pow_sub_one_eq_mod _ 8]
        omega
      rw [List.range'_succ, List.map_cons, transferLoop, slice_eq_block, hnext, ih, List.map_cons]

/-- Chunk `i` is sent under the number `i + 1`, modulo the 256 values of a byte. -/
theorem transferData_eq (chunkSize : ℕ) (firmware : Bytes) :
    transferData chunkSize firmware = (List.range (blockCount chunkSize firmware)).map fun i ↦
      ((i + 1) % 256, block chunkSize firmware i) := by
  rw [transferData, rangeStep, List.range_eq_range', List.range_eq_range']
  exact transferLoop_range chunkSize firmware 0 _

end FlashManager

end VehicleOta.Uds
