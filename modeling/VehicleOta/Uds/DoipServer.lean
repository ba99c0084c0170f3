import VehicleOta.Uds.Programming

/-!
# The flash proxy of the DoIP gateway

`ECUContext` of `ecus/gateway/ecu_context.py` and `DoIPServer._handle_raw_uds_message` of
`transport/doip/server.py`.  There is no runtime control here and no flag for a requested
download.
-/

namespace VehicleOta.Uds

open ProgrammingServer

structure Profile where
  firmwareFile : String
  targetVersion : String

structure ECUContext where
  ecuKey : String
  logicalAddress : ℕ
  profile : Profile
  targetVersion : String
  base : ProgrammingState := {}
  downloadVerified : Bool := false

namespace ECUContext

/-- The context after `__init__`. -/
def initial (ecuKey : String) (logicalAddress : ℕ) (profile : Profile) : ECUContext :=
  { ecuKey, logicalAddress, profile, targetVersion := profile.targetVersion }

instance : ProgrammingServer ECUContext where
  base := base
  setBase ecu b := { ecu with base := b }
  resetProgrammingState ecu := { ecu with base := ecu.base.reset }
  downloadRequested _ := false
  identifier := logicalAddress
  firmwareFile ecu := ecu.profile.firmwareFile
  installCall ecu := .install ecu.ecuKey ecu.profile.firmwareFile ecu.targetVersion
  base_setBase _ _ := rfl
  downloadRequested_setBase _ _ := rfl
  base_reset ecu := ⟨ecu.base.installStarted, rfl⟩
  downloadRequested_reset _ := rfl
  firmwareFile_setBase _ _ := rfl
  firmwareFile_reset _ := rfl
  installCall_isInstall ecu := ⟨ecu.ecuKey, ecu.targetVersion, rfl⟩

def eraseMemory (routineData : Bytes) (ecu : ECUContext) : ECUContext :=
  { ecu with
    base := { ecu.base.erase routineData with installStarted := false }
    downloadVerified := false }

def beginDownload (size : ℕ) (ecu : ECUContext) : ECUContext :=
  { ecu with
    base := ecu.base.beginDownload size
    downloadVerified := false
    targetVersion := ecu.profile.targetVersion }

/-- The size is read from the end of the payload, however short that is. -/
def requestDownload (blockLength : ℕ) : Request → ECUContext → Outcome ECUContext := fun r ↦
  requireProgrammingSession sidRequestDownload (fun ecu ↦
    if ¬ ecu.base.securityUnlocked ∨ ¬ ecu.base.eraseCompleted then
      negative sidRequestDownload nrcConditionsNotCorrect ecu
    else
      reply ([positiveResponseSid sidRequestDownload, 0x00, 0x44] ++ intToBytes 2 blockLength)
        (ecu.beginDownload (intFromBytes (lastBytes r.payload 4)))) r

def transferData : Request → ECUContext → Outcome ECUContext := fun r ↦
  requireProgrammingSession sidTransferData (fun ecu ↦
    if r.payload.length < 2 then negative sidTransferData nrcIncorrectLengthOrFormat ecu
    else if ¬ ecu.base.securityUnlocked then negative sidTransferData nrcSecurityAccessDenied ecu
    else receiveBlock r ecu) r

def conclude (passed : Bool) (ecu : ECUContext) : ECUContext :=
  { ecu with
    base := { ecu.base with installPending := passed, installStarted := false }
    downloadVerified := passed }

/-- Whether a download was requested is not asked. -/
def requestTransferExit : Request → ECUContext → Outcome ECUContext := fun r ↦
  requireProgrammingSession sidRequestTransferExit (fun ecu ↦
    if ¬ ecu.base.securityUnlocked then
      negative sidRequestTransferExit nrcSecurityAccessDenied ecu
    else if ecu.base.lengthMismatch then
      negative sidRequestTransferExit nrcIncorrectLengthOrFormat ecu
    else saveAndVerify conclude r ecu) r

/-- The services of `_handle_raw_uds_message`; `none` where it returns false. -/
def serve (blockLength : ℕ) (serviceId : UInt8) (r : Request) (ecu : ECUContext) :
    Option (Outcome ECUContext) :=
  if serviceId = sidDiagnosticSessionControl then some (diagnosticSessionControl r ecu)
  else if serviceId = sidTesterPresent then some (testerPresent r ecu)
  else if serviceId = sidReadDataByIdentifier then some (readDataByIdentifier r ecu)
  else if serviceId = sidSecurityAccess then some (securityAccess r ecu)
  else if serviceId = sidRoutineControl then some (routineControl eraseMemory r ecu)
  else if serviceId = sidRequestDownload then some (requestDownload blockLength r ecu)
  else if serviceId = sidTransferData then some (transferData r ecu)
  else if serviceId = sidRequestTransferExit then some (requestTransferExit r ecu)
  else if serviceId = sidEcuReset then some (ecuReset r ecu)
  else none

/-- `_handle_raw_uds_message` -/
def handleRawUdsMessage (blockLength : ℕ) (r : Request) (ecu : ECUContext) :
    Option (Outcome ECUContext) :=
  match r.payload with
  | [] => none
  | serviceId :: _ => serve blockLength serviceId r ecu

/-- A message that is not handled changes nothing in the context. -/
def handle (blockLength : ℕ) (r : Request) (ecu : ECUContext) : Outcome ECUContext :=
  (handleRawUdsMessage blockLength r ecu).getD ⟨ecu, [], none⟩

theorem handle_of_head {blockLength : ℕ} {r : Request} {ecu : ECUContext} {serviceId : UInt8}
    (hhead : r.payload.head? = some serviceId) :
    handle blockLength r ecu = (serve blockLength serviceId r ecu).getD ⟨ecu, [], none⟩ := by
  obtain ⟨rest, hpayload⟩ := List.head?_eq_some_iff.mp hhead
  rw [handle, handleRawUdsMessage, hpayload]

theorem handle_of_nil {blockLength : ℕ} {r : Request} {ecu : ECUContext} (hpayload : r.payload = []) :
    handle blockLength r ecu = ⟨ecu, [], none⟩ := by
  rw [handle, handleRawUdsMessage, hpayload, Option.getD_none]

/-- The outcomes of `serve`, by the service that is asked for. -/
inductive Served (blockLength : ℕ) (r : Request) (ecu : ECUContext) :
    UInt8 → Option (Outcome ECUContext) → Prop
  | diagnosticSessionControl :
      Served blockLength r ecu sidDiagnosticSessionControl (some (diagnosticSessionControl r ecu))
  | testerPresent : Served blockLength r ecu sidTesterPresent (some (testerPresent r ecu))
  | readDataByIdentifier :
      Served blockLength r ecu sidReadDataByIdentifier (some (readDataByIdentifier r ecu))
  | securityAccess : Served blockLength r ecu sidSecurityAccess (some (securityAccess r ecu))
  | routineControl :
      Served blockLength r ecu sidRoutineControl (some (routineControl eraseMemory r ecu))
  | requestDownload :
      Served blockLength r ecu sidRequestDownload (some (requestDownload blockLength r ecu))
  | transferData : Served blockLength r ecu sidTransferData (some (transferData r ecu))
  | requestTransferExit :
      Served blockLength r ecu sidRequestTransferExit (some (requestTransferExit r ecu))
  | ecuReset : Served blockLength r ecu sidEcuReset (some (ecuReset r ecu))
  | unhandled (serviceId : UInt8) (hne : ∀ other ∈ [sidDiagnosticSessionControl, sidTesterPresent,
      sidReadDataByIdentifier, sidSecurityAccess, sidRoutineControl, sidRequestDownload,
      sidTransferData, sidRequestTransferExit, sidEcuReset], serviceId ≠ other) :
      Served blockLength r ecu serviceId none

theorem served (blockLength : ℕ) (serviceId : UInt8) (r : Request) (ecu : ECUContext) :
    Served blockLength r ecu serviceId (serve blockLength serviceId r ecu) := by
  unfold serve
  split_ifs with h h h h h h h h h
  · exact h ▸ .diagnosticSessionControl
  · exact h ▸ .testerPresent
  · exact h ▸ .readDataByIdentifier
  · exact h ▸ .securityAccess
  · exact h ▸ .routineControl
  · exact h ▸ .requestDownload
  · exact h ▸ .transferData
  · exact h ▸ .requestTransferExit
  · exact h ▸ .ecuReset
  · refine .unhandled serviceId ?_
    simp only [List.forall_mem_cons, List.not_mem_nil, false_implies, implies_true, and_true]
    exact ⟨by assumption, by assumption, by assumption, by assumption, by assumption,
      by assumption, by assumption, by assumption, by assumption⟩

end ECUContext

end VehicleOta.Uds
