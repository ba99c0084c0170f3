import VehicleOta.Trace.Since
import VehicleOta.Uds.Programming

/-!
# The CAN programmer of an ECU

`UDSCanProgrammer._handle_uds` of `ecus/base/uds_can_programmer.py`.
-/

namespace VehicleOta.Uds

open ProgrammingServer

structure UDSCanProgrammer where
  ecuId : ℕ
  ecuKey : String
  firmwareFile : String
  targetVersion : String
  base : ProgrammingState := {}
  downloadRequested : Bool := false

namespace UDSCanProgrammer

def resetProgrammingState (p : UDSCanProgrammer) : UDSCanProgrammer :=
  { p with
    base := { p.base.reset with installStarted := false }
    downloadRequested := false }

instance : ProgrammingServer UDSCanProgrammer where
  base := base
  setBase p b := { p with base := b }
  resetProgrammingState := resetProgrammingState
  downloadRequested := downloadRequested
  identifier := ecuId
  firmwareFile := firmwareFile
  installCall p := .install p.ecuKey p.firmwareFile p.targetVersion
  base_setBase _ _ := rfl
  downloadRequested_setBase _ _ := rfl
  base_reset _ := ⟨false, rfl⟩
  downloadRequested_reset _ := rfl
  firmwareFile_setBase _ _ := rfl
  firmwareFile_reset _ := rfl
  installCall_isInstall p := ⟨p.ecuKey, p.targetVersion, rfl⟩

/-- Both ends of `receiver.set_expected_size(self.expected_size)`. -/
def limitReceiver (b : ProgrammingState) : ProgrammingState :=
  { b with receiver := b.receiver.setExpectedSize b.expectedSize }

def eraseMemory (routineData : Bytes) (p : UDSCanProgrammer) : UDSCanProgrammer :=
  { p with base := limitReceiver (p.base.erase routineData) }

def beginDownload (size : ℕ) (p : UDSCanProgrammer) : UDSCanProgrammer :=
  { p with
    base := limitReceiver (p.base.beginDownload size)
    downloadRequested := true }

def requestDownload : Request → UDSCanProgrammer → Outcome UDSCanProgrammer := fun r ↦
  requireProgrammingSession sidRequestDownload (fun p ↦
    if ¬ p.base.securityUnlocked ∨ ¬ p.base.eraseCompleted then
      negative sidRequestDownload nrcConditionsNotCorrect p
    else if r.payload.length < 11 then
      negative sidRequestDownload nrcIncorrectLengthOrFormat p
    else if r.payload.getD 1 0 ≠ 0x00 ∨ r.payload.getD 2 0 ≠ 0x44 then
      negative sidRequestDownload nrcRequestOutOfRange p
    else
      reply [positiveResponseSid sidRequestDownload, 0x00, 0x44, 0x00, 0x40]
        (p.beginDownload (intFromBytes (lastBytes r.payload 4)))) r

def transferData : Request → UDSCanProgrammer → Outcome UDSCanProgrammer := fun r ↦
  requireProgrammingSession sidTransferData (fun p ↦
    if r.payload.length < 2 then negative sidTransferData nrcIncorrectLengthOrFormat p
    else if ¬ p.base.securityUnlocked then negative sidTransferData nrcSecurityAccessDenied p
    else if ¬ p.downloadRequested then negative sidTransferData nrcRequestSequenceError p
    else receiveBlock r p) r

/-- `install_pending` takes the result; a verified download cannot be exited twice. -/
def conclude (passed : Bool) (p : UDSCanProgrammer) : UDSCanProgrammer :=
  { p with
    base := { p.base with installPending := passed }
    downloadRequested := p.downloadRequested && !passed }

def requestTransferExit : Request → UDSCanProgrammer → Outcome UDSCanProgrammer := fun r ↦
  requireProgrammingSession sidRequestTransferExit (fun p ↦
    if ¬ p.base.securityUnlocked then
      negative sidRequestTransferExit nrcSecurityAccessDenied p
    else if ¬ p.downloadRequested then
      negative sidRequestTransferExit nrcRequestSequenceError p
    else if p.base.lengthMismatch then
      negative sidRequestTransferExit nrcIncorrectLengthOrFormat p
    else saveAndVerify conclude r p) r

def programmingServices : List UInt8 :=
  [sidSecurityAccess, sidRoutineControl, sidRequestDownload, sidTransferData,
    sidRequestTransferExit, sidEcuReset]

/-- The chain of services in `_handle_uds`, behind the runtime control. -/
def serve (serviceId : UInt8) (r : Request) (p : UDSCanProgrammer) : Outcome UDSCanProgrammer :=
  if serviceId = sidDiagnosticSessionControl then diagnosticSessionControl r p
  else if serviceId = sidTesterPresent then testerPresent r p
  else if serviceId = sidReadDataByIdentifier then readDataByIdentifier r p
  else if serviceId = sidSecurityAccess then securityAccess r p
  else if serviceId = sidRoutineControl then routineControl eraseMemory r p
  else if serviceId = sidRequestDownload then requestDownload r p
  else if serviceId = sidTransferData then transferData r p
  else if serviceId = sidRequestTransferExit then requestTransferExit r p
  else if serviceId = sidEcuReset then ecuReset r p
  else negative serviceId nrcServiceNotSupported p

/-- `_handle_uds` -/
def handleUds (r : Request) (p : UDSCanProgrammer) : Outcome UDSCanProgrammer :=
  match r.payload with
  | [] => ⟨p, [], none⟩
  | serviceId :: _ =>
      if ¬ r.diagnosticsEnabled then negative serviceId nrcConditionsNotCorrect p
      else if serviceId ∈ programmingServices ∧ ¬ r.programmingEnabled then
        negative serviceId nrcConditionsNotCorrect p
      else serve serviceId r p

/-! ## The branches -/

/-- The outcomes of `serve`, by the service that is asked for. -/
inductive Served (r : Request) (p : UDSCanProgrammer) : UInt8 → Outcome UDSCanProgrammer → Prop
  | diagnosticSessionControl :
      Served r p sidDiagnosticSessionControl (diagnosticSessionControl r p)
  | testerPresent : Served r p sidTesterPresent (testerPresent r p)
  | readDataByIdentifier : Served r p sidReadDataByIdentifier (readDataByIdentifier r p)
  | securityAccess : Served r p sidSecurityAccess (securityAccess r p)
  | routineControl : Served r p sidRoutineControl (routineControl eraseMemory r p)
  | requestDownload : Served r p sidRequestDownload (requestDownload r p)
  | transferData : Served r p sidTransferData (transferData r p)
  | requestTransferExit : Served r p sidRequestTransferExit (requestTransferExit r p)
  | ecuReset : Served r p sidEcuReset (ecuReset r p)
  | unsupported (serviceId : UInt8) :
      Served r p serviceId (negative serviceId nrcServiceNotSupported p)

theorem served (serviceId : UInt8) (r : Request) (p : UDSCanProgrammer) :
    Served r p serviceId (serve serviceId r p) := by
  unfold serve
  split_ifs with h h h h h h h h h
  · exact h ▸ .diagnosticSessionControl
  · exact h ▸ .testerPresent
  · exact h ▸ .readDataByIdentifier
  · exact h ▸ .securityAccess
  · exact h ▸ .routineControl
  · exact h ▸ .requestDownload
  · exact h ▸ .transferData
  · exact h ▸ .requestTransferExit
  · exact h ▸ .ecuReset
  · exact .unsupported serviceId

theorem handleUds_of_nil {r : Request} {p : UDSCanProgrammer} (hpayload : r.payload = []) :
    handleUds r p = ⟨p, [], none⟩ := by
  rw [handleUds, hpayload]

theorem handleUds_of_enabled {r : Request} {p : UDSCanProgrammer} {serviceId : UInt8}
    (hhead : r.payload.head? = some serviceId) (hdiagnostics : r.diagnosticsEnabled)
    (hprogramming : serviceId ∈ programmingServices → r.programmingEnabled) :
    handleUds r p = serve serviceId r p := by
  obtain ⟨rest, hpayload⟩ := List.head?_eq_some_iff.mp hhead
  unfold handleUds
  rw [hpayload]
  dsimp only
  rw [if_neg (not_not.mpr hdiagnostics), if_neg]
  rintro ⟨hmem, hdisabled⟩
  exact hdisabled (hprogramming hmem)

/-- A disabled ECU answers negatively, without a look at the service. -/
theorem handleUds_cases {r : Request} {p : UDSCanProgrammer} {serviceId : UInt8}
    (hhead : r.payload.head? = some serviceId) :
    r.diagnosticsEnabled ∧ (serviceId ∈ programmingServices → r.programmingEnabled) ∧
        handleUds r p = serve serviceId r p ∨
      (¬ r.diagnosticsEnabled ∨ ¬ r.programmingEnabled) ∧
        handleUds r p = negative serviceId nrcConditionsNotCorrect p := by
  obtain ⟨rest, hpayload⟩ := List.head?_eq_some_iff.mp hhead
  unfold handleUds
  rw [hpayload]
  dsimp only
  split
  · rename_i hdiagnostics
    exact Or.inr ⟨Or.inl hdiagnostics, rfl⟩
  split
  · rename_i hprogramming
    exact Or.inr ⟨Or.inr hprogramming.2, rfl⟩
  · rename_i hdiagnostics hprogramming
    exact Or.inl ⟨not_not.mp hdiagnostics,
      fun hmem ↦ not_not.mp fun hdisabled ↦ hprogramming ⟨hmem, hdisabled⟩, rfl⟩

end UDSCanProgrammer

end VehicleOta.Uds
