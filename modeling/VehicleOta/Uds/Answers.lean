import VehicleOta.Can.ResponseLoop
import VehicleOta.Uds.CanProgrammer
import VehicleOta.Uds.DoipServer
import VehicleOta.Uds.Flags
import VehicleOta.Uds.LibraryClient

/-!
# Every request gets one final answer

What a service sends ends with one final response, with at most one response pending in front of
it, and nothing is raised while the files can be read and the security key can be derived.  Where
something is raised, the responses break off.
-/

namespace VehicleOta.Uds

open ProgrammingServer Can

/-! ## Responses -/

/-- The response that ends the exchange of a request with this service id. -/
structure FinalResponse (serviceId : UInt8) (payload : Bytes) : Prop where
  accepted : isResponseForRequest payload serviceId = true
  notPending : isResponsePending payload serviceId = false

theorem finalResponse_negative {code : UInt8} (hcode : code ≠ nrcResponsePending)
    (serviceId : UInt8) : FinalResponse serviceId [sidNegativeResponse, serviceId, code] := by
  refine ⟨?_, ?_⟩
  · simp [isResponseForRequest, isNegativeResponse]
  · simp [isResponsePending, isNegativeResponse, hcode]

theorem finalResponse_positive {serviceId : UInt8}
    (h : positiveResponseSid serviceId ≠ sidNegativeResponse) (parameters : Bytes) :
    FinalResponse serviceId (positiveResponseSid serviceId :: parameters) := by
  refine ⟨?_, ?_⟩
  · simp [isResponseForRequest]
  · have hpositive : isNegativeResponse (positiveResponseSid serviceId :: parameters) = false :=
      decide_eq_false fun hnegative ↦ h hnegative.2
    simp [isResponsePending, hpositive]

/-! ## Services -/

def Outcome.responses {σ : Type} (o : Outcome σ) : List Bytes := o.actions.filterMap Action.response?

/-- No exception, and one final response behind at most one response pending. -/
structure Answered {σ : Type} (serviceId : UInt8) (o : Outcome σ) : Prop where
  error : o.error = none
  responses : ∃ pending final, o.responses = pending ++ [final] ∧
    (pending = [] ∨ pending = [[sidNegativeResponse, serviceId, nrcResponsePending]]) ∧
    FinalResponse serviceId final

/-- The original image and the current version can be read. -/
structure Request.Readable (r : Request) : Prop where
  original : ∃ image, r.original = .ok image
  currentVersion : ∃ version, r.currentVersion = .ok version

/-- `derive_security_key` does not raise in this environment. -/
def SecurityEnvironment.Usable (env : SecurityEnvironment) : Prop :=
  ∀ seed, ∃ key, deriveSecurityKey env seed = .ok key

section Replies

variable {σ : Type} {s : σ} {serviceId : UInt8}

theorem answered_reply {payload : Bytes} (h : FinalResponse serviceId payload) :
    Answered serviceId (reply payload s) :=
  ⟨rfl, [], payload, rfl, Or.inl rfl, h⟩

theorem answered_negative {code : UInt8} (hcode : code ≠ nrcResponsePending) :
    Answered serviceId (negative serviceId code s) :=
  answered_reply (finalResponse_negative hcode serviceId)

theorem answered_positive (h : positiveResponseSid serviceId ≠ sidNegativeResponse)
    (parameters : Bytes) : Answered serviceId (reply (positiveResponseSid serviceId :: parameters) s) :=
  answered_reply (finalResponse_positive h parameters)

theorem answered_expired {o : Outcome σ} (h : Answered serviceId o) :
    Answered serviceId (o.after [.expire]) :=
  ⟨h.error, h.responses⟩

theorem answered_routineResponses {r : Request} :
    Answered sidRoutineControl (Outcome.mk s (routineResponses r) none) :=
  ⟨rfl, [_], _, rfl, Or.inr rfl, finalResponse_positive (by decide) _⟩

theorem answered_readDataByIdentifier {r : Request} (hr : r.Readable) :
    Answered sidReadDataByIdentifier (readDataByIdentifier r s) := by
  unfold readDataByIdentifier
  split
  · exact answered_negative (by decide)
  · split
    · exact answered_negative (by decide)
    · obtain ⟨version, hversion⟩ := hr.currentVersion
      rw [hversion]
      exact answered_positive (by decide) _

end Replies

section Services

variable {σ : Type} [ProgrammingServer σ] {r : Request} {s : σ} {serviceId : UInt8}

/-- A refusal, or the service in a programming session. -/
theorem answered_requireProgrammingSession {service : σ → Outcome σ}
    (h : (base s).sessionExpired r.expiryClock = false →
      (base s).currentSession = defaultSessionProgramming →
      Answered serviceId (service (update (.touchSession r.touchClock) s))) :
    Answered serviceId (requireProgrammingSession serviceId service r s) := by
  unfold requireProgrammingSession
  rcases expireSessionIfNeeded_cases r s with ⟨hunexpired, he⟩ | ⟨-, he⟩
  · simp only [he]
    split
    · exact answered_negative (by decide)
    · rename_i hprog
      exact h hunexpired (not_not.mp hprog)
  · simp only [he]
    rw [if_pos (by rw [currentSession_expired]; decide)]
    exact answered_expired (answered_negative (by decide))

theorem answered_diagnosticSessionControl :
    Answered sidDiagnosticSessionControl (diagnosticSessionControl r s) :=
  answered_positive (by decide) _

theorem answered_testerPresent : Answered sidTesterPresent (testerPresent r s) := by
  have hanswered : ∀ t : σ, Answered sidTesterPresent
      (reply [positiveResponseSid sidTesterPresent, r.payload.getD 1 0x00] t) :=
    fun _ ↦ answered_positive (by decide) _
  unfold testerPresent
  rcases expireSessionIfNeeded_cases r s with ⟨-, he⟩ | ⟨-, he⟩
  · simp only [he]
    exact hanswered _
  · simp only [he]
    exact answered_expired (hanswered _)

theorem answered_requestSeed : Answered sidSecurityAccess (requestSeed r s) := by
  unfold requestSeed
  split
  · exact answered_negative (by decide)
  · exact answered_positive (by decide) _

theorem answered_rejectKey : Answered sidSecurityAccess (rejectKey r s) := by
  unfold rejectKey
  dsimp only
  split
  · exact answered_negative (by decide)
  · exact answered_negative (by decide)

theorem answered_sendKey (hkey : (base s).pendingSeed.isEmpty = false →
    ∃ key, deriveSecurityKey r.security (base s).pendingSeed = .ok key) :
    Answered sidSecurityAccess (sendKey r s) := by
  unfold sendKey
  split
  · exact answered_negative (by decide)
  · rename_i hpending
    obtain ⟨key, hderived⟩ := hkey (Bool.eq_false_iff.mpr hpending)
    rw [hderived]
    dsimp only
    split
    · exact answered_rejectKey
    · exact answered_positive (by decide) _

/-- The request carries a key, and there is a seed to check it against. -/
def ChecksKey (r : Request) (b : ProgrammingState) : Prop :=
  r.payload.head? = some sidSecurityAccess ∧ b.sessionExpired r.expiryClock = false ∧
    b.currentSession = defaultSessionProgramming ∧ 2 ≤ r.payload.length ∧
    r.payload.getD 1 0 = securityAccessSendKey ∧ b.pendingSeed.isEmpty = false

theorem answered_securityAccess (hhead : r.payload.head? = some sidSecurityAccess)
    (hkey : ChecksKey r (base s) →
      ∃ key, deriveSecurityKey r.security (base s).pendingSeed = .ok key) :
    Answered sidSecurityAccess (securityAccess r s) := by
  apply answered_requireProgrammingSession
  intro hunexpired hprog
  split
  · exact answered_negative (by decide)
  · rename_i hlength
    split
    · exact answered_requestSeed
    · split
      · rename_i hsend
        apply answered_sendKey
        rw [base_update]
        exact fun hpending ↦ hkey ⟨hhead, hunexpired, hprog, not_lt.mp hlength, hsend, hpending⟩
      · exact answered_negative (by decide)

/-- Without a key to compare with, the service raises. -/
theorem securityAccess_error {e : PyError} (h : ChecksKey r (base s))
    (hkey : deriveSecurityKey r.security (base s).pendingSeed = .error e) :
    (securityAccess r s).error = some e := by
  obtain ⟨-, hunexpired, hprog, hlength, hsend, hpending⟩ := h
  have hseed : r.payload.getD 1 0 ≠ securityAccessRequestSeed := by
    rw [hsend]
    decide
  have hbase : (base (update (.touchSession r.touchClock) s)).pendingSeed = (base s).pendingSeed := by
    rw [base_update]
    rfl
  rw [securityAccess, requireProgrammingSession_of_programming _ hunexpired hprog,
    if_neg (not_lt.mpr hlength), if_neg hseed, if_pos hsend, sendKey, hbase, hkey]
  simp [hpending]

theorem answered_startRoutine {erase : Bytes → σ → σ} :
    Answered sidRoutineControl (startRoutine erase r s) := by
  unfold startRoutine
  dsimp only
  split
  · exact answered_routineResponses
  · split
    · split
      · exact answered_negative (by decide)
      · exact answered_routineResponses
    · split
      · split
        · exact answered_negative (by decide)
        · exact answered_routineResponses
      · exact answered_negative (by decide)

theorem answered_routineControl {erase : Bytes → σ → σ} :
    Answered sidRoutineControl (routineControl erase r s) := by
  apply answered_requireProgrammingSession
  intro _ _
  split
  · exact answered_negative (by decide)
  · split
    · exact answered_negative (by decide)
    · split
      · exact answered_negative (by decide)
      · exact answered_startRoutine

theorem answered_receiveBlock : Answered sidTransferData (receiveBlock r s) := by
  unfold receiveBlock
  dsimp only
  split
  · exact answered_negative (by decide)
  · split
    · exact answered_negative (by decide)
    · exact answered_positive (by decide) _

theorem answered_saveAndVerify {conclude : Bool → σ → σ} (hr : r.Readable) :
    Answered sidRequestTransferExit (saveAndVerify conclude r s) := by
  obtain ⟨image, himage⟩ := hr.original
  unfold saveAndVerify
  rw [himage]
  dsimp only
  cases (base s).receiver.verify image with
  | true => exact ⟨rfl, [_], _, rfl, Or.inr rfl, finalResponse_positive (by decide) _⟩
  | false => exact ⟨rfl, [_], _, rfl, Or.inr rfl, finalResponse_negative (by decide) _⟩

theorem answered_ecuReset : Answered sidEcuReset (ecuReset r s) := by
  apply answered_requireProgrammingSession
  intro _ _
  unfold resetEcu
  dsimp only
  split
  · obtain ⟨key, version, hinstall⟩ := installCall_isInstall (update (.touchSession r.touchClock) s)
    refine ⟨rfl, [], [positiveResponseSid sidEcuReset, r.payload.getD 1 0x01], ?_, Or.inl rfl,
      finalResponse_positive (by decide) _⟩
    rw [Outcome.responses, hinstall]
    rfl
  · exact ⟨rfl, [], _, rfl, Or.inl rfl, finalResponse_positive (by decide) _⟩

end Services

/-! ## Responses that announce another one -/

section Announced

variable {σ : Type} {serviceId : UInt8}

/-- Whatever comes before the last response announces it. -/
def Announced (serviceId : UInt8) (o : Outcome σ) : Prop :=
  ∀ p ∈ o.responses.dropLast, isResponsePending p serviceId = true

theorem announced_of_short {o : Outcome σ} (h : o.responses.length ≤ 1) :
    Announced serviceId o := by
  have hnil : o.responses.dropLast = [] :=
    List.eq_nil_of_length_eq_zero (by rw [List.length_dropLast]; omega)
  intro p hp
  rw [hnil] at hp
  cases hp

theorem announced_of_pair {final : Bytes} {o : Outcome σ}
    (h : o.responses = [[sidNegativeResponse, serviceId, nrcResponsePending], final]) :
    Announced serviceId o := by
  intro p hp
  rw [h] at hp
  rw [List.mem_singleton.mp hp]
  simp [isResponsePending, isNegativeResponse]

theorem Answered.announced {o : Outcome σ} (h : Answered serviceId o) : Announced serviceId o := by
  obtain ⟨pending, final, hresponses, rfl | rfl, -⟩ := h.responses
  · exact announced_of_short (by rw [hresponses]; rfl)
  · exact announced_of_pair hresponses

variable [ProgrammingServer σ] {r : Request} {s : σ}

theorem announced_requireProgrammingSession {service : σ → Outcome σ}
    (h : ∀ s, Announced serviceId (service s)) :
    Announced serviceId (requireProgrammingSession serviceId service r s) := by
  unfold requireProgrammingSession
  rcases expireSessionIfNeeded_cases r s with ⟨-, he⟩ | ⟨-, he⟩
  · simp only [he]
    split
    · exact announced_of_short le_rfl
    · exact h _
  · simp only [he]
    rw [if_pos (by rw [currentSession_expired]; decide)]
    exact announced_of_short le_rfl

omit [ProgrammingServer σ] in
theorem announced_readDataByIdentifier :
    Announced sidReadDataByIdentifier (readDataByIdentifier r s) := by
  unfold readDataByIdentifier
  split
  · exact announced_of_short le_rfl
  · split
    · exact announced_of_short le_rfl
    · cases r.currentVersion with
      | error e => exact announced_of_short (Nat.zero_le 1)
      | ok version => exact announced_of_short le_rfl

theorem announced_sendKey : Announced sidSecurityAccess (sendKey r s) := by
  cases hkey : deriveSecurityKey r.security (base s).pendingSeed with
  | ok key => exact (answered_sendKey fun _ ↦ ⟨key, hkey⟩).announced
  | error e =>
      unfold sendKey
      rw [hkey]
      split
      · exact announced_of_short le_rfl
      · exact announced_of_short (Nat.zero_le 1)

theorem announced_securityAccess : Announced sidSecurityAccess (securityAccess r s) := by
  apply announced_requireProgrammingSession
  intro s
  split
  · exact announced_of_short le_rfl
  · split
    · exact answered_requestSeed.announced
    · split
      · exact announced_sendKey
      · exact announced_of_short le_rfl

theorem announced_saveAndVerify {conclude : Bool → σ → σ} :
    Announced sidRequestTransferExit (saveAndVerify conclude r s) := by
  unfold saveAndVerify
  cases r.original with
  | error e => exact announced_of_short le_rfl
  | ok original => exact announced_of_pair rfl

end Announced

/-! ## The programmer -/

namespace UDSCanProgrammer

variable {p : UDSCanProgrammer} {r : Request}

theorem answered_requestDownload : Answered sidRequestDownload (requestDownload r p) := by
  apply answered_requireProgrammingSession
  intro _ _
  split
  · exact answered_negative (by decide)
  · split
    · exact answered_negative (by decide)
    · split
      · exact answered_negative (by decide)
      · exact answered_positive (by decide) _

theorem answered_transferData : Answered sidTransferData (transferData r p) := by
  apply answered_requireProgrammingSession
  intro _ _
  split
  · exact answered_negative (by decide)
  · split
    · exact answered_negative (by decide)
    · split
      · exact answered_negative (by decide)
      · exact answered_receiveBlock

theorem answered_requestTransferExit (hr : r.Readable) :
    Answered sidRequestTransferExit (requestTransferExit r p) := by
  apply answered_requireProgrammingSession
  intro _ _
  split
  · exact answered_negative (by decide)
  · split
    · exact answered_negative (by decide)
    · split
      · exact answered_negative (by decide)
      · exact answered_saveAndVerify hr

theorem answered_serve {serviceId : UInt8} (hhead : r.payload.head? = some serviceId)
    (hr : r.Readable) (hkey : r.security.Usable) : Answered serviceId (serve serviceId r p) := by
  have hserved := served serviceId r p
  generalize serve serviceId r p = o at hserved ⊢
  cases hserved with
  | diagnosticSessionControl => exact answered_diagnosticSessionControl
  | testerPresent => exact answered_testerPresent
  | readDataByIdentifier => exact answered_readDataByIdentifier hr
  | securityAccess => exact answered_securityAccess hhead fun _ ↦ hkey _
  | routineControl => exact answered_routineControl
  | requestDownload => exact answered_requestDownload
  | transferData => exact answered_transferData
  | requestTransferExit => exact answered_requestTransferExit hr
  | ecuReset => exact answered_ecuReset
  | unsupported => exact answered_negative (by decide)

theorem answered_handleUds {serviceId : UInt8} (hhead : r.payload.head? = some serviceId)
    (hr : r.Readable) (hkey : r.security.Usable) : Answered serviceId (handleUds r p) := by
  rcases handleUds_cases hhead with ⟨-, -, heq⟩ | ⟨-, heq⟩
  · rw [heq]
    exact answered_serve hhead hr hkey
  · rw [heq]
    exact answered_negative (by decide)

end UDSCanProgrammer

/-! ## The proxy -/

namespace ECUContext

variable {ecu : ECUContext} {r : Request} {blockLength : ℕ}

theorem answered_requestDownload :
    Answered sidRequestDownload (requestDownload blockLength r ecu) := by
  apply answered_requireProgrammingSession
  intro _ _
  split
  · exact answered_negative (by decide)
  · exact answered_positive (by decide) _

theorem answered_transferData : Answered sidTransferData (transferData r ecu) := by
  apply answered_requireProgrammingSession
  intro _ _
  split
  · exact answered_negative (by decide)
  · split
    · exact answered_negative (by decide)
    · exact answered_receiveBlock

theorem answered_requestTransferExit (hr : r.Readable) :
    Answered sidRequestTransferExit (requestTransferExit r ecu) := by
  apply answered_requireProgrammingSession
  intro _ _
  split
  · exact answered_negative (by decide)
  · split
    · exact answered_negative (by decide)
    · exact answered_saveAndVerify hr

/-- The proxy answers what it takes, unless it has no key to check against. -/
theorem answered_handleRawUdsMessage {serviceId : UInt8} {o : Outcome ECUContext}
    (hhead : r.payload.head? = some serviceId) (hr : r.Readable)
    (hkey : ChecksKey r ecu.base →
      ∃ key, deriveSecurityKey r.security ecu.base.pendingSeed = .ok key)
    (h : handleRawUdsMessage blockLength r ecu = some o) : Answered serviceId o := by
  have hserved := served blockLength serviceId r ecu
  obtain ⟨rest, hpayload⟩ := List.head?_eq_some_iff.mp hhead
  rw [handleRawUdsMessage, hpayload] at h
  change serve blockLength serviceId r ecu = some o at h
  rw [h] at hserved
  cases hserved with
  | diagnosticSessionControl => exact answered_diagnosticSessionControl
  | testerPresent => exact answered_testerPresent
  | readDataByIdentifier => exact answered_readDataByIdentifier hr
  | securityAccess => exact answered_securityAccess hhead hkey
  | routineControl => exact answered_routineControl
  | requestDownload => exact answered_requestDownload
  | transferData => exact answered_transferData
  | requestTransferExit => exact answered_requestTransferExit hr
  | ecuReset => exact answered_ecuReset

theorem announced_requestTransferExit :
    Announced sidRequestTransferExit (requestTransferExit r ecu) := by
  apply announced_requireProgrammingSession
  intro ecu
  split
  · exact announced_of_short le_rfl
  · split
    · exact announced_of_short le_rfl
    · exact announced_saveAndVerify

/-- Whatever the request and the state of the server, a response that announces no other one is
the last. -/
theorem announced_handle {serviceId : UInt8} (hhead : r.payload.head? = some serviceId)
    (ecu : ECUContext) : Announced serviceId (handle blockLength r ecu) := by
  have hserved := served blockLength serviceId r ecu
  rw [handle_of_head hhead]
  generalize serve blockLength serviceId r ecu = o at hserved ⊢
  cases hserved with
  | diagnosticSessionControl => exact answered_diagnosticSessionControl.announced
  | testerPresent => exact answered_testerPresent.announced
  | readDataByIdentifier => exact announced_readDataByIdentifier
  | securityAccess => exact announced_securityAccess
  | routineControl => exact answered_routineControl.announced
  | requestDownload => exact answered_requestDownload.announced
  | transferData => exact answered_transferData.announced
  | requestTransferExit => exact announced_requestTransferExit
  | ecuReset => exact answered_ecuReset.announced
  | unhandled => exact announced_of_short (Nat.zero_le 1)

theorem handleRawUdsMessage_error (blockLength : ℕ) {e : PyError} (h : ChecksKey r ecu.base)
    (hkey : deriveSecurityKey r.security ecu.base.pendingSeed = .error e) :
    ∃ o, handleRawUdsMessage blockLength r ecu = some o ∧ o.error = some e := by
  obtain ⟨rest, hpayload⟩ := List.head?_eq_some_iff.mp h.1
  refine ⟨securityAccess r ecu, ?_, securityAccess_error h hkey⟩
  rw [handleRawUdsMessage, hpayload]
  rfl

end ECUContext

end VehicleOta.Uds
