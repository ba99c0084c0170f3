import VehicleOta.Doip.Gateway
import VehicleOta.Uds.DoipSafety

/-!
# The policy of a zone in front of the flash proxy

The proxy takes every raw UDS message, so a zone's controller is asked only where the proxy is off.
-/

namespace VehicleOta

open Uds ProgrammingServer

namespace Uds.ECUContext

/-- The programming state: all but `session_started_at`, which `_reset_programming_state` does not
touch either.  What a refused request does to it is said by `state_of_refused`. -/
def programming (ecu : ECUContext) : ECUContext :=
  { ecu with base := { ecu.base with sessionStartedAt := 0 } }

/-- No positive response, no file saved, no installation, and the same programming state. -/
structure Inert (ecu : ECUContext) (o : Outcome ECUContext) : Prop where
  unanswered : ∀ payload, .send payload ∈ o.actions → payload.head? = some sidNegativeResponse
  unsaved : ∀ file data, .save file data ∉ o.actions
  uninstalled : ∀ key file version, .install key file version ∉ o.actions
  unchanged : o.state.programming = ecu.programming

/-! ## What the proxy refuses -/

section Refusals

variable (r : Request) (b : ProgrammingState)

def RefusedSecurityAccess : Prop :=
  r.payload.length < 2 ∨
    ((r.payload.getD 1 0 = securityAccessRequestSeed → r.securityClock < b.securityLockedUntil) ∧
    (r.payload.getD 1 0 = securityAccessSendKey → b.pendingSeed.isEmpty = true ∨
      ∃ e, deriveSecurityKey r.security b.pendingSeed = .error e))

def RefusedRoutineControl : Prop :=
  r.payload.length < 4 ∨ b.securityUnlocked = false ∨ r.payload.getD 1 0 ≠ routineControlStart ∨
    (intFromBytes (slice r.payload 2 4) ≠ routineEraseMemory ∧
    (intFromBytes (slice r.payload 2 4) = routineVerifyImage ∨
      intFromBytes (slice r.payload 2 4) = routineActivateImage → b.installPending = false))

def RefusedTransferData : Prop :=
  r.payload.length < 2 ∨ b.securityUnlocked = false ∨
    (r.payload.getD 1 0).toNat ≠ b.expectedTransferSequence &&& 0xFF ∨
    ((b.chunk (r.payload.drop 2)).isEmpty = true ∧ b.expectedSize ≠ 0)

/-- Refused in a programming session. -/
def RefusedInSession (serviceId : UInt8) : Prop :=
  if serviceId = sidSecurityAccess then RefusedSecurityAccess r b
  else if serviceId = sidRoutineControl then RefusedRoutineControl r b
  else if serviceId = sidRequestDownload then b.securityUnlocked = false ∨ b.eraseCompleted = false
  else if serviceId = sidTransferData then RefusedTransferData r b
  else if serviceId = sidRequestTransferExit then
    b.securityUnlocked = false ∨ b.lengthMismatch = true
  else False

/-- Refused, and the session is not over. -/
def Refused (serviceId : UInt8) : Prop :=
  if serviceId = sidDiagnosticSessionControl ∨ serviceId = sidTesterPresent then False
  else if serviceId = sidReadDataByIdentifier then
    r.payload.length < 3 ∨ intFromBytes (slice r.payload 1 3) ≠ didSoftwareVersion ∨
      ∃ e, r.currentVersion = .error e
  else b.sessionExpired r.expiryClock = false ∧
    (b.currentSession ≠ defaultSessionProgramming ∨ RefusedInSession r b serviceId)

end Refusals

/-! ## The services -/

section Services

variable {r : Request} {ecu ecu' : ECUContext} {o : Outcome ECUContext}

theorem Inert.congr (h : ecu.programming = ecu'.programming) : Inert ecu o ↔ Inert ecu' o :=
  ⟨fun ho ↦ ⟨ho.unanswered, ho.unsaved, ho.uninstalled, ho.unchanged.trans h⟩,
    fun ho ↦ ⟨ho.unanswered, ho.unsaved, ho.uninstalled, ho.unchanged.trans h.symm⟩⟩

theorem inert_nothing {error : Option PyError} : Inert ecu ⟨ecu, [], error⟩ := by
  refine ⟨?_, ?_, ?_, rfl⟩ <;> simp

theorem inert_negative (serviceId code : UInt8) : Inert ecu (negative serviceId code ecu) := by
  refine ⟨fun payload hpayload ↦ ?_, ?_, ?_, rfl⟩
  · simp only [negative, reply, List.mem_singleton, Action.send.injEq] at hpayload
    rw [hpayload]
    rfl
  · simp [negative, reply]
  · simp [negative, reply]

theorem not_inert_of_positive {payload : Bytes} (hsend : .send payload ∈ o.actions)
    (hhead : payload.head? ≠ some sidNegativeResponse) : ¬ Inert ecu o :=
  fun h ↦ hhead (h.unanswered payload hsend)

theorem not_inert_reply {first : UInt8} {rest : Bytes} (hfirst : first ≠ sidNegativeResponse) :
    ¬ Inert ecu (reply (first :: rest) ecu') := by
  refine not_inert_of_positive (List.mem_singleton_self _) ?_
  simpa using hfirst

theorem inert_readDataByIdentifier : Inert ecu (readDataByIdentifier r ecu) ↔
    r.payload.length < 3 ∨ intFromBytes (slice r.payload 1 3) ≠ didSoftwareVersion ∨
      ∃ e, r.currentVersion = .error e := by
  unfold readDataByIdentifier
  split
  · rename_i hlength
    exact iff_of_true (inert_negative _ _) (.inl hlength)
  · rename_i hlength
    split
    · rename_i hdid
      exact iff_of_true (inert_negative _ _) (.inr (.inl hdid))
    · rename_i hdid
      cases hversion : r.currentVersion with
      | error e => exact iff_of_true inert_nothing (.inr (.inr ⟨e, rfl⟩))
      | ok version =>
          refine iff_of_false (not_inert_reply (by decide)) ?_
          rintro (h | h | ⟨e, h⟩)
          · exact hlength h
          · exact hdid h
          · cases h

theorem not_inert_rejectKey : ¬ Inert ecu (rejectKey r ecu) := by
  intro h
  have hfailures := congrArg (fun ecu ↦ ecu.base.securityFailures) h.unchanged
  unfold rejectKey at hfailures
  dsimp only at hfailures
  split at hfailures
  · exact Nat.succ_ne_self _ hfailures
  · exact Nat.succ_ne_self _ hfailures

theorem inert_requestSeed :
    Inert ecu (requestSeed r ecu) ↔ r.securityClock < ecu.base.securityLockedUntil := by
  unfold requestSeed
  split
  · rename_i hlocked
    exact iff_of_true (inert_negative _ _) hlocked
  · rename_i hlocked
    exact iff_of_false (not_inert_reply (by decide)) hlocked

theorem inert_sendKey : Inert ecu (sendKey r ecu) ↔ ecu.base.pendingSeed.isEmpty = true ∨
    ∃ e, deriveSecurityKey r.security ecu.base.pendingSeed = .error e := by
  have hbase : base ecu = ecu.base := rfl
  unfold sendKey
  rw [hbase]
  split
  · rename_i hempty
    exact iff_of_true (inert_negative _ _) (.inl hempty)
  · rename_i hempty
    cases hkey : deriveSecurityKey r.security ecu.base.pendingSeed with
    | error e => exact iff_of_true inert_nothing (.inr ⟨e, rfl⟩)
    | ok expectedKey =>
        have hnot : ¬ (ecu.base.pendingSeed.isEmpty = true ∨
            ∃ e, (Except.ok expectedKey : Except PyError Bytes) = .error e) := by
          rintro (h | ⟨e, h⟩)
          · exact hempty h
          · cases h
        dsimp only
        split
        · exact iff_of_false not_inert_rejectKey hnot
        · exact iff_of_false (not_inert_reply (by decide)) hnot

theorem inert_securityAccess_service : Inert ecu
    (if r.payload.length < 2 then negative sidSecurityAccess nrcIncorrectLengthOrFormat ecu
    else if r.payload.getD 1 0 = securityAccessRequestSeed then requestSeed r ecu
    else if r.payload.getD 1 0 = securityAccessSendKey then sendKey r ecu
    else negative sidSecurityAccess nrcSubFunctionNotSupported ecu) ↔
    RefusedSecurityAccess r ecu.base := by
  unfold RefusedSecurityAccess
  by_cases hlength : r.payload.length < 2
  · rw [if_pos hlength]
    exact iff_of_true (inert_negative _ _) (.inl hlength)
  rw [if_neg hlength]
  by_cases hseed : r.payload.getD 1 0 = securityAccessRequestSeed
  · have hkey : r.payload.getD 1 0 ≠ securityAccessSendKey := by
      rw [hseed]
      decide
    rw [if_pos hseed, inert_requestSeed]
    simp only [hlength, hseed, false_or, true_implies]
    exact ⟨fun h ↦ ⟨h, fun hcase ↦ absurd (hseed.trans hcase) hkey⟩, And.left⟩
  rw [if_neg hseed]
  by_cases hkey : r.payload.getD 1 0 = securityAccessSendKey
  · rw [if_pos hkey, inert_sendKey]
    simp only [hlength, hkey, false_or, true_implies]
    exact ⟨fun h ↦ ⟨fun hcase ↦ absurd (hkey.trans hcase) hseed, h⟩, And.right⟩
  · rw [if_neg hkey]
    exact iff_of_true (inert_negative _ _) (.inr ⟨fun h ↦ absurd h hseed, fun h ↦ absurd h hkey⟩)

theorem not_inert_routineResponses {error : Option PyError} :
    ¬ Inert ecu ⟨ecu', routineResponses r, error⟩ := by
  have hfirst : positiveResponseSid sidRoutineControl ≠ sidNegativeResponse := by decide
  refine not_inert_of_positive (List.mem_cons_of_mem _ (List.mem_singleton_self _)) ?_
  simpa using hfirst

theorem inert_startRoutine {erase : Bytes → ECUContext → ECUContext} :
    Inert ecu (startRoutine erase r ecu) ↔
      intFromBytes (slice r.payload 2 4) ≠ routineEraseMemory ∧
      (intFromBytes (slice r.payload 2 4) = routineVerifyImage ∨
        intFromBytes (slice r.payload 2 4) = routineActivateImage →
          ecu.base.installPending = false) := by
  have hbase : base ecu = ecu.base := rfl
  unfold startRoutine
  rw [hbase]
  dsimp only
  generalize intFromBytes (slice r.payload 2 4) = routineId
  by_cases herase : routineId = routineEraseMemory
  · rw [if_pos herase]
    exact iff_of_false not_inert_routineResponses fun h ↦ h.1 herase
  rw [if_neg herase]
  cases hpending : ecu.base.installPending with
  | false =>
      refine iff_of_true ?_ ⟨herase, fun _ ↦ rfl⟩
      simp only [Bool.false_eq_true, not_false_eq_true, if_true]
      split_ifs
      · exact inert_negative _ _
      · exact inert_negative _ _
      · exact inert_negative _ _
  | true =>
      by_cases hverify : routineId = routineVerifyImage
      · rw [if_pos hverify]
        exact iff_of_false not_inert_routineResponses fun h ↦ absurd (h.2 (.inl hverify)) (by simp)
      rw [if_neg hverify]
      by_cases hactivate : routineId = routineActivateImage
      · rw [if_pos hactivate]
        exact iff_of_false not_inert_routineResponses fun h ↦
          absurd (h.2 (.inr hactivate)) (by simp)
      · rw [if_neg hactivate]
        exact iff_of_true (inert_negative _ _)
          ⟨herase, fun h ↦ absurd h (not_or.mpr ⟨hverify, hactivate⟩)⟩

theorem inert_routineControl_service {erase : Bytes → ECUContext → ECUContext} : Inert ecu
    (if r.payload.length < 4 then negative sidRoutineControl nrcIncorrectLengthOrFormat ecu
    else if ¬ (base ecu).securityUnlocked then
      negative sidRoutineControl nrcSecurityAccessDenied ecu
    else if r.payload.getD 1 0 ≠ routineControlStart then
      negative sidRoutineControl nrcSubFunctionNotSupported ecu
    else startRoutine erase r ecu) ↔ RefusedRoutineControl r ecu.base := by
  have hbase : base ecu = ecu.base := rfl
  rw [hbase, RefusedRoutineControl]
  by_cases hlength : r.payload.length < 4
  · rw [if_pos hlength]
    exact iff_of_true (inert_negative _ _) (.inl hlength)
  rw [if_neg hlength]
  cases hunlocked : ecu.base.securityUnlocked with
  | false => exact iff_of_true (inert_negative _ _) (.inr (.inl rfl))
  | true =>
      by_cases hstart : r.payload.getD 1 0 = routineControlStart
      · simp only [hlength, hstart, not_true_eq_false, if_false, ne_eq, false_or,
          Bool.true_eq_false]
        exact inert_startRoutine
      · simp only [hstart, not_true_eq_false, if_false, ne_eq, not_false_eq_true, if_true]
        exact iff_of_true (inert_negative _ _) (.inr (.inr (.inl trivial)))

theorem inert_receiveBlock : Inert ecu (receiveBlock r ecu) ↔
    (r.payload.getD 1 0).toNat ≠ ecu.base.expectedTransferSequence &&& 0xFF ∨
      ((ecu.base.chunk (r.payload.drop 2)).isEmpty = true ∧ ecu.base.expectedSize ≠ 0) := by
  have hbase : base ecu = ecu.base := rfl
  unfold receiveBlock
  rw [hbase]
  dsimp only
  split
  · rename_i hsequence
    exact iff_of_true (inert_negative _ _) (.inl hsequence)
  · rename_i hsequence
    split
    · rename_i hempty
      exact iff_of_true (inert_negative _ _) (.inr hempty)
    · rename_i hempty
      exact iff_of_false (not_inert_reply (by decide)) (not_or.mpr ⟨hsequence, hempty⟩)

theorem not_inert_saveAndVerify {conclude : Bool → ECUContext → ECUContext} :
    ¬ Inert ecu (saveAndVerify conclude r ecu) := by
  have hsave : .save (firmwareFile ecu) (base ecu).receiver.firmwareData ∈
      (saveAndVerify conclude r ecu).actions := by
    unfold saveAndVerify
    dsimp only
    split
    · exact List.mem_cons_of_mem _ (List.mem_singleton_self _)
    · exact List.mem_append_left _ (List.mem_cons_of_mem _ (List.mem_singleton_self _))
  exact fun h ↦ h.unsaved _ _ hsave

theorem not_inert_resetEcu : ¬ Inert ecu (resetEcu r ecu) := by
  have hsend : .send [positiveResponseSid sidEcuReset, r.payload.getD 1 0x01] ∈
      (resetEcu r ecu).actions := by
    unfold resetEcu
    dsimp only
    split
    · exact List.mem_cons_self
    · exact List.mem_cons_self
  have hfirst : positiveResponseSid sidEcuReset ≠ sidNegativeResponse := by decide
  refine not_inert_of_positive hsend ?_
  simpa using hfirst

/-- A service of a programming session, in terms of what it refuses inside the session. -/
theorem inert_requireProgrammingSession {serviceId : UInt8} {service : ECUContext → Outcome ECUContext}
    {refused : ProgrammingState → Prop}
    (hservice : ∀ ecu, Inert ecu (service ecu) ↔ refused ecu.base)
    (htouch : ∀ now b, refused (b.touchSession now) ↔ refused b) :
    Inert ecu (requireProgrammingSession serviceId service r ecu) ↔
      ecu.base.sessionExpired r.expiryClock = false ∧
        (ecu.base.currentSession ≠ defaultSessionProgramming ∨ refused ecu.base) := by
  have hbase : base ecu = ecu.base := rfl
  unfold requireProgrammingSession expireSessionIfNeeded
  rw [hbase]
  cases hexpired : ecu.base.sessionExpired r.expiryClock with
  | true =>
      refine iff_of_false (fun h ↦ ?_) (by simp)
      have hsession : ecu.base.currentSession = defaultSessionProgramming := by
        simp only [ProgrammingState.sessionExpired, decide_eq_true_eq] at hexpired
        exact hexpired.1
      have hclosed := congrArg (fun ecu ↦ ecu.base.currentSession) h.unchanged
      have hzero : (0x00 : UInt8) = ecu.base.currentSession := hclosed
      rw [hsession] at hzero
      exact absurd hzero (by decide)
  | false =>
      simp only [Bool.false_eq_true, if_false, true_and]
      split
      · rename_i hsession
        exact iff_of_true (inert_negative _ _) (.inl hsession)
      · rename_i hsession
        have hsame : ecu.programming = (update (.touchSession r.touchClock) ecu).programming := rfl
        have hafter : ∀ o : Outcome ECUContext, o.after [] = o := fun _ ↦ rfl
        rw [hafter, Inert.congr hsame, hservice]
        exact (htouch _ _).trans (or_iff_right hsession).symm

theorem not_inert_diagnosticSessionControl : ¬ Inert ecu (diagnosticSessionControl r ecu) :=
  not_inert_reply (by decide)

theorem not_inert_testerPresent : ¬ Inert ecu (testerPresent r ecu) := by
  have hfirst : positiveResponseSid sidTesterPresent ≠ sidNegativeResponse := by decide
  unfold testerPresent
  refine not_inert_of_positive (List.mem_append_right _ (List.mem_singleton_self _)) ?_
  simpa using hfirst

theorem inert_securityAccess : Inert ecu (securityAccess r ecu) ↔
    ecu.base.sessionExpired r.expiryClock = false ∧
      (ecu.base.currentSession ≠ defaultSessionProgramming ∨ RefusedSecurityAccess r ecu.base) :=
  inert_requireProgrammingSession (fun _ ↦ inert_securityAccess_service) fun _ _ ↦ Iff.rfl

theorem inert_routineControl {erase : Bytes → ECUContext → ECUContext} :
    Inert ecu (routineControl erase r ecu) ↔ ecu.base.sessionExpired r.expiryClock = false ∧
      (ecu.base.currentSession ≠ defaultSessionProgramming ∨ RefusedRoutineControl r ecu.base) :=
  inert_requireProgrammingSession (fun _ ↦ inert_routineControl_service) fun _ _ ↦ Iff.rfl

theorem inert_requestDownload (blockLength : ℕ) : Inert ecu (requestDownload blockLength r ecu) ↔
    ecu.base.sessionExpired r.expiryClock = false ∧
      (ecu.base.currentSession ≠ defaultSessionProgramming ∨
        ecu.base.securityUnlocked = false ∨ ecu.base.eraseCompleted = false) := by
  refine @inert_requireProgrammingSession r ecu _ _
    (fun b ↦ b.securityUnlocked = false ∨ b.eraseCompleted = false) (fun ecu ↦ ?_)
    fun _ _ ↦ Iff.rfl
  simp only [Bool.not_eq_true]
  split
  · rename_i hrefused
    exact iff_of_true (inert_negative _ _) hrefused
  · rename_i haccepted
    exact iff_of_false (not_inert_reply (by decide)) haccepted

theorem inert_transferData : Inert ecu (transferData r ecu) ↔
    ecu.base.sessionExpired r.expiryClock = false ∧
      (ecu.base.currentSession ≠ defaultSessionProgramming ∨ RefusedTransferData r ecu.base) := by
  refine inert_requireProgrammingSession (fun ecu ↦ ?_) fun _ _ ↦ Iff.rfl
  unfold RefusedTransferData
  by_cases hlength : r.payload.length < 2
  · rw [if_pos hlength]
    exact iff_of_true (inert_negative _ _) (.inl hlength)
  rw [if_neg hlength]
  cases hunlocked : ecu.base.securityUnlocked with
  | false => exact iff_of_true (inert_negative _ _) (.inr (.inl rfl))
  | true =>
      simp only [hlength, not_true_eq_false, if_false, false_or, Bool.true_eq_false]
      exact inert_receiveBlock

theorem inert_requestTransferExit : Inert ecu (requestTransferExit r ecu) ↔
    ecu.base.sessionExpired r.expiryClock = false ∧
      (ecu.base.currentSession ≠ defaultSessionProgramming ∨
        ecu.base.securityUnlocked = false ∨ ecu.base.lengthMismatch = true) := by
  refine @inert_requireProgrammingSession r ecu _ _
    (fun b ↦ b.securityUnlocked = false ∨ b.lengthMismatch = true) (fun ecu ↦ ?_)
    fun _ _ ↦ Iff.rfl
  cases hunlocked : ecu.base.securityUnlocked with
  | false => exact iff_of_true (inert_negative _ _) (.inl rfl)
  | true =>
      simp only [not_true_eq_false, if_false, false_or, Bool.true_eq_false]
      split
      · rename_i hmismatch
        exact iff_of_true (inert_negative _ _) hmismatch
      · rename_i hmatch
        exact iff_of_false not_inert_saveAndVerify hmatch

theorem inert_ecuReset : Inert ecu (ecuReset r ecu) ↔
    ecu.base.sessionExpired r.expiryClock = false ∧
      (ecu.base.currentSession ≠ defaultSessionProgramming ∨ False) :=
  @inert_requireProgrammingSession r ecu _ _ (fun _ ↦ False)
    (fun _ ↦ iff_of_false not_inert_resetEcu not_false) fun _ _ ↦ Iff.rfl

/-- The proxy takes every raw request; it leaves no trace of those it refuses. -/
theorem inert_handleRawUdsMessage (blockLength : ℕ) {serviceId : UInt8} {rest : Bytes}
    (hpayload : r.payload = serviceId :: rest) (hraw : serviceId ∈ DoIPServer.rawServices) :
    ∃ o, handleRawUdsMessage blockLength r ecu = some o ∧
      (Inert ecu o ↔ Refused r ecu.base serviceId) := by
  simp only [DoIPServer.rawServices, List.mem_cons, List.not_mem_nil, or_false] at hraw
  simp only [handleRawUdsMessage, hpayload]
  rcases hraw with rfl | rfl | rfl | rfl | rfl | rfl | rfl | rfl | rfl
  · exact ⟨_, rfl, iff_of_false not_inert_diagnosticSessionControl id⟩
  · exact ⟨_, rfl, inert_ecuReset⟩
  · exact ⟨_, rfl, inert_readDataByIdentifier⟩
  · exact ⟨_, rfl, inert_routineControl⟩
  · exact ⟨_, rfl, inert_securityAccess⟩
  · exact ⟨_, rfl, inert_requestDownload blockLength⟩
  · exact ⟨_, rfl, inert_requestTransferExit⟩
  · exact ⟨_, rfl, inert_transferData⟩
  · exact ⟨_, rfl, iff_of_false not_inert_testerPresent id⟩

/-! ### The time of the session -/

/-- The service leaves the time of the last request to `_require_programming_session`. -/
def KeepsTime (service : ECUContext → Outcome ECUContext) : Prop :=
  ∀ ecu, (service ecu).state.base.sessionStartedAt = ecu.base.sessionStartedAt

theorem keepsTime_sendKey : KeepsTime (sendKey r) := by
  intro ecu
  unfold sendKey
  split
  · rfl
  · split
    · rfl
    · split
      · unfold rejectKey
        dsimp only
        split
        · rfl
        · rfl
      · rfl

theorem keepsTime_requestSeed : KeepsTime (requestSeed r) := by
  intro ecu
  unfold requestSeed
  split
  · rfl
  · rfl

theorem keepsTime_startRoutine : KeepsTime (startRoutine eraseMemory r) := by
  intro ecu
  unfold startRoutine
  dsimp only
  split_ifs
  · rfl
  · rfl
  · rfl
  · rfl
  · rfl
  · rfl

theorem keepsTime_receiveBlock : KeepsTime (receiveBlock r) := by
  intro ecu
  unfold receiveBlock
  dsimp only
  split
  · rfl
  · split
    · rfl
    · rfl

theorem keepsTime_saveAndVerify : KeepsTime (saveAndVerify conclude r) := by
  intro ecu
  unfold saveAndVerify
  dsimp only
  split
  · rfl
  · rfl

theorem keepsTime_resetEcu : KeepsTime (resetEcu r) := by
  intro ecu
  unfold resetEcu
  dsimp only
  split
  · rfl
  · rfl

theorem KeepsTime.ite {condition : ECUContext → Prop} [DecidablePred condition]
    {refusal service : ECUContext → Outcome ECUContext} (hrefusal : KeepsTime refusal)
    (hservice : KeepsTime service) :
    KeepsTime fun ecu ↦ if condition ecu then refusal ecu else service ecu := by
  intro ecu
  dsimp only
  split
  · exact hrefusal ecu
  · exact hservice ecu

theorem keepsTime_negative (serviceId code : UInt8) : KeepsTime (negative serviceId code) :=
  fun _ ↦ rfl

/-- A service of a live session renews it before it looks at the request. -/
theorem sessionStartedAt_requireProgrammingSession {serviceId : UInt8}
    {service : ECUContext → Outcome ECUContext} (h : KeepsTime service)
    (hexpired : ecu.base.sessionExpired r.expiryClock = false) :
    (requireProgrammingSession serviceId service r ecu).state.base.sessionStartedAt =
      if ecu.base.currentSession = defaultSessionProgramming then r.touchClock
      else ecu.base.sessionStartedAt := by
  have hunexpired : expireSessionIfNeeded r ecu = ⟨ecu, [], none⟩ := by
    rw [expireSessionIfNeeded, if_neg]
    exact Bool.eq_false_iff.mp hexpired
  have hbase : ProgrammingServer.base ecu = ecu.base := rfl
  rw [requireProgrammingSession, hunexpired]
  dsimp only
  rw [hbase]
  by_cases hsession : ecu.base.currentSession = defaultSessionProgramming
  · rw [if_pos hsession, if_neg (not_not.mpr hsession)]
    exact h _
  · rw [if_neg hsession, if_pos hsession]
    rfl

theorem sessionStartedAt_of_refused (blockLength : ℕ) {serviceId : UInt8}
    (hserve : serve blockLength serviceId r ecu = some o)
    (hrefused : Refused r ecu.base serviceId) :
    o.state.base.sessionStartedAt =
      if serviceId ≠ sidReadDataByIdentifier ∧
        ecu.base.currentSession = defaultSessionProgramming then r.touchClock
      else ecu.base.sessionStartedAt := by
  have hserved := served blockLength serviceId r ecu
  rw [hserve] at hserved
  cases hserved with
  | diagnosticSessionControl => exact hrefused.elim
  | testerPresent => exact hrefused.elim
  | readDataByIdentifier =>
      rw [if_neg fun h ↦ h.1 rfl]
      unfold readDataByIdentifier
      split
      · rfl
      · split
        · rfl
        · split <;> rfl
  | securityAccess =>
      rw [if_congr (and_iff_right (by decide)) rfl rfl]
      refine sessionStartedAt_requireProgrammingSession ?_ hrefused.1
      refine .ite (keepsTime_negative _ _) (.ite keepsTime_requestSeed ?_)
      exact .ite keepsTime_sendKey (keepsTime_negative _ _)
  | routineControl =>
      rw [if_congr (and_iff_right (by decide)) rfl rfl]
      refine sessionStartedAt_requireProgrammingSession ?_ hrefused.1
      refine .ite (keepsTime_negative _ _) (.ite (keepsTime_negative _ _) ?_)
      exact .ite (keepsTime_negative _ _) keepsTime_startRoutine
  | requestDownload =>
      rw [if_congr (and_iff_right (by decide)) rfl rfl]
      refine sessionStartedAt_requireProgrammingSession ?_ hrefused.1
      exact .ite (keepsTime_negative _ _) fun _ ↦ rfl
  | transferData =>
      rw [if_congr (and_iff_right (by decide)) rfl rfl]
      refine sessionStartedAt_requireProgrammingSession ?_ hrefused.1
      exact .ite (keepsTime_negative _ _) (.ite (keepsTime_negative _ _) keepsTime_receiveBlock)
  | requestTransferExit =>
      rw [if_congr (and_iff_right (by decide)) rfl rfl]
      refine sessionStartedAt_requireProgrammingSession ?_ hrefused.1
      exact .ite (keepsTime_negative _ _) (.ite (keepsTime_negative _ _) keepsTime_saveAndVerify)
  | ecuReset =>
      rw [if_congr (and_iff_right (by decide)) rfl rfl]
      exact sessionStartedAt_requireProgrammingSession keepsTime_resetEcu hrefused.1

theorem eq_of_programming (h : ecu.programming = ecu'.programming)
    (htime : ecu.base.sessionStartedAt = ecu'.base.sessionStartedAt) : ecu = ecu' := by
  obtain ⟨key, address, profile, version, base, verified⟩ := ecu
  obtain ⟨key', address', profile', version', base', verified'⟩ := ecu'
  obtain ⟨rfl, rfl, rfl, rfl, hbase, rfl⟩ := ECUContext.mk.inj h
  have hsame : base = base' := by
    obtain ⟨_, _, _, _, _, _, _, _, _, _, _, time, _, _, _⟩ := base
    obtain ⟨_, _, _, _, _, _, _, _, _, _, _, time', _, _, _⟩ := base'
    obtain rfl : time = time' := htime
    simpa using hbase
  rw [hsame]

/-- All that a refused request does to the ECU: behind the checks of an open session, it renews the
session. -/
theorem state_of_refused (blockLength : ℕ) {serviceId : UInt8} {rest : Bytes}
    (hpayload : r.payload = serviceId :: rest) (hraw : serviceId ∈ DoIPServer.rawServices)
    (hserve : handleRawUdsMessage blockLength r ecu = some o)
    (hrefused : Refused r ecu.base serviceId) :
    o.state =
      if serviceId ≠ sidReadDataByIdentifier ∧
        ecu.base.currentSession = defaultSessionProgramming then update (.touchSession r.touchClock) ecu
      else ecu := by
  obtain ⟨o', hserve', hinert⟩ :=
    @inert_handleRawUdsMessage r ecu blockLength serviceId rest hpayload hraw
  obtain rfl := Option.some.inj (hserve.symm.trans hserve')
  have htime := @sessionStartedAt_of_refused r ecu o blockLength serviceId
    (by simpa only [handleRawUdsMessage, hpayload] using hserve) hrefused
  have hsame := (hinert.mpr hrefused).unchanged
  split
  · rename_i hsession
    rw [if_pos hsession] at htime
    exact eq_of_programming hsame htime
  · rename_i hsession
    rw [if_neg hsession] at htime
    exact eq_of_programming hsame htime

end Services

end Uds.ECUContext

/-! ## The gateway -/

theorem ZoneRouter.Rejects.forwardUds {w : Surroundings} {logicalAddress : ℤ} {payload : Bytes}
    (h : Rejects w logicalAddress payload) :
    ∃ e, ZoneRouter.forwardUds w logicalAddress payload = .error e := by
  unfold ZoneRouter.forwardUds
  cases hzone : w.router.zoneFor logicalAddress with
  | none => exact ⟨_, rfl⟩
  | some c =>
      obtain ⟨e, he⟩ := h c hzone
      have hrefused : c.forwardUds w.now w.deliver logicalAddress payload = .error e := by
        rw [ZoneController.forwardUds, he]
        rfl
      cases w.transport with
      | inProcess => exact ⟨e, hrefused⟩
      | tcp connection =>
          simp only [hrefused]
          cases connection with
          | error e => exact ⟨e, rfl⟩
          | ok _ => exact ⟨_, rfl⟩

namespace DoIPServer

/-- No positive response, no file saved, no installation, and the same programming state of the
ECU, whose session may have been renewed. -/
structure Untouched (g : DoIPServer) (targetAddress : ℕ) (o : Outcome DoIPServer) : Prop where
  unanswered : ∀ payload, .send payload ∈ o.actions → payload.head? = some sidNegativeResponse
  unsaved : ∀ file data, .save file data ∉ o.actions
  uninstalled : ∀ key file version, .install key file version ∉ o.actions
  unchanged : (o.state.ecus.get? targetAddress).map ECUContext.programming =
    (g.ecus.get? targetAddress).map ECUContext.programming

section Process

variable {g : DoIPServer} {w : Surroundings} {targetAddress : ℕ} {r : Request} {ecu : ECUContext}

theorem untouched_nothing : Untouched g targetAddress ⟨g, [], none⟩ := by
  refine ⟨?_, ?_, ?_, rfl⟩ <;> simp

theorem untouched_iff_inert {o : Outcome ECUContext} (hecu : g.ecus.get? targetAddress = some ecu) :
    Untouched g targetAddress
      ⟨{ g with ecus := g.ecus.set targetAddress o.state }, o.actions, o.error⟩ ↔ ecu.Inert o := by
  have hstate : ((g.ecus.set targetAddress o.state).get? targetAddress).map
      ECUContext.programming = some o.state.programming := by
    rw [Dict.get?_set_self]
    rfl
  constructor
  · intro h
    have hunchanged := h.unchanged
    rw [hecu] at hunchanged
    exact ⟨h.unanswered, h.unsaved, h.uninstalled, Option.some.inj (hstate.symm.trans hunchanged)⟩
  · intro h
    refine ⟨h.unanswered, h.unsaved, h.uninstalled, ?_⟩
    rw [hecu]
    exact hstate.trans (congrArg some h.unchanged)

theorem process_eq (hroute : targetAddress ∈ routes) (hraw : isRawUdsPayload r.payload = true)
    (hecu : g.ecus.get? targetAddress = some ecu) {o : Outcome ECUContext}
    (hproxy : g.proxy r ecu = some o) : g.process w targetAddress r =
      ⟨{ g with ecus := g.ecus.set targetAddress o.state }, o.actions, o.error⟩ := by
  have hcond : ¬ (targetAddress ∉ routes ∨ ¬ isRawUdsPayload r.payload) := by
    simp [hroute, hraw]
  simp only [process, if_neg hcond, hecu, hproxy]

theorem process_of_rejected (hroute : targetAddress ∈ routes)
    (hraw : isRawUdsPayload r.payload = true) (hecu : g.ecus.get? targetAddress = some ecu)
    (hzonal : g.useZonalControllers = true) (hproxy : g.proxy r ecu = none)
    (hreject : ZoneRouter.Rejects w targetAddress r.payload) :
    g.process w targetAddress r = ⟨g, [], none⟩ := by
  have hcond : ¬ (targetAddress ∉ routes ∨ ¬ isRawUdsPayload r.payload) := by
    simp [hroute, hraw]
  obtain ⟨e, he⟩ := hreject.forwardUds
  have hforward : g.route w targetAddress r.payload = .error e := by
    rw [DoIPServer.route, if_pos hzonal, he]
  simp only [process, if_neg hcond, hecu, hproxy, hforward]

end Process

/-- A request that the zone rejects leaves the ECU untouched exactly if the proxy is off or
refuses the request itself. -/
theorem zone_policy_enforced_iff (g : DoIPServer) (w : Surroundings) (targetAddress : ℕ)
    (r : Request) (ecu : ECUContext) (hroute : targetAddress ∈ routes)
    (hecu : g.ecus.get? targetAddress = some ecu) (hraw : isRawUdsPayload r.payload = true)
    (hzonal : g.useZonalControllers = true)
    (hreject : ZoneRouter.Rejects w targetAddress r.payload) :
    Untouched g targetAddress (g.process w targetAddress r) ↔
      g.proxyFlashEnabled = false ∨
        ∀ serviceId, r.payload.head? = some serviceId → ECUContext.Refused r ecu.base serviceId := by
  cases hpayload : r.payload with
  | nil =>
      rw [hpayload] at hraw
      cases hraw
  | cons serviceId rest =>
      have hservice : serviceId ∈ rawServices := by
        rw [hpayload] at hraw
        exact of_decide_eq_true hraw
      have hhead : (∀ sid, (serviceId :: rest).head? = some sid → ECUContext.Refused r ecu.base sid) ↔
          ECUContext.Refused r ecu.base serviceId := by
        simp
      rw [hhead]
      cases henabled : g.proxyFlashEnabled with
      | false =>
          have hproxy : g.proxy r ecu = none := by simp [proxy, henabled]
          rw [process_of_rejected hroute hraw hecu hzonal hproxy hreject]
          exact iff_of_true untouched_nothing (.inl rfl)
      | true =>
          obtain ⟨o, hhandled, hinert⟩ :=
            @ECUContext.inert_handleRawUdsMessage r ecu g.blockLength serviceId rest hpayload hservice
          have hproxy : g.proxy r ecu = some o := by simp [proxy, henabled, hhandled]
          rw [process_eq hroute hraw hecu hproxy, untouched_iff_inert hecu, hinert]
          simp

/-! ## A locked zone -/

/-- The body zone, locked and without any allowed service. -/
def lockedZone : ZoneController where
  config := {
    zoneId := "body_zone"
    displayName := "Body Zone Controller"
    canChannel := "vcan_bcm"
    servicePort := 15002
    defaultHealth := "AUTO"
    programmingAllowed := true
    allowedServices := [0x10, 0x22, 0x3E]
    ecus := Dict.ofPairs [(0x1002, {
      ecuName := "BCM ECU"
      canId := 0x202
      criticality := "critical"
      dependencies := ["Gateway ECU"]
      onUnavailable := "abort_campaign"
      onDependencyFailed := "abort_campaign" })] }
  options := {
    heartbeatMonitorEnabled := false
    health := some "SECURITY_LOCKED"
    allowedServices := some (.ok [])
    programmingAllowed := some "0" }

def lockedSurroundings : Surroundings where
  router := ⟨[lockedZone]⟩
  deliver _ _ := .error (.timeoutError "no ECU")
  overCan _ _ := .error (.timeoutError "no ECU")

/-- The gateway with zonal routing, and the proxy as it is by default. -/
def zonalGateway : DoIPServer where
  useZonalControllers := true
  ecus := Dict.ofPairs [(0x1002, .initial "bcm" 0x1002 ECUContext.bcmProfile)]

def openProgramming : Request := { payload := [0x10, 0x02], touchClock := 1 }

theorem locked_rejects : ZoneRouter.Rejects lockedSurroundings (0x1002 : ℕ) openProgramming.payload := by
  intro c hzone
  have hlocked : lockedSurroundings.router.zoneFor (0x1002 : ℕ) = some lockedZone := by rfl
  obtain rfl := Option.some.inj (hlocked.symm.trans hzone)
  exact ⟨.runtimeError "ZONE_SECURITY_LOCKED", by rfl⟩

/-- The locked zone rejects the request, and the proxy opens the programming session. -/
theorem locked_zone_bypassed :
    ZoneRouter.Rejects lockedSurroundings (0x1002 : ℕ) openProgramming.payload ∧
      ¬ Untouched zonalGateway 0x1002
        (zonalGateway.process lockedSurroundings 0x1002 openProgramming) := by
  refine ⟨locked_rejects, fun h ↦ ?_⟩
  have hsend : .send [0x50, 0x02] ∈
      (zonalGateway.process lockedSurroundings 0x1002 openProgramming).actions := by
    decide +kernel
  exact absurd (h.unanswered _ hsend) (by decide)

/-- With the proxy off, the locked zone keeps the request from the BCM. -/
theorem zone_policy_enforced_locked :
    Untouched { zonalGateway with proxyFlashEnabled := false } 0x1002
      (process { zonalGateway with proxyFlashEnabled := false } lockedSurroundings 0x1002
        openProgramming) :=
  (zone_policy_enforced_iff { zonalGateway with proxyFlashEnabled := false } lockedSurroundings 0x1002
    openProgramming (.initial "bcm" 0x1002 ECUContext.bcmProfile) (by decide) (by rfl) (by decide) rfl
    locked_rejects).mpr (.inl rfl)

end DoIPServer

end VehicleOta
