import VehicleOta.Doip.ZonePolicy

/-!
# When the flash proxy answers a programming service positively

The services that need an unlocked session: RoutineControl, RequestDownload, TransferData and
RequestTransferExit.
-/

namespace VehicleOta.Uds

open ProgrammingServer

section Responses

variable {σ : Type} {r : Request} {s t : σ} {serviceId : UInt8}

theorem not_accepted_negative (hpositive : positiveResponseSid serviceId ≠ sidNegativeResponse)
    (other code : UInt8) : ¬ (exchange r (negative other code s)).Accepted serviceId := by
  apply not_accepted_of_actions
  simpa [negative, reply, Action.responseCode?] using hpositive

theorem accepted_reply (hhead : r.payload.head? = some serviceId) (rest : Bytes) :
    (exchange r (reply (positiveResponseSid serviceId :: rest) t)).Accepted serviceId :=
  ⟨hhead, by simp [exchange, reply, Action.responseCode?]⟩

theorem accepted_routineResponses (hhead : r.payload.head? = some sidRoutineControl)
    {error : Option PyError} :
    (exchange r (Outcome.mk t (routineResponses r) error)).Accepted sidRoutineControl :=
  ⟨hhead, by simp [exchange, responseCodes_routineResponses]⟩

end Responses

section Services

variable {σ : Type} [ProgrammingServer σ] {r : Request} {s : σ} {serviceId : UInt8}

/-- Behind the session check the service itself decides. -/
theorem accepted_requireProgrammingSession
    (hpositive : positiveResponseSid serviceId ≠ sidNegativeResponse) (service : σ → Outcome σ) :
    (exchange r (requireProgrammingSession serviceId service r s)).Accepted serviceId ↔
      (base s).sessionExpired r.expiryClock = false ∧
        (base s).currentSession = defaultSessionProgramming ∧
        (exchange r (service (update (.touchSession r.touchClock) s))).Accepted serviceId := by
  constructor
  · intro h
    rcases requireProgrammingSession_cases serviceId service r s with
      ⟨hunexpired, hsession, heq⟩ | hrefused
    · rw [heq] at h
      exact ⟨hunexpired, hsession, h⟩
    · obtain ⟨a, ha, hcode⟩ := List.mem_map.mp h.2
      rcases hrefused a ha with rfl | hnegative
      · cases hcode
      · exact absurd (Option.some.inj (hcode.symm.trans hnegative)) hpositive
  · rintro ⟨hunexpired, hsession, h⟩
    rwa [requireProgrammingSession_of_programming service hunexpired hsession]

end Services

namespace ECUContext

variable {r : Request} {ecu : ECUContext} {blockLength : ℕ} {serviceId : UInt8}

/-! ## The services -/

/-- The services of `_handle_raw_uds_message` that ask for `security_unlocked`. -/
def unlockedServices : List UInt8 :=
  [sidRoutineControl, sidRequestDownload, sidTransferData, sidRequestTransferExit]

theorem accepted_service {service : ECUContext → Outcome ECUContext}
    {granted : ProgrammingState → Prop}
    (hpositive : positiveResponseSid serviceId ≠ sidNegativeResponse)
    (hservice : ∀ ecu, (exchange r (service ecu)).Accepted serviceId ↔ granted ecu.base)
    (htouch : ∀ now b, granted (b.touchSession now) ↔ granted b) :
    (exchange r (requireProgrammingSession serviceId service r ecu)).Accepted serviceId ↔
      ecu.base.sessionExpired r.expiryClock = false ∧
        ecu.base.currentSession = defaultSessionProgramming ∧ granted ecu.base := by
  rw [accepted_requireProgrammingSession hpositive, hservice]
  exact and_congr_right fun _ ↦ and_congr_right fun _ ↦ htouch _ _

theorem accepted_startRoutine (hhead : r.payload.head? = some sidRoutineControl)
    {erase : Bytes → ECUContext → ECUContext} :
    (exchange r (startRoutine erase r ecu)).Accepted sidRoutineControl ↔
      ¬ (intFromBytes (slice r.payload 2 4) ≠ routineEraseMemory ∧
        (intFromBytes (slice r.payload 2 4) = routineVerifyImage ∨
          intFromBytes (slice r.payload 2 4) = routineActivateImage →
            ecu.base.installPending = false)) := by
  have hbase : ProgrammingServer.base ecu = ecu.base := rfl
  have hnegative (code : UInt8) :
      ¬ (exchange r (negative sidRoutineControl code ecu)).Accepted sidRoutineControl :=
    not_accepted_negative (by decide) _ _
  unfold startRoutine
  rw [hbase]
  dsimp only
  generalize intFromBytes (slice r.payload 2 4) = routineId
  by_cases herase : routineId = routineEraseMemory
  · rw [if_pos herase]
    exact iff_of_true (accepted_routineResponses hhead) fun h ↦ h.1 herase
  rw [if_neg herase]
  cases hpending : ecu.base.installPending with
  | false =>
      refine iff_of_false ?_ (not_not.mpr ⟨herase, fun _ ↦ rfl⟩)
      simp only [Bool.false_eq_true, not_false_eq_true, if_true]
      split_ifs
      · exact hnegative _
      · exact hnegative _
      · exact hnegative _
  | true =>
      by_cases hverify : routineId = routineVerifyImage
      · rw [if_pos hverify]
        exact iff_of_true (accepted_routineResponses hhead) fun h ↦
          absurd (h.2 (.inl hverify)) (by simp)
      rw [if_neg hverify]
      by_cases hactivate : routineId = routineActivateImage
      · rw [if_pos hactivate]
        exact iff_of_true (accepted_routineResponses hhead) fun h ↦
          absurd (h.2 (.inr hactivate)) (by simp)
      · rw [if_neg hactivate]
        exact iff_of_false (hnegative _)
          (not_not.mpr ⟨herase, fun h ↦ absurd h (not_or.mpr ⟨hverify, hactivate⟩)⟩)

theorem accepted_routineControl (hhead : r.payload.head? = some sidRoutineControl) :
    (exchange r (routineControl eraseMemory r ecu)).Accepted sidRoutineControl ↔
      ecu.base.sessionExpired r.expiryClock = false ∧
        ecu.base.currentSession = defaultSessionProgramming ∧ ¬ RefusedRoutineControl r ecu.base := by
  refine @accepted_service r ecu _ _ (fun b ↦ ¬ RefusedRoutineControl r b) (by decide)
    (fun ecu ↦ ?_) fun _ _ ↦ Iff.rfl
  have hbase : ProgrammingServer.base ecu = ecu.base := rfl
  have hnegative (code : UInt8) :
      ¬ (exchange r (negative sidRoutineControl code ecu)).Accepted sidRoutineControl :=
    not_accepted_negative (by decide) _ _
  rw [hbase, RefusedRoutineControl]
  by_cases hlength : r.payload.length < 4
  · rw [if_pos hlength]
    exact iff_of_false (hnegative _) (not_not.mpr (.inl hlength))
  rw [if_neg hlength]
  cases hunlocked : ecu.base.securityUnlocked with
  | false => exact iff_of_false (hnegative _) (not_not.mpr (.inr (.inl rfl)))
  | true =>
      by_cases hstart : r.payload.getD 1 0 = routineControlStart
      · simp only [hlength, hstart, not_true_eq_false, if_false, ne_eq, false_or,
          Bool.true_eq_false]
        exact accepted_startRoutine hhead
      · simp only [hstart, not_true_eq_false, if_false, ne_eq, not_false_eq_true, if_true]
        exact iff_of_false (hnegative _) (not_not.mpr (.inr (.inr (.inl trivial))))

theorem accepted_requestDownload (hhead : r.payload.head? = some sidRequestDownload) :
    (exchange r (requestDownload blockLength r ecu)).Accepted sidRequestDownload ↔
      ecu.base.sessionExpired r.expiryClock = false ∧
        ecu.base.currentSession = defaultSessionProgramming ∧
        ¬ (ecu.base.securityUnlocked = false ∨ ecu.base.eraseCompleted = false) := by
  refine @accepted_service r ecu _ _
    (fun b ↦ ¬ (b.securityUnlocked = false ∨ b.eraseCompleted = false)) (by decide)
    (fun ecu ↦ ?_) fun _ _ ↦ Iff.rfl
  simp only [Bool.not_eq_true]
  split
  · rename_i hrefused
    exact iff_of_false (not_accepted_negative (by decide) _ _) (not_not.mpr hrefused)
  · rename_i hgranted
    exact iff_of_true (accepted_reply hhead _) hgranted

theorem accepted_receiveBlock (hhead : r.payload.head? = some sidTransferData) :
    (exchange r (receiveBlock r ecu)).Accepted sidTransferData ↔
      ¬ ((r.payload.getD 1 0).toNat ≠ ecu.base.expectedTransferSequence &&& 0xFF ∨
        ((ecu.base.chunk (r.payload.drop 2)).isEmpty = true ∧ ecu.base.expectedSize ≠ 0)) := by
  have hbase : ProgrammingServer.base ecu = ecu.base := rfl
  unfold receiveBlock
  rw [hbase]
  dsimp only
  split
  · rename_i hsequence
    exact iff_of_false (not_accepted_negative (by decide) _ _) (not_not.mpr (.inl hsequence))
  · rename_i hsequence
    split
    · rename_i hempty
      exact iff_of_false (not_accepted_negative (by decide) _ _) (not_not.mpr (.inr hempty))
    · rename_i hempty
      exact iff_of_true (accepted_reply hhead _) (not_or.mpr ⟨hsequence, hempty⟩)

theorem accepted_transferData (hhead : r.payload.head? = some sidTransferData) :
    (exchange r (transferData r ecu)).Accepted sidTransferData ↔
      ecu.base.sessionExpired r.expiryClock = false ∧
        ecu.base.currentSession = defaultSessionProgramming ∧ ¬ RefusedTransferData r ecu.base := by
  refine @accepted_service r ecu _ _ (fun b ↦ ¬ RefusedTransferData r b) (by decide)
    (fun ecu ↦ ?_) fun _ _ ↦ Iff.rfl
  have hnegative (code : UInt8) :
      ¬ (exchange r (negative sidTransferData code ecu)).Accepted sidTransferData :=
    not_accepted_negative (by decide) _ _
  unfold RefusedTransferData
  by_cases hlength : r.payload.length < 2
  · rw [if_pos hlength]
    exact iff_of_false (hnegative _) (not_not.mpr (.inl hlength))
  rw [if_neg hlength]
  cases hunlocked : ecu.base.securityUnlocked with
  | false => exact iff_of_false (hnegative _) (not_not.mpr (.inr (.inl rfl)))
  | true =>
      simp only [hlength, not_true_eq_false, if_false, false_or, Bool.true_eq_false]
      exact accepted_receiveBlock hhead

theorem accepted_saveAndVerify (hhead : r.payload.head? = some sidRequestTransferExit) :
    (exchange r (saveAndVerify conclude r ecu)).Accepted sidRequestTransferExit ↔
      ∃ original, r.original = .ok original ∧ ecu.base.receiver.verify original = true := by
  have hbase : ecu.base = ProgrammingServer.base ecu := rfl
  have hpositive : positiveResponseSid sidRequestTransferExit ≠ sidNegativeResponse := by decide
  rw [hbase]
  unfold saveAndVerify Exchange.Accepted
  cases horiginal : r.original with
  | error e => simp [exchange, responsePending, Action.responseCode?, hpositive]
  | ok original =>
      cases hverify : (ProgrammingServer.base ecu).receiver.verify original with
      | true => simp [exchange, responsePending, Action.responseCode?, hverify, hhead]
      | false => simp [exchange, responsePending, Action.responseCode?, hverify, hpositive]

theorem accepted_requestTransferExit (hhead : r.payload.head? = some sidRequestTransferExit) :
    (exchange r (requestTransferExit r ecu)).Accepted sidRequestTransferExit ↔
      ecu.base.sessionExpired r.expiryClock = false ∧
        ecu.base.currentSession = defaultSessionProgramming ∧
        ¬ (ecu.base.securityUnlocked = false ∨ ecu.base.lengthMismatch = true) ∧
        ∃ original, r.original = .ok original ∧ ecu.base.receiver.verify original = true := by
  refine @accepted_service r ecu _ _
    (fun b ↦ ¬ (b.securityUnlocked = false ∨ b.lengthMismatch = true) ∧
      ∃ original, r.original = .ok original ∧ b.receiver.verify original = true) (by decide)
    (fun ecu ↦ ?_) fun _ _ ↦ Iff.rfl
  cases hunlocked : ecu.base.securityUnlocked with
  | false => exact iff_of_false (not_accepted_negative (by decide) _ _) fun h ↦ h.1 (.inl rfl)
  | true =>
      simp only [not_true_eq_false, if_false, false_or, Bool.true_eq_false]
      split
      · rename_i hmismatch
        exact iff_of_false (not_accepted_negative (by decide) _ _) fun h ↦ h.1 hmismatch
      · rename_i hmatch
        exact (accepted_saveAndVerify hhead).trans (and_iff_right hmatch).symm

/-! ## Every request -/

/-- The request passes every check of its service. -/
def Grants (r : Request) (b : ProgrammingState) (serviceId : UInt8) : Prop :=
  b.sessionExpired r.expiryClock = false ∧ b.currentSession = defaultSessionProgramming ∧
    ¬ RefusedInSession r b serviceId ∧
    (serviceId = sidRequestTransferExit →
      ∃ original, r.original = .ok original ∧ b.receiver.verify original = true)

/-- A request to one of the services is answered positively exactly if its checks pass. -/
theorem accepted_iff_grants (hhead : r.payload.head? = some serviceId)
    (hservice : serviceId ∈ unlockedServices) :
    (exchange r (handle blockLength r ecu)).Accepted serviceId ↔ Grants r ecu.base serviceId := by
  rw [handle_of_head hhead]
  simp only [unlockedServices, List.mem_cons, List.not_mem_nil, or_false] at hservice
  rcases hservice with rfl | rfl | rfl | rfl
  · refine (accepted_routineControl hhead).trans ?_
    exact and_congr_right fun _ ↦ and_congr_right fun _ ↦
      (and_iff_left fun h ↦ absurd h (by decide)).symm
  · refine (accepted_requestDownload hhead).trans ?_
    exact and_congr_right fun _ ↦ and_congr_right fun _ ↦
      (and_iff_left fun h ↦ absurd h (by decide)).symm
  · refine (accepted_transferData hhead).trans ?_
    exact and_congr_right fun _ ↦ and_congr_right fun _ ↦
      (and_iff_left fun h ↦ absurd h (by decide)).symm
  · refine (accepted_requestTransferExit hhead).trans ?_
    exact and_congr_right fun _ ↦ and_congr_right fun _ ↦
      and_congr_right fun _ ↦ ⟨fun h _ ↦ h, fun h ↦ h rfl⟩

end ECUContext

end VehicleOta.Uds
