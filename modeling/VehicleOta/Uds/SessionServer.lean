import VehicleOta.Uds.Answers
import VehicleOta.Uds.CanSafety
import VehicleOta.Uds.DoipSafety
import VehicleOta.Uds.DownloadServer
import VehicleOta.Uds.Frame
import VehicleOta.Uds.Grants

/-!
# A server as a flashing tester sees it

`ServesSession` extends `ServesDownload` by the services in front of a download and behind it.  Most
of it says what a positive response tells about the server, whatever its state was.
-/

namespace VehicleOta.Uds

open ProgrammingServer

section Server

variable {σ : Type} [ProgrammingServer σ]

/-- The services that both servers implement alike. -/
inductive Shared (erase : Bytes → σ → σ) : UInt8 → (Request → σ → Outcome σ) → Prop
  | diagnosticSessionControl : Shared erase sidDiagnosticSessionControl diagnosticSessionControl
  | testerPresent : Shared erase sidTesterPresent testerPresent
  | readDataByIdentifier : Shared erase sidReadDataByIdentifier readDataByIdentifier
  | securityAccess : Shared erase sidSecurityAccess securityAccess
  | routineControl : Shared erase sidRoutineControl (routineControl erase)
  | ecuReset : Shared erase sidEcuReset ecuReset

/-- `calls` follows the install that the server would start. -/
structure ServesSession (handle : Request → σ → Outcome σ) (serving : σ → Prop)
    (erase : Bytes → σ → σ) (calls : Action → σ → Prop) : Prop where
  download : ServesDownload handle serving
  shared : ∀ {serviceId service} r s, Shared erase serviceId service →
    r.payload.head? = some serviceId → handle r s = service r s ∨
      ¬ (r.diagnosticsEnabled ∧ r.programmingEnabled) ∧
        handle r s = negative serviceId nrcConditionsNotCorrect s
  erased : ∀ data s, ∃ receiver started, base (erase data s) =
    { (base s).erase data with receiver := receiver, installStarted := started }
  requested : ∀ r s, r.payload.head? = some sidRequestDownload →
    (exchange r (handle r s)).Accepted sidRequestDownload →
      (∃ lengths, (handle r s).actions = [.send (positiveResponseSid sidRequestDownload :: lengths)]) ∧
        (base (handle r s).state).installStarted = false ∧
        (base (handle r s).state).sessionStartedAt = r.touchClock
  block : ∀ r s, Ready s → serving s → r.payload.head? = some sidTransferData →
    2 ≤ r.payload.length → (exchange r (handle r s)).Accepted sidTransferData →
      handle r s = receiveBlock r (touched r s)
  blockAnswered : ∀ r s, r.payload.head? = some sidTransferData → (handle r s).responses ≠ []
  exited : ∀ r s, r.payload = [sidRequestTransferExit] →
    (exchange r (handle r s)).Accepted sidRequestTransferExit →
      (base s).lengthMismatch = false ∧ (base s).currentSession = defaultSessionProgramming ∧
      ∃ conclude, handle r s = saveAndVerify conclude r (touched r s) ∧
        ∀ passed t, (base t).installStarted = false →
          base (conclude passed t) = { base t with installPending := passed }
  plain : ∀ r s, r.payload.head? ≠ some sidRequestTransferExit →
    r.payload.head? ≠ some sidEcuReset → (handle r s).Plain
  launches : ∀ r s, (handle r s).installs → r.payload.head? = some sidEcuReset
  installCall_of_calls : ∀ call s, calls call s → installCall s = call
  calls_handle : ∀ call r s, calls call s → calls call (handle r s).state
  calls_update : ∀ call f s, calls call s → calls call (update f s)

/-! ## What a positive response tells -/

variable {handle : Request → σ → Outcome σ} {serving : σ → Prop} {erase : Bytes → σ → σ}
  {calls : Action → σ → Prop} {serviceId : UInt8} {service : Request → σ → Outcome σ}
  {r : Request} {s : σ}

theorem ServesSession.shared_of_enabled (h : ServesSession handle serving erase calls)
    (hshared : Shared erase serviceId service) (hhead : r.payload.head? = some serviceId)
    (hdiagnostics : r.diagnosticsEnabled) (hprogramming : r.programmingEnabled) :
    handle r s = service r s :=
  (h.shared r s hshared hhead).resolve_right fun hrefused ↦ hrefused.1 ⟨hdiagnostics, hprogramming⟩

end Server

/-! ## Frames with SecurityAccess -/

/-- SecurityAccess assigns to attributes, behind the check of the session. -/
theorem Frame.securityAccess {σ : Type} [ProgrammingServer σ] {R : σ → σ → Prop} {r : Request}
    {s : σ} (h : Frame R) (hupdate : ∀ f s, R s (update f s)) : R s (securityAccess r s).state := by
  refine h.requireProgrammingSession fun s ↦ ?_
  split_ifs
  · exact h.refl s
  · unfold requestSeed
    split_ifs
    · exact h.refl s
    · exact hupdate _ s
  · unfold sendKey
    split_ifs
    · exact h.refl s
    · cases deriveSecurityKey r.security (base s).pendingSeed with
      | error e => exact h.refl s
      | ok key =>
          dsimp only
          split_ifs
          · unfold rejectKey
            dsimp only
            split_ifs
            · exact h.trans (hupdate _ s) (hupdate _ _)
            · exact hupdate _ s
          · exact hupdate _ s
  · exact h.refl s

/-! ## The CAN programmer -/

namespace UDSCanProgrammer

variable {r : Request} {p : UDSCanProgrammer}

end UDSCanProgrammer

/-! ## The flash proxy -/

namespace ECUContext

variable {blockLength : ℕ} {r : Request} {ecu : ECUContext}

end ECUContext

end VehicleOta.Uds
