import VehicleOta.Uds.CanProgrammer
import VehicleOta.Uds.DoipServer
import VehicleOta.Uds.Flags

/-!
# What every service but SecurityAccess respects

A frame is a relation between states that the assignments outside SecurityAccess respect; the
services of both servers then respect it too.
-/

namespace VehicleOta.Uds

open ProgrammingServer

section Frame

variable {σ : Type} [ProgrammingServer σ]

structure Frame (R : σ → σ → Prop) : Prop where
  refl : ∀ s, R s s
  trans : ∀ {s t u}, R s t → R t u → R s u
  reset : ∀ s, R s (resetProgrammingState s)
  setSession : ∀ session s, R s (update (.setSession session) s)
  touchSession : ∀ now s, R s (update (.touchSession now) s)
  markActivation : ∀ s, R s (update ProgrammingState.markActivation s)
  receive : ∀ chunk s, R s (update (.receive chunk) s)
  startInstall : ∀ s, R s (update ProgrammingState.startInstall s)

namespace Frame

variable {R : σ → σ → Prop} {r : Request} {s : σ} {serviceId : UInt8}

theorem close (h : Frame R) (s : σ) :
    R s (resetProgrammingState (update (.setSession 0x00) s)) :=
  h.trans (h.setSession _ s) (h.reset _)

theorem requireProgrammingSession (h : Frame R) {service : σ → Outcome σ}
    (hservice : ∀ s, R s (service s).state) :
    R s (requireProgrammingSession serviceId service r s).state := by
  unfold Uds.requireProgrammingSession
  rcases expireSessionIfNeeded_cases r s with ⟨-, he⟩ | ⟨-, he⟩
  · simp only [he]
    split
    · exact h.refl s
    · exact h.trans (h.touchSession _ s) (hservice _)
  · simp only [he]
    rw [if_pos (by rw [currentSession_expired]; decide)]
    exact h.close s

theorem diagnosticSessionControl (h : Frame R) : R s (diagnosticSessionControl r s).state :=
  h.trans (h.trans (h.setSession _ s) (h.reset _)) (h.touchSession _ _)

theorem testerPresent (h : Frame R) : R s (testerPresent r s).state := by
  unfold Uds.testerPresent
  rcases expireSessionIfNeeded_cases r s with ⟨-, he⟩ | ⟨-, he⟩
  · simp only [he]
    split
    · exact h.touchSession _ s
    · exact h.refl s
  · simp only [he]
    rw [if_neg (by rw [currentSession_expired]; decide)]
    exact h.close s

omit [ProgrammingServer σ] in
theorem readDataByIdentifier_state (r : Request) (s : σ) : (readDataByIdentifier r s).state = s := by
  unfold readDataByIdentifier
  split
  · rfl
  · split
    · rfl
    · cases r.currentVersion <;> rfl

theorem startRoutine (h : Frame R) {erase : Bytes → σ → σ} (herase : ∀ data s, R s (erase data s)) :
    R s (startRoutine erase r s).state := by
  unfold Uds.startRoutine
  dsimp only
  split
  · exact herase _ s
  · split
    · split <;> exact h.refl s
    · split
      · split
        · exact h.refl s
        · exact h.markActivation s
      · exact h.refl s

theorem routineControl (h : Frame R) {erase : Bytes → σ → σ}
    (herase : ∀ data s, R s (erase data s)) : R s (routineControl erase r s).state := by
  refine h.requireProgrammingSession fun s ↦ ?_
  split
  · exact h.refl s
  · split
    · exact h.refl s
    · split
      · exact h.refl s
      · exact h.startRoutine herase

theorem receiveBlock (h : Frame R) : R s (receiveBlock r s).state := by
  unfold Uds.receiveBlock
  dsimp only
  split
  · exact h.refl s
  · split
    · exact h.refl s
    · exact h.receive _ s

theorem saveAndVerify (h : Frame R) {conclude : Bool → σ → σ}
    (hconclude : ∀ passed s, R s (conclude passed s)) : R s (saveAndVerify conclude r s).state := by
  unfold Uds.saveAndVerify
  cases r.original with
  | error e => exact h.refl s
  | ok original => exact hconclude _ s

theorem ecuReset (h : Frame R) : R s (ecuReset r s).state := by
  refine h.requireProgrammingSession fun s ↦ ?_
  unfold resetEcu
  dsimp only
  split
  · exact h.trans (h.startInstall s) (h.close _)
  · exact h.close s

end Frame

end Frame

/-! ## The two servers -/

section CanProgrammer

open UDSCanProgrammer

variable {R : UDSCanProgrammer → UDSCanProgrammer → Prop} {r : Request} {p : UDSCanProgrammer}

theorem Frame.handleUds (h : Frame R) (herase : ∀ data p, R p (eraseMemory data p))
    (hbegin : ∀ size p, R p (p.beginDownload size))
    (hconclude : ∀ passed p, R p (conclude passed p))
    (hne : r.payload.head? ≠ some sidSecurityAccess) : R p (handleUds r p).state := by
  cases hhead : r.payload.head? with
  | none =>
      rw [handleUds_of_nil (List.head?_eq_none_iff.mp hhead)]
      exact h.refl p
  | some serviceId =>
      rcases handleUds_cases hhead with ⟨-, -, heq⟩ | ⟨-, heq⟩
      · have hserved := served serviceId r p
        rw [heq]
        generalize serve serviceId r p = o at hserved ⊢
        cases hserved with
        | diagnosticSessionControl => exact h.diagnosticSessionControl
        | testerPresent => exact h.testerPresent
        | readDataByIdentifier =>
            rw [readDataByIdentifier_state]
            exact h.refl p
        | securityAccess => exact absurd hhead hne
        | routineControl => exact h.routineControl herase
        | requestDownload =>
            refine h.requireProgrammingSession fun p ↦ ?_
            split_ifs <;> first | exact h.refl p | exact hbegin _ p
        | transferData =>
            refine h.requireProgrammingSession fun p ↦ ?_
            split_ifs <;> first | exact h.refl p | exact h.receiveBlock
        | requestTransferExit =>
            refine h.requireProgrammingSession fun p ↦ ?_
            split_ifs <;> first | exact h.refl p | exact h.saveAndVerify hconclude
        | ecuReset => exact h.ecuReset
        | unsupported => exact h.refl p
      · rw [heq]
        exact h.refl p

end CanProgrammer

section Gateway

open ECUContext

variable {R : ECUContext → ECUContext → Prop} {r : Request} {ecu : ECUContext} {blockLength : ℕ}

theorem Frame.handle (h : Frame R) (herase : ∀ data ecu, R ecu (eraseMemory data ecu))
    (hbegin : ∀ size ecu, R ecu (ecu.beginDownload size))
    (hconclude : ∀ passed ecu, R ecu (conclude passed ecu))
    (hne : r.payload.head? ≠ some sidSecurityAccess) :
    R ecu (handle blockLength r ecu).state := by
  cases hhead : r.payload.head? with
  | none =>
      rw [handle_of_nil (List.head?_eq_none_iff.mp hhead)]
      exact h.refl ecu
  | some serviceId =>
      have hserved := served blockLength serviceId r ecu
      rw [handle_of_head hhead]
      generalize serve blockLength serviceId r ecu = o at hserved ⊢
      cases hserved with
      | diagnosticSessionControl => exact h.diagnosticSessionControl
      | testerPresent => exact h.testerPresent
      | readDataByIdentifier =>
          rw [Option.getD_some, readDataByIdentifier_state]
          exact h.refl ecu
      | securityAccess => exact absurd hhead hne
      | routineControl => exact h.routineControl herase
      | requestDownload =>
          rw [Option.getD_some]
          refine h.requireProgrammingSession fun ecu ↦ ?_
          split_ifs <;> first | exact h.refl ecu | exact hbegin _ ecu
      | transferData =>
          rw [Option.getD_some]
          refine h.requireProgrammingSession fun ecu ↦ ?_
          split_ifs <;> first | exact h.refl ecu | exact h.receiveBlock
      | requestTransferExit =>
          rw [Option.getD_some]
          refine h.requireProgrammingSession fun ecu ↦ ?_
          split_ifs <;> first | exact h.refl ecu | exact h.saveAndVerify hconclude
      | ecuReset => exact h.ecuReset
      | unhandled => exact h.refl ecu

end Gateway

end VehicleOta.Uds
