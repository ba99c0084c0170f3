import VehicleOta.Uds.DoipServer
import VehicleOta.Uds.Transfer

/-!
# One request to the gateway proxy

Where the flags and the buffer after a request come from, when `RequestDownload` is answered
positively and when `RequestTransferExit` verifies.
-/

namespace VehicleOta.Uds.ECUContext

open ProgrammingServer TraceLogic

variable {ecu : ECUContext} {r : Request} {blockLength : ℕ} {trace : List Exchange}

/-! ## The services of the proxy -/

theorem erases_eraseMemory : Erases eraseMemory where
  session _ _ := rfl
  unlocked _ _ := rfl
  pending _ _ := rfl
  requested _ _ := rfl
  file _ _ := rfl

theorem concludes_conclude : Concludes conclude where
  session _ _ := rfl
  unlocked _ _ := rfl
  erased _ _ := rfl
  pending _ _ := rfl
  requested _ _ h := absurd h Bool.false_ne_true
  file _ _ := rfl

theorem explained_requestDownload (hhead : r.payload.head? = some sidRequestDownload) :
    Explained (fun _ ↦ True) ecu (requestDownload blockLength r ecu).state
      (exchange r (requestDownload blockLength r ecu)) := by
  apply explained_requireProgrammingSession (fun _ _ h ↦ h)
  intro ecu _
  split
  · exact explained_negative (.refl ecu) r _ _
  · set o := reply _ (ecu.beginDownload (intFromBytes (lastBytes r.payload 4))) with ho
    have hquiet : (exchange r o).Quiet :=
      ⟨not_accepted_of_head hhead (by decide), by simp [exchange, Exchange.Expired, ho, reply]⟩
    exact {
      session := fun ht ↦ Or.inr ⟨hquiet, ht⟩
      unlocked := fun ht ↦ ⟨hquiet, Or.inl ht⟩
      erased := fun ht ↦ ⟨hquiet, Or.inl ht⟩
      requested := fun ht ↦ absurd ht Bool.false_ne_true
      pending := fun ht ↦ absurd ht Bool.false_ne_true
      fresh := fun ht ↦ absurd ht Bool.false_ne_true
      file := rfl }

theorem explained_transferData (hhead : r.payload.head? = some sidTransferData) :
    Explained (fun _ ↦ True) ecu (transferData r ecu).state
      (exchange r (transferData r ecu)) := by
  apply explained_requireProgrammingSession (fun _ _ h ↦ h)
  intro ecu _
  split
  · exact explained_negative (.refl ecu) r _ _
  · split
    · exact explained_negative (.refl ecu) r _ _
    · exact explained_receiveBlock hhead

theorem explained_requestTransferExit (hhead : r.payload.head? = some sidRequestTransferExit) :
    Explained (fun _ ↦ True) ecu (requestTransferExit r ecu).state
      (exchange r (requestTransferExit r ecu)) := by
  apply explained_requireProgrammingSession (fun _ _ h ↦ h)
  intro ecu _
  split
  · exact explained_negative (.refl ecu) r _ _
  · split
    · exact explained_negative (.refl ecu) r _ _
    · exact explained_saveAndVerify concludes_conclude hhead trivial

theorem undisturbed_transferData (hhead : r.payload.head? = some sidTransferData) :
    Undisturbed r ecu (transferData r ecu) := by
  apply undisturbed_requireProgrammingSession
  intro ecu
  split
  · exact undisturbed_negative (receives_refl ecu) r _ _
  · split
    · exact undisturbed_negative (receives_refl ecu) r _ _
    · exact undisturbed_receiveBlock hhead

theorem undisturbed_requestTransferExit (hhead : r.payload.head? = some sidRequestTransferExit) :
    Undisturbed r ecu (requestTransferExit r ecu) := by
  apply undisturbed_requireProgrammingSession
  intro ecu
  split
  · exact undisturbed_negative (receives_refl ecu) r _ _
  · split
    · exact undisturbed_negative (receives_refl ecu) r _ _
    · exact undisturbed_saveAndVerify hhead fun _ _ ↦ receives_nil rfl rfl rfl

/-- A negative answer comes with nothing else; a positive one starts the download. -/
theorem undisturbed_requestDownload (hhead : r.payload.head? = some sidRequestDownload) :
    Undisturbed r ecu (requestDownload blockLength r ecu) := by
  apply undisturbed_requireProgrammingSession
  intro ecu
  split
  · exact undisturbed_negative (receives_refl ecu) r _ _
  · intro _ _ hnot
    exact absurd ⟨hhead, by simp [exchange, reply, Action.responseCode?]⟩ hnot

/-! ## Every request -/

theorem explained_handle (blockLength : ℕ) (r : Request) (ecu : ECUContext) :
    Explained (fun _ ↦ True) ecu (handle blockLength r ecu).state
        (exchange r (handle blockLength r ecu)) ∧
      Undisturbed r ecu (handle blockLength r ecu) := by
  have hunhandled : (∀ other : UInt8, other ∈ [sidDiagnosticSessionControl, sidRoutineControl,
      sidRequestDownload, sidTransferData] → r.payload.head? ≠ some other) →
      Explained (fun _ ↦ True) ecu ecu (exchange r ⟨ecu, [], none⟩) ∧
        Undisturbed r ecu ⟨ecu, [], none⟩ := by
    intro hne
    have hnot : ∀ other, other ∈ [sidDiagnosticSessionControl, sidRoutineControl,
        sidRequestDownload, sidTransferData] →
        ¬ (exchange r (⟨ecu, [], none⟩ : Outcome ECUContext)).Accepted other :=
      fun other hmem h ↦ hne other hmem h.1
    exact ⟨.of_within (.refl ecu) ⟨⟨hnot _ (by simp), by simp [exchange, Exchange.Expired]⟩,
      fun h ↦ hnot _ (by simp) h.1, hnot _ (by simp), rfl⟩,
      undisturbed_of_nil (hnot _ (by simp)) (receives_refl ecu)⟩
  cases hhead : r.payload.head? with
  | none =>
      rw [handle_of_nil (List.head?_eq_none_iff.mp hhead)]
      exact hunhandled (by simp [hhead])
  | some serviceId =>
      have hserved := served blockLength serviceId r ecu
      rw [handle_of_head hhead]
      generalize serve blockLength serviceId r ecu = o at hserved ⊢
      cases hserved with
      | diagnosticSessionControl =>
          exact ⟨explained_diagnosticSessionControl hhead,
            undisturbed_diagnosticSessionControl hhead⟩
      | testerPresent => exact ⟨explained_testerPresent hhead, undisturbed_testerPresent hhead⟩
      | readDataByIdentifier =>
          exact ⟨explained_readDataByIdentifier hhead, undisturbed_readDataByIdentifier hhead⟩
      | securityAccess =>
          exact ⟨explained_securityAccess hhead fun _ _ h ↦ h, undisturbed_securityAccess hhead⟩
      | routineControl =>
          exact ⟨explained_routineControl erases_eraseMemory hhead fun _ _ h ↦ h,
            undisturbed_routineControl hhead⟩
      | requestDownload => exact ⟨explained_requestDownload hhead, undisturbed_requestDownload hhead⟩
      | transferData => exact ⟨explained_transferData hhead, undisturbed_transferData hhead⟩
      | requestTransferExit =>
          exact ⟨explained_requestTransferExit hhead, undisturbed_requestTransferExit hhead⟩
      | ecuReset => exact ⟨explained_ecuReset hhead fun _ _ h ↦ h, undisturbed_ecuReset⟩
      | unhandled _ hne =>
          refine hunhandled fun other hmem ↦ ?_
          rw [hhead, Ne, Option.some.injEq]
          refine hne other ?_
          simp only [List.mem_cons, List.not_mem_nil, or_false] at hmem ⊢
          tauto

/-- A positive answer to `RequestDownload` means an erased memory and an empty buffer. -/
theorem handle_downloadRequested
    (h : (exchange r (handle blockLength r ecu)).DownloadRequested) :
    ecu.base.eraseCompleted ∧
      base (handle blockLength r ecu).state =
        ((base ecu).touchSession r.touchClock).beginDownload
          (intFromBytes (lastBytes r.payload 4)) := by
  have hhead : r.payload.head? = some sidRequestDownload := h.1
  have hserve : handle blockLength r ecu = requestDownload blockLength r ecu := handle_of_head hhead
  rw [hserve] at h ⊢
  rcases requireProgrammingSession_cases sidRequestDownload _ r ecu with ⟨-, -, heq⟩ | hrefused
  · rw [requestDownload, heq] at h ⊢
    split at h
    · exact absurd h (tame_negative r _ _ _).notRequested
    · rename_i hguard
      rw [if_neg hguard]
      exact ⟨not_not.mp (not_or.mp hguard).2, rfl⟩
  · obtain ⟨a, ha, hcode⟩ := List.mem_map.mp h.2
    rcases hrefused a ha with rfl | hnegative
    · simp [Action.responseCode?] at hcode
    · exact absurd (hnegative.symm.trans hcode) (by decide)

/-- The conditions under which `RequestTransferExit` verifies the buffer successfully. -/
def Verifies (ecu : ECUContext) (r : Request) : Prop :=
  r.payload.head? = some sidRequestTransferExit ∧
    ecu.base.sessionExpired r.expiryClock = false ∧
    ecu.base.currentSession = defaultSessionProgramming ∧ ecu.base.securityUnlocked = true ∧
    ecu.base.lengthMismatch = false ∧
    ∃ original, r.original = .ok original ∧ ecu.base.receiver.verify original = true

theorem saveAndVerify_verified {file : String} {data original : Bytes}
    (hsave : .save file data ∈ (saveAndVerify conclude r ecu).actions)
    (hcompare : .compare original data true ∈ (saveAndVerify conclude r ecu).actions) :
    r.original = .ok original ∧ ecu.base.receiver.verify original = true ∧
      data = ecu.base.receiver.firmwareData := by
  unfold saveAndVerify at hsave hcompare
  cases horiginal : r.original with
  | error e => simp [horiginal, responsePending] at hcompare
  | ok other =>
      simp only [horiginal, responsePending, List.cons_append, List.nil_append, List.mem_cons,
        reduceCtorEq, false_or, List.not_mem_nil, or_false, Action.compare.injEq,
        Action.save.injEq] at hsave hcompare
      obtain ⟨rfl, -, hverify⟩ := hcompare
      exact ⟨rfl, hverify.symm, hsave.2⟩

/-- Nothing but the buffer is saved and verified. -/
theorem handle_transferExited {file : String} {data : Bytes}
    (h : (exchange r (handle blockLength r ecu)).TransferExited file data) :
    ecu.Verifies r ∧ data = ecu.base.receiver.firmwareData := by
  obtain ⟨⟨hhead, -⟩, hsave, original, hcompare, -⟩ := h
  have hhead : r.payload.head? = some sidRequestTransferExit := hhead
  have hserve : handle blockLength r ecu = requestTransferExit r ecu := handle_of_head hhead
  rw [hserve] at hsave hcompare
  rcases requireProgrammingSession_cases sidRequestTransferExit _ r ecu with
    ⟨hunexpired, hprog, heq⟩ | hrefused
  · rw [requestTransferExit, heq] at hsave hcompare
    split at hsave
    · simp [exchange, negative, reply] at hsave
    · rename_i hunlocked
      rw [if_neg hunlocked] at hcompare
      split at hsave
      · simp [exchange, negative, reply] at hsave
      · rename_i hlength
        rw [if_neg hlength] at hcompare
        obtain ⟨horiginal, hverify, hdata⟩ := saveAndVerify_verified hsave hcompare
        exact ⟨⟨hhead, hunexpired, hprog, not_not.mp hunlocked, Bool.eq_false_iff.mpr hlength,
          original, horiginal, hverify⟩, hdata⟩
  · rcases hrefused _ hsave with h | h <;> simp [Action.responseCode?] at h

/-! ## Launching -/

theorem plain_requestDownload : (requestDownload blockLength r ecu).Plain := by
  apply plain_requireProgrammingSession
  intro ecu
  split_ifs
  · exact plain_negative _ _ _
  · exact plain_reply _ _

theorem plain_transferData : (transferData r ecu).Plain := by
  apply plain_requireProgrammingSession
  intro ecu
  split_ifs
  · exact plain_negative _ _ _
  · exact plain_receiveBlock
  · exact plain_negative _ _ _

theorem installs_requestTransferExit : (requestTransferExit r ecu).installs = false := by
  apply installs_requireProgrammingSession
  intro ecu
  split_ifs <;> first | exact (plain_negative _ _ _).installs | exact installs_saveAndVerify

theorem serve_of_ne_ecuReset {serviceId : UInt8} (hne : serviceId ≠ sidEcuReset)
    {o : Outcome ECUContext} (h : serve blockLength serviceId r ecu = some o) : o.installs = false := by
  have hserved := served blockLength serviceId r ecu
  rw [h] at hserved
  cases hserved with
  | diagnosticSessionControl => exact plain_diagnosticSessionControl.installs
  | testerPresent => exact plain_testerPresent.installs
  | readDataByIdentifier => exact plain_readDataByIdentifier.installs
  | securityAccess => exact plain_securityAccess.installs
  | routineControl => exact plain_routineControl.installs
  | requestDownload => exact plain_requestDownload.installs
  | transferData => exact plain_transferData.installs
  | requestTransferExit => exact installs_requestTransferExit
  | ecuReset => exact absurd rfl hne

/-- Only `ECUReset` launches. -/
theorem handle_of_installs (h : (handle blockLength r ecu).installs) :
    r.payload.head? = some sidEcuReset ∧ handle blockLength r ecu = ecuReset r ecu := by
  cases hhead : r.payload.head? with
  | none =>
      rw [handle_of_nil (List.head?_eq_none_iff.mp hhead)] at h
      exact absurd h Bool.false_ne_true
  | some serviceId =>
      have hsid : serviceId = sidEcuReset := by
        by_contra hne
        rw [handle_of_head hhead] at h
        cases hserve : serve blockLength serviceId r ecu with
        | none =>
            rw [hserve] at h
            exact absurd h Bool.false_ne_true
        | some o =>
            rw [hserve, Option.getD_some, serve_of_ne_ecuReset hne hserve] at h
            exact absurd h Bool.false_ne_true
      subst hsid
      exact ⟨rfl, handle_of_head hhead⟩

end VehicleOta.Uds.ECUContext
