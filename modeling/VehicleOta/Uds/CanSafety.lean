import VehicleOta.Uds.CanProgrammer
import VehicleOta.Uds.Flags

/-!
# The CAN programmer installs only what it verified

An install thread started by `ECUReset` has the whole programming sequence of the current
session behind it, and the firmware file last saved is the one that was verified.
-/

namespace VehicleOta.Uds.UDSCanProgrammer

open ProgrammingServer TraceLogic

variable {p : UDSCanProgrammer} {r : Request}

/-! ## The services of the CAN programmer -/

theorem erases_eraseMemory : Erases eraseMemory where
  session _ _ := rfl
  unlocked _ _ := rfl
  pending _ _ := rfl
  requested _ _ := rfl
  file _ _ := rfl

theorem concludes_conclude : Concludes conclude where
  session _ _ := rfl
  unlocked _ _ := rfl
  erased _ _ := rfl
  pending _ _ := rfl
  requested passed p h := by
    have h' : (p.downloadRequested && !passed) = true := h
    rwa [Bool.and_eq_true, Bool.not_eq_true'] at h'
  file _ _ := rfl

/-- `RequestTransferExit` and `TransferData` are served after a requested download only. -/
def Allowed (p : UDSCanProgrammer) : Prop := p.downloadRequested

theorem allowed_touchSession (p : UDSCanProgrammer) (now : ℚ)
    (h : Allowed (update (.touchSession now) p)) : Allowed p := h

theorem explained_requestDownload (hhead : r.payload.head? = some sidRequestDownload) :
    Explained Allowed p (requestDownload r p).state (exchange r (requestDownload r p)) := by
  apply explained_requireProgrammingSession allowed_touchSession
  intro p _
  split
  · exact explained_negative (.refl p) r _ _
  · rename_i hguard
    split
    · exact explained_negative (.refl p) r _ _
    · split
      · exact explained_negative (.refl p) r _ _
      · set o := reply _ (p.beginDownload (intFromBytes (lastBytes r.payload 4))) with ho
        have hquiet : (exchange r o).Quiet :=
          ⟨not_accepted_of_head hhead (by decide),
            by simp [exchange, Exchange.Expired, ho, reply]⟩
        have hmark : (exchange r o).DownloadRequested :=
          ⟨hhead, by simp [exchange, ho, reply, Action.responseCode?]⟩
        have herased : p.base.eraseCompleted := by simpa using (not_or.mp hguard).2
        exact {
          session := fun ht ↦ Or.inr ⟨hquiet, ht⟩
          unlocked := fun ht ↦ ⟨hquiet, Or.inl ht⟩
          erased := fun ht ↦ ⟨hquiet, Or.inl ht⟩
          requested := fun _ ↦ ⟨hquiet, Or.inr ⟨hmark, herased⟩⟩
          pending := fun ht ↦ absurd ht Bool.false_ne_true
          fresh := fun _ htp ↦ absurd htp Bool.false_ne_true
          file := rfl }

theorem explained_transferData (hhead : r.payload.head? = some sidTransferData) :
    Explained Allowed p (transferData r p).state (exchange r (transferData r p)) := by
  apply explained_requireProgrammingSession allowed_touchSession
  intro p _
  split
  · exact explained_negative (.refl p) r _ _
  · split
    · exact explained_negative (.refl p) r _ _
    · split
      · exact explained_negative (.refl p) r _ _
      · exact explained_receiveBlock hhead

theorem explained_requestTransferExit (hhead : r.payload.head? = some sidRequestTransferExit) :
    Explained Allowed p (requestTransferExit r p).state
      (exchange r (requestTransferExit r p)) := by
  apply explained_requireProgrammingSession allowed_touchSession
  intro p _
  split
  · exact explained_negative (.refl p) r _ _
  · split
    · exact explained_negative (.refl p) r _ _
    · rename_i hrequested
      split
      · exact explained_negative (.refl p) r _ _
      · exact explained_saveAndVerify concludes_conclude hhead (not_not.mp hrequested)

theorem explained_serve {serviceId : UInt8} (hhead : r.payload.head? = some serviceId) :
    Explained Allowed p (serve serviceId r p).state (exchange r (serve serviceId r p)) := by
  have hserved := served serviceId r p
  generalize serve serviceId r p = o at hserved ⊢
  cases hserved with
  | diagnosticSessionControl => exact explained_diagnosticSessionControl hhead
  | testerPresent => exact explained_testerPresent hhead
  | readDataByIdentifier => exact explained_readDataByIdentifier hhead
  | securityAccess => exact explained_securityAccess hhead allowed_touchSession
  | routineControl => exact explained_routineControl erases_eraseMemory hhead allowed_touchSession
  | requestDownload => exact explained_requestDownload hhead
  | transferData => exact explained_transferData hhead
  | requestTransferExit => exact explained_requestTransferExit hhead
  | ecuReset => exact explained_ecuReset hhead allowed_touchSession
  | unsupported => exact explained_negative (.refl p) r _ _

theorem explained_handleUds (r : Request) (p : UDSCanProgrammer) :
    Explained Allowed p (handleUds r p).state (exchange r (handleUds r p)) := by
  cases hhead : r.payload.head? with
  | none =>
      have hnot : ∀ (o : Outcome UDSCanProgrammer) other, ¬ (exchange r o).Accepted other := by
        rintro o other ⟨h, -⟩
        simp [exchange, hhead] at h
      rw [handleUds_of_nil (List.head?_eq_none_iff.mp hhead)]
      exact .of_within (.refl p) ⟨⟨hnot _ _, by simp [exchange, Exchange.Expired]⟩,
        fun h ↦ hnot _ _ h.1, hnot _ _, rfl⟩
  | some serviceId =>
      rcases handleUds_cases hhead with ⟨-, -, heq⟩ | ⟨-, heq⟩
      · rw [heq]
        exact explained_serve hhead
      · rw [heq]
        exact explained_negative (.refl p) r _ _

/-! ## Launching -/

theorem plain_requestDownload : (requestDownload r p).Plain := by
  apply plain_requireProgrammingSession
  intro p
  split_ifs
  · exact plain_negative _ _ _
  · exact plain_negative _ _ _
  · exact plain_negative _ _ _
  · exact plain_reply _ _

theorem plain_transferData : (transferData r p).Plain := by
  apply plain_requireProgrammingSession
  intro p
  split_ifs
  · exact plain_negative _ _ _
  · exact plain_receiveBlock
  · exact plain_negative _ _ _
  · exact plain_negative _ _ _

theorem installs_requestTransferExit : (requestTransferExit r p).installs = false := by
  apply installs_requireProgrammingSession
  intro p
  split_ifs <;> first | exact (plain_negative _ _ _).installs | exact installs_saveAndVerify

/-- Only two services do more than respond. -/
theorem plain_serve {serviceId : UInt8} (hexit : serviceId ≠ sidRequestTransferExit)
    (hreset : serviceId ≠ sidEcuReset) : (serve serviceId r p).Plain := by
  have hserved := served serviceId r p
  generalize serve serviceId r p = o at hserved ⊢
  cases hserved with
  | diagnosticSessionControl => exact plain_diagnosticSessionControl
  | testerPresent => exact plain_testerPresent
  | readDataByIdentifier => exact plain_readDataByIdentifier
  | securityAccess => exact plain_securityAccess
  | routineControl => exact plain_routineControl
  | requestDownload => exact plain_requestDownload
  | transferData => exact plain_transferData
  | requestTransferExit => exact absurd rfl hexit
  | ecuReset => exact absurd rfl hreset
  | unsupported => exact plain_negative _ _ _

theorem serve_requestTransferExit : serve sidRequestTransferExit r p = requestTransferExit r p :=
  rfl

theorem installs_serve {serviceId : UInt8} (hne : serviceId ≠ sidEcuReset) :
    (serve serviceId r p).installs = false := by
  by_cases hexit : serviceId = sidRequestTransferExit
  · rw [hexit, serve_requestTransferExit]
    exact installs_requestTransferExit
  · exact (plain_serve hexit hne).installs

/-- Only `ECUReset` launches. -/
theorem handleUds_of_installs (h : (handleUds r p).installs) :
    r.payload.head? = some sidEcuReset ∧ handleUds r p = ecuReset r p := by
  cases hhead : r.payload.head? with
  | none =>
      rw [handleUds_of_nil (List.head?_eq_none_iff.mp hhead)] at h
      exact absurd h Bool.false_ne_true
  | some serviceId =>
      rcases handleUds_cases hhead with ⟨-, -, heq⟩ | ⟨-, heq⟩
      · have hsid : serviceId = sidEcuReset := by
          by_contra hne
          rw [heq, installs_serve hne] at h
          exact Bool.false_ne_true h
        subst hsid
        exact ⟨rfl, heq⟩
      · rw [heq] at h
        exact absurd h Bool.false_ne_true

/-! ## Runs -/

/-- The flags of the programmer as a memory of the trace, the verified file included. -/
structure Memory (file : String) (p : UDSCanProgrammer) (trace : List Exchange) : Prop where
  remembered : Remembered p trace
  sameFile : p.firmwareFile = file
  verified : p.base.installPending →
    ∃ data, Verified file data trace ∧ lastSaved trace = some (file, data)

theorem Memory.step {file : String} {p : UDSCanProgrammer} {trace : List Exchange}
    (h : Memory file p trace) (r : Request) :
    Memory file (step handleUds p r).1 (trace ++ [(step handleUds p r).2]) := by
  have he := explained_handleUds r p
  refine ⟨h.remembered.step he, he.file.trans h.sameFile, fun hpending ↦ ?_⟩
  obtain ⟨hquiet, ⟨hp, hnotErased, hnotRequested, hsaves⟩ | ⟨data, hexit, ha, hsaves⟩⟩ :=
    he.pending hpending
  · obtain ⟨data, hverified, hlast⟩ := h.verified hp
    have hnone : (exchange r (handleUds r p)).saves = [] := by
      rcases hsaves with hsaves | ha
      · exact hsaves
      · exact absurd hp (h.remembered.fresh ha)
    refine ⟨data, hverified.concat ⟨hquiet, hnotErased, hnotRequested⟩, ?_⟩
    rw [lastSaved_concat]
    exact (congrArg (fun l ↦ l.getLast?.or (lastSaved trace)) hnone).trans hlast
  · have hfile : ProgrammingServer.firmwareFile p = file := h.sameFile
    rw [hfile] at hexit hsaves
    refine ⟨data, since_of_mark ⟨hexit, hquiet, h.remembered.requested ha⟩, ?_⟩
    rw [lastSaved_concat]
    exact congrArg (fun l ↦ l.getLast?.or (lastSaved trace)) hsaves

/-- The programmer after `__init__`. -/
def initial (ecuId : ℕ) (ecuKey firmwareFile targetVersion : String) : UDSCanProgrammer :=
  { ecuId, ecuKey, firmwareFile, targetVersion }

theorem memory_run (ecuId : ℕ) (ecuKey file version : String) (requests : List Request) :
    Memory file (run (step handleUds) (initial ecuId ecuKey file version) requests).1
      (run (step handleUds) (initial ecuId ecuKey file version) requests).2 := by
  refine run_invariant (A := fun _ _ _ ↦ True) (I := Memory file) ?_
    (fun _ _ r h _ ↦ h.step r) requests (admissible_of_forall (fun _ _ _ ↦ trivial) _ _)
  exact ⟨Remembered.initial rfl rfl, rfl, fun h ↦ absurd h Bool.false_ne_true⟩

/-- Whatever requests came before, a request that starts the install thread is an
`ECUReset` in a session that saw an accepted key, an erased memory, a requested download and
a verified transfer, in this order and with neither an erasure nor another requested download
after it; and the file last saved is the verified one. -/
theorem install_follows_verification (ecuId : ℕ) (ecuKey file version : String)
    (requests : List Request) (r : Request)
    (h : (step handleUds
      (run (step handleUds) (initial ecuId ecuKey file version) requests).1 r).2.Launched) :
    r.payload.head? = some sidEcuReset ∧
      ¬ (step handleUds
        (run (step handleUds) (initial ecuId ecuKey file version) requests).1 r).2.Expired ∧
      ∃ data,
        Verified file data
          (run (step handleUds) (initial ecuId ecuKey file version) requests).2 ∧
        lastSaved (run (step handleUds) (initial ecuId ecuKey file version) requests).2 =
          some (file, data) := by
  have hmemory := memory_run ecuId ecuKey file version requests
  have hinstalls := installs_of_launched h
  obtain ⟨hhead, heq⟩ := handleUds_of_installs hinstalls
  obtain ⟨hpending, hexpired⟩ := ecuReset_of_installs (heq ▸ hinstalls)
  refine ⟨hhead, ?_, hmemory.verified hpending⟩
  simpa only [step, heq] using hexpired

/-- A session of the BCM that ends with an install. -/
def bcmSession : List Request :=
  [{ payload := [0x10, 0x02], touchClock := 1 },
   { payload := [0x27, 0x01], expiryClock := 2, touchClock := 2, securityClock := 2 },
   { payload := [0x27, 0x02, 0xA7, 0x58, 0x3C, 0xC2], expiryClock := 3, touchClock := 3 },
   { payload := [0x31, 0x01, 0xFF, 0x00, 0, 0, 0, 2], expiryClock := 4, touchClock := 4 },
   { payload := [0x34, 0x00, 0x44, 8, 0, 0, 0, 0, 0, 0, 2], expiryClock := 5, touchClock := 5 },
   { payload := [0x36, 0x01, 0xAB, 0xCD, 0xEF], expiryClock := 6, touchClock := 6 },
   { payload := [0x37], expiryClock := 7, touchClock := 7, original := .ok [0xAB, 0xCD] },
   { payload := [0x31, 0x01, 0xFF, 0x02], expiryClock := 8, touchClock := 8 }]

def bcmReset : Request := { payload := [0x11, 0x01], expiryClock := 9, touchClock := 9 }

theorem install_follows_verification_bcm :
    ∃ data, Verified "bcm_v2.bin" data
      (run (step handleUds) (initial 0x202 "bcm" "bcm_v2.bin" "2.0.0") bcmSession).2 :=
  have h := install_follows_verification 0x202 "bcm" "bcm_v2.bin" "2.0.0" bcmSession bcmReset
    (by decide +kernel)
  h.2.2.imp fun _ hdata ↦ hdata.1

end VehicleOta.Uds.UDSCanProgrammer
