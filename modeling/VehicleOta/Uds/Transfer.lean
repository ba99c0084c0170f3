import VehicleOta.Uds.Flags

/-!
# The receive buffer as a memory of the transferred blocks

Between two erasures or requested downloads of one session the buffer grows by the blocks
answered positively, cut to the size that is still expected.
-/

namespace VehicleOta.Uds

open ProgrammingServer TraceLogic

/-- The data of a block answered positively. -/
def Exchange.blockData (x : Exchange) : Bytes :=
  if x.Accepted sidTransferData then x.request.drop 2 else []

/-- The size that a `RequestDownload` asks for. -/
def Exchange.requestedSize (x : Exchange) : ℕ := intFromBytes (lastBytes x.request 4)

def transferred (trace : List Exchange) : Bytes := trace.flatMap Exchange.blockData

/-- Taking the part of a block that is still expected keeps a prefix of all the data. -/
theorem take_append_chunk {α : Type*} (data block : List α) (size : ℕ) :
    data.take size ++ block.take (size - (data.take size).length) = (data ++ block).take size := by
  rw [List.take_append, List.length_take]
  congr 2
  omega

section Services

variable {σ : Type} [ProgrammingServer σ] {s t : σ} {r : Request} {o : Outcome σ}

/-- The buffer of `t` is that of `s` with the expected part of `data` behind it. -/
structure Receives (s t : σ) (data : Bytes) : Prop where
  buffer : (base t).receiver.buffer = (base s).receiver.buffer ++ (base s).chunk data
  receivedSize : (base t).receivedSize = (base s).receivedSize + ((base s).chunk data).length
  expectedSize : (base t).expectedSize = (base s).expectedSize
  limit : (base t).receiver.expectedSize = (base s).receiver.expectedSize

theorem receives_nil (hreceiver : (base t).receiver = (base s).receiver)
    (hreceived : (base t).receivedSize = (base s).receivedSize)
    (hexpected : (base t).expectedSize = (base s).expectedSize) : Receives s t [] := by
  constructor <;> simp [ProgrammingState.chunk, hreceiver, hreceived, hexpected]

theorem receives_touchSession (now : ℚ) (s : σ) :
    Receives s (update (.touchSession now) s) [] := by
  apply receives_nil <;> rw [base_update] <;> rfl

/-- In an undisturbed session only `TransferData` reaches the buffer. -/
def Undisturbed (r : Request) (s : σ) (o : Outcome σ) : Prop :=
  (exchange r o).Quiet → ¬ (exchange r o).Erased → ¬ (exchange r o).DownloadRequested →
    (base o.state).currentSession = defaultSessionProgramming →
      Receives s o.state (exchange r o).blockData

theorem undisturbed_of_nil (hdata : ¬ (exchange r o).Accepted sidTransferData)
    (h : Receives s o.state []) : Undisturbed r s o := by
  intro _ _ _ _
  rw [Exchange.blockData, if_neg hdata]
  exact h

theorem undisturbed_negative (h : Receives s t []) (r : Request) (serviceId code : UInt8) :
    Undisturbed r s (negative serviceId code t) := by
  refine undisturbed_of_nil (not_accepted_of_actions ?_) h
  simp [negative, reply, Action.responseCode?, sidNegativeResponse, positiveResponseSid,
    sidTransferData]

theorem receives_refl (s : σ) : Receives s s [] := receives_nil rfl rfl rfl

/-- A closed session has nothing to keep. -/
theorem undisturbed_of_closed (h : (base o.state).currentSession = 0x00) : Undisturbed r s o := by
  intro _ _ _ hprog
  exact absurd (h.symm.trans hprog) (by decide)

theorem Undisturbed.of_start {s' : σ} (hs : Receives s s' [])
    (h : Undisturbed r s' o) : Undisturbed r s o := by
  intro hquiet herased hrequested hprog
  have hr := h hquiet herased hrequested hprog
  have hbuffer : (base s').receiver.buffer = (base s).receiver.buffer := by
    simpa [ProgrammingState.chunk] using hs.buffer
  have hsize : (base s').receivedSize = (base s).receivedSize := by
    simpa [ProgrammingState.chunk] using hs.receivedSize
  have hchunk : (base s').chunk (exchange r o).blockData =
      (base s).chunk (exchange r o).blockData := by
    rw [ProgrammingState.chunk, ProgrammingState.chunk, hs.expectedSize, hsize]
  exact ⟨by rw [hr.buffer, hbuffer, hchunk], by rw [hr.receivedSize, hsize, hchunk],
    hr.expectedSize.trans hs.expectedSize, hr.limit.trans hs.limit⟩

theorem undisturbed_requireProgrammingSession {serviceId : UInt8} {service : σ → Outcome σ}
    (hservice : ∀ s, Undisturbed r s (service s)) :
    Undisturbed r s (requireProgrammingSession serviceId service r s) := by
  unfold requireProgrammingSession
  rcases expireSessionIfNeeded_cases r s with ⟨-, he⟩ | ⟨-, he⟩
  · simp only [he]
    split
    · exact undisturbed_negative (receives_refl s) r serviceId _
    · exact (hservice _).of_start (receives_touchSession _ s)
  · simp only [he]
    rw [if_pos (by rw [currentSession_expired]; decide)]
    exact undisturbed_of_closed (currentSession_expired s)

theorem undisturbed_diagnosticSessionControl
    (hhead : r.payload.head? = some sidDiagnosticSessionControl) :
    Undisturbed r s (diagnosticSessionControl r s) := by
  intro hquiet
  refine absurd ⟨hhead, ?_⟩ hquiet.1
  simp [exchange, diagnosticSessionControl, reply, Action.responseCode?]

theorem undisturbed_testerPresent (hhead : r.payload.head? = some sidTesterPresent) :
    Undisturbed r s (testerPresent r s) := by
  unfold testerPresent
  rcases expireSessionIfNeeded_cases r s with ⟨-, he⟩ | ⟨-, he⟩
  · simp only [he]
    refine undisturbed_of_nil (not_accepted_of_head hhead (by decide)) ?_
    dsimp only [Outcome.after, reply]
    split
    · exact receives_touchSession _ s
    · exact receives_refl s
  · simp only [he]
    rw [if_neg (by rw [currentSession_expired]; decide)]
    exact undisturbed_of_closed (currentSession_expired s)

theorem undisturbed_readDataByIdentifier
    (hhead : r.payload.head? = some sidReadDataByIdentifier) :
    Undisturbed r s (readDataByIdentifier r s) := by
  refine undisturbed_of_nil (not_accepted_of_head hhead (by decide)) ?_
  unfold readDataByIdentifier
  split_ifs
  · exact receives_refl s
  · exact receives_refl s
  · cases r.currentVersion <;> exact receives_refl s

theorem undisturbed_securityAccess (hhead : r.payload.head? = some sidSecurityAccess) :
    Undisturbed r s (securityAccess r s) := by
  apply undisturbed_requireProgrammingSession
  intro s
  refine undisturbed_of_nil (not_accepted_of_head hhead (by decide)) ?_
  have hupdate : ∀ f : ProgrammingState → ProgrammingState, ∀ s : σ,
      (f (base s)).receiver = (base s).receiver →
      (f (base s)).receivedSize = (base s).receivedSize →
      (f (base s)).expectedSize = (base s).expectedSize → Receives s (update f s) [] :=
    fun f s h1 h2 h3 ↦ receives_nil (by rwa [base_update]) (by rwa [base_update])
      (by rwa [base_update])
  split_ifs
  · exact receives_refl s
  · unfold requestSeed
    split
    · exact receives_refl s
    · exact hupdate (.issueSeed _) s rfl rfl rfl
  · unfold sendKey
    split
    · exact receives_refl s
    · cases deriveSecurityKey r.security (base s).pendingSeed with
      | error e => exact receives_refl s
      | ok key =>
          dsimp only
          split
          · unfold rejectKey
            dsimp only
            split
            · refine receives_nil ?_ ?_ ?_ <;> simp only [negative, reply_state, base_update] <;>
                rfl
            · exact hupdate ProgrammingState.countFailure s rfl rfl rfl
          · exact hupdate ProgrammingState.unlock s rfl rfl rfl
  · exact receives_refl s

theorem undisturbed_startRoutine {erase : Bytes → σ → σ}
    (hhead : r.payload.head? = some sidRoutineControl)
    (hstart : r.payload.getD 1 0 = routineControlStart) :
    Undisturbed r s (startRoutine erase r s) := by
  have hnot : ∀ o : Outcome σ, ¬ (exchange r o).Accepted sidTransferData := fun o ↦
    not_accepted_of_head hhead (by decide)
  unfold startRoutine
  dsimp only
  split
  · rename_i hid
    intro _ hnotErased
    exact absurd ⟨⟨hhead, by simp [exchange, responseCodes_routineResponses]⟩, hstart, hid⟩
      hnotErased
  · split
    · split
      · exact undisturbed_negative (receives_refl s) r _ _
      · exact undisturbed_of_nil (hnot _) (receives_refl s)
    · split
      · split
        · exact undisturbed_negative (receives_refl s) r _ _
        · refine undisturbed_of_nil (hnot _) ?_
          apply receives_nil <;> rw [base_update] <;> rfl
      · exact undisturbed_negative (receives_refl s) r _ _

theorem undisturbed_routineControl {erase : Bytes → σ → σ}
    (hhead : r.payload.head? = some sidRoutineControl) :
    Undisturbed r s (routineControl erase r s) := by
  apply undisturbed_requireProgrammingSession
  intro s
  split
  · exact undisturbed_negative (receives_refl s) r _ _
  · split
    · exact undisturbed_negative (receives_refl s) r _ _
    · split
      · exact undisturbed_negative (receives_refl s) r _ _
      · rename_i hstart
        exact undisturbed_startRoutine hhead (not_not.mp hstart)

theorem undisturbed_receiveBlock (hhead : r.payload.head? = some sidTransferData) :
    Undisturbed r s (receiveBlock r s) := by
  unfold receiveBlock
  dsimp only
  split
  · exact undisturbed_negative (receives_refl s) r _ _
  · split
    · exact undisturbed_negative (receives_refl s) r _ _
    · intro _ _ _ _
      have haccepted : (exchange r (reply [positiveResponseSid sidTransferData, r.payload.getD 1 0]
          (update (.receive ((base s).chunk (r.payload.drop 2))) s))).Accepted sidTransferData :=
        ⟨hhead, by simp [exchange, reply, Action.responseCode?]⟩
      rw [Exchange.blockData, if_pos haccepted]
      constructor <;> simp only [reply_state, base_update] <;> rfl

theorem undisturbed_saveAndVerify {conclude : Bool → σ → σ}
    (hhead : r.payload.head? = some sidRequestTransferExit)
    (hconclude : ∀ passed s, Receives s (conclude passed s) []) :
    Undisturbed r s (saveAndVerify conclude r s) := by
  refine undisturbed_of_nil (not_accepted_of_head hhead (by decide)) ?_
  unfold saveAndVerify
  cases r.original with
  | error e => exact receives_refl s
  | ok original => exact hconclude _ s

theorem undisturbed_ecuReset : Undisturbed r s (ecuReset r s) := by
  apply undisturbed_requireProgrammingSession
  intro s
  apply undisturbed_of_closed
  unfold resetEcu
  dsimp only
  split
  · exact currentSession_expired (update ProgrammingState.startInstall s)
  · exact currentSession_expired s

end Services

end VehicleOta.Uds
