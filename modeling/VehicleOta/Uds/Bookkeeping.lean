import VehicleOta.Uds.CanSafety
import VehicleOta.Uds.Transfer

/-!
# The bookkeeping of a download

While a download is requested, the buffer, the sizes, the block count and the expected sequence
number of the CAN programmer are those of the blocks answered positively since the memory was
last erased or requested.
-/

namespace VehicleOta.Uds

open ProgrammingServer TraceLogic

/-! ## What an exchange does to the transfer -/

/-- The attributes that record the transfer. -/
def ProgrammingState.transfer (b : ProgrammingState) : FirmwareReceiver × ℕ × ℕ × ℕ :=
  (b.receiver, b.expectedSize, b.receivedSize, b.expectedTransferSequence)

/-- The record of a transfer of `size` bytes in front of its first block. -/
def freshTransfer (size : ℕ) : FirmwareReceiver × ℕ × ℕ × ℕ :=
  ({ expectedSize := some size }, size, 0, 1)

/-- Neither a fresh transfer nor a block. -/
structure Exchange.Idle (x : Exchange) : Prop where
  notErased : ¬ x.Erased
  notRequested : ¬ x.DownloadRequested
  notBlock : ¬ x.Accepted sidTransferData

section Effect

variable {σ : Type} [ProgrammingServer σ]

/-- What becomes of the record of the transfer, as long as the download stays requested. -/
inductive Effect (s t : σ) (x : Exchange) : Prop where
  | closed (h : downloadRequested t = false)
  | kept (h : (base t).transfer = (base s).transfer) (hx : x.Idle)
      (hrequested : downloadRequested t → downloadRequested s)
  | fresh (size : ℕ) (h : (base t).transfer = freshTransfer size)
      (hx : x.Erased ∨ x.DownloadRequested)
      (hrequested : downloadRequested t → downloadRequested s ∨ x.DownloadRequested)
  | block (h : (base t).transfer =
        ((base s).receive ((base s).chunk (x.request.drop 2))).transfer)
      (hx : x.Accepted sidTransferData) (hrequested : downloadRequested t → downloadRequested s)

variable {s t u : σ} {x : Exchange} {r : Request} {serviceId : UInt8}

theorem idle_of_head (hhead : x.request.head? = some serviceId)
    (hne : serviceId ≠ sidRoutineControl ∧ serviceId ≠ sidRequestDownload ∧
      serviceId ≠ sidTransferData) : x.Idle := by
  have hnot : ∀ other, serviceId ≠ other → ¬ x.Accepted other := fun other h hx ↦
    h (Option.some.inj (hhead.symm.trans hx.1))
  exact ⟨fun h ↦ hnot _ hne.1 h.1, hnot _ hne.2.1, hnot _ hne.2.2⟩

omit [ProgrammingServer σ] in
theorem idle_negative (r : Request) (serviceId code : UInt8) (s : σ) :
    (exchange r (negative serviceId code s)).Idle := by
  have htame := tame_negative r serviceId code s
  refine ⟨htame.notErased, htame.notRequested, not_accepted_of_actions ?_⟩
  simp [negative, reply, Action.responseCode?, sidNegativeResponse, positiveResponseSid,
    sidTransferData]

theorem effect_negative (r : Request) (serviceId code : UInt8)
    (h : (base t).transfer = (base s).transfer) (hrequested : downloadRequested t → downloadRequested s) :
    Effect s t (exchange r (negative serviceId code t)) :=
  .kept h (idle_negative r serviceId code t) hrequested

/-- An effect on a state with the same record. -/
theorem Effect.of_start (h : Effect t u x) (hsame : base t = (base s).touchSession r.touchClock)
    (hrequested : downloadRequested t = downloadRequested s) : Effect s u x := by
  have htransfer : (base t).transfer = (base s).transfer := by
    rw [hsame]
    rfl
  cases h with
  | closed h => exact .closed h
  | kept h hx hr => exact .kept (h.trans htransfer) hx (hrequested ▸ hr)
  | fresh size h hx hr => exact .fresh size h hx (hrequested ▸ hr)
  | block h hx hr => exact .block (h.trans (by rw [hsame]; rfl)) hx (hrequested ▸ hr)

theorem effect_requireProgrammingSession {service : σ → Outcome σ}
    (hservice : ∀ s, Effect s (service s).state (exchange r (service s))) :
    Effect s (requireProgrammingSession serviceId service r s).state
      (exchange r (requireProgrammingSession serviceId service r s)) := by
  unfold requireProgrammingSession
  rcases expireSessionIfNeeded_cases r s with ⟨-, he⟩ | ⟨-, he⟩
  · simp only [he]
    split
    · exact effect_negative r serviceId _ rfl id
    · exact (hservice _).of_start (base_update _ s) (downloadRequested_update _ s)
  · simp only [he]
    rw [if_pos (by rw [currentSession_expired]; decide)]
    exact .closed (downloadRequested_reset _)

theorem effect_diagnosticSessionControl :
    Effect s (diagnosticSessionControl r s).state (exchange r (diagnosticSessionControl r s)) :=
  .closed (by simp [diagnosticSessionControl])

theorem effect_testerPresent (hhead : r.payload.head? = some sidTesterPresent) :
    Effect s (testerPresent r s).state (exchange r (testerPresent r s)) := by
  have hidle : (exchange r (testerPresent r s)).Idle := idle_of_head hhead (by decide)
  revert hidle
  unfold testerPresent
  rcases expireSessionIfNeeded_cases r s with ⟨-, he⟩ | ⟨-, he⟩
  · simp only [he]
    split
    · exact fun hidle ↦ .kept (by simp [Outcome.after]; rfl) hidle (by simp [Outcome.after])
    · exact fun hidle ↦ .kept rfl hidle id
  · simp only [he]
    rw [if_neg (by rw [currentSession_expired]; decide)]
    exact fun _ ↦ .closed (downloadRequested_reset _)

theorem effect_readDataByIdentifier (hhead : r.payload.head? = some sidReadDataByIdentifier) :
    Effect s (readDataByIdentifier r s).state (exchange r (readDataByIdentifier r s)) := by
  have hsame : (readDataByIdentifier r s).state = s := by
    unfold readDataByIdentifier
    split_ifs
    · rfl
    · rfl
    · cases r.currentVersion <;> rfl
  exact .kept (by rw [hsame]) (idle_of_head hhead (by decide)) (by rw [hsame]; exact id)

theorem effect_securityAccess (hhead : r.payload.head? = some sidSecurityAccess) :
    Effect s (securityAccess r s).state (exchange r (securityAccess r s)) := by
  apply effect_requireProgrammingSession
  intro s
  have hkept : ∀ o : Outcome σ, (base o.state).transfer = (base s).transfer →
      downloadRequested o.state = downloadRequested s → Effect s o.state (exchange r o) :=
    fun o h hd ↦ .kept h (idle_of_head hhead (by decide)) (by rw [hd]; exact id)
  split_ifs
  · exact hkept _ rfl rfl
  · unfold requestSeed
    split
    · exact hkept _ rfl rfl
    · exact hkept _ (by simp; rfl) (by simp)
  · unfold sendKey
    split
    · exact hkept _ rfl rfl
    · cases deriveSecurityKey r.security (base s).pendingSeed with
      | error e => exact hkept _ rfl rfl
      | ok key =>
          dsimp only
          split
          · unfold rejectKey
            dsimp only
            split
            · exact hkept _ (by simp [negative]; rfl) (by simp [negative])
            · exact hkept _ (by simp [negative]; rfl) (by simp [negative])
          · exact hkept _ (by simp; rfl) (by simp)
  · exact hkept _ rfl rfl

theorem effect_routineControl {erase : Bytes → σ → σ}
    (herase : ∀ data s, ∃ size, (base (erase data s)).transfer = freshTransfer size)
    (hrequested : ∀ data s, downloadRequested (erase data s) = downloadRequested s)
    (hhead : r.payload.head? = some sidRoutineControl) :
    Effect s (routineControl erase r s).state (exchange r (routineControl erase r s)) := by
  apply effect_requireProgrammingSession
  intro s
  split
  · exact effect_negative r _ _ rfl id
  split
  · exact effect_negative r _ _ rfl id
  split
  · exact effect_negative r _ _ rfl id
  rename_i hstart
  have hidle : ∀ o : Outcome σ, intFromBytes (slice r.payload 2 4) ≠ routineEraseMemory →
      (exchange r o).Idle := fun o hid ↦
    ⟨fun h ↦ hid h.2.2, not_accepted_of_head hhead (by decide),
      not_accepted_of_head hhead (by decide)⟩
  unfold startRoutine
  dsimp only
  split
  · rename_i hid
    obtain ⟨size, hsize⟩ := herase (r.payload.drop 4) s
    refine .fresh size hsize (Or.inl ⟨⟨hhead, ?_⟩, not_not.mp hstart, hid⟩) ?_
    · simp [exchange, responseCodes_routineResponses]
    · rw [hrequested]
      exact Or.inl
  rename_i hid
  split
  · split
    · exact effect_negative r _ _ rfl id
    · exact .kept rfl (hidle _ hid) id
  split
  · split
    · exact effect_negative r _ _ rfl id
    · exact .kept (by simp; rfl) (hidle _ hid) (by simp)
  · exact effect_negative r _ _ rfl id

theorem effect_receiveBlock (hhead : r.payload.head? = some sidTransferData) :
    Effect s (receiveBlock r s).state (exchange r (receiveBlock r s)) := by
  unfold receiveBlock
  dsimp only
  split
  · exact effect_negative r _ _ rfl id
  split
  · exact effect_negative r _ _ rfl id
  · refine .block ?_ ⟨hhead, ?_⟩ (by simp)
    · rw [reply_state, base_update]
      rfl
    · simp [exchange, reply, Action.responseCode?]

theorem effect_ecuReset : Effect s (ecuReset r s).state (exchange r (ecuReset r s)) := by
  apply effect_requireProgrammingSession
  intro s
  unfold resetEcu
  dsimp only
  split <;> exact .closed (downloadRequested_reset _)

end Effect

/-! ## Blocks -/

/-- The data of the blocks answered positively since the memory was last erased or requested. -/
def acceptedBlocks (trace : List Exchange) : List Bytes :=
  trace.foldl (fun blocks x ↦
    if x.Erased ∨ x.DownloadRequested then []
    else if x.Accepted sidTransferData then blocks ++ [x.request.drop 2]
    else blocks) []

theorem acceptedBlocks_concat (trace : List Exchange) (x : Exchange) :
    acceptedBlocks (trace ++ [x]) =
      if x.Erased ∨ x.DownloadRequested then []
      else if x.Accepted sidTransferData then acceptedBlocks trace ++ [x.request.drop 2]
      else acceptedBlocks trace := by
  rw [acceptedBlocks, List.foldl_append]
  rfl

/-- The record of the transfer is that of `blocks`. -/
structure Bookkept (b : ProgrammingState) (blocks : List Bytes) : Prop where
  buffer : b.receiver.buffer = blocks.flatten.take b.expectedSize
  receivedSize : b.receivedSize = b.receiver.buffer.length
  within : b.receivedSize ≤ b.expectedSize
  limit : b.receiver.expectedSize = some b.expectedSize
  chunkCount : b.receiver.chunkCount = blocks.length
  sequence : b.expectedTransferSequence = (1 + blocks.length) % 256

section Bookkept

variable {b c : ProgrammingState} {blocks : List Bytes}

theorem Bookkept.congr (h : Bookkept b blocks) (heq : c.transfer = b.transfer) :
    Bookkept c blocks := by
  simp only [ProgrammingState.transfer, Prod.mk.injEq] at heq
  obtain ⟨hreceiver, hexpected, hreceived, hsequence⟩ := heq
  constructor
  · rw [hreceiver, hexpected, h.buffer]
  · rw [hreceived, hreceiver, h.receivedSize]
  · rw [hreceived, hexpected]
    exact h.within
  · rw [hreceiver, hexpected, h.limit]
  · rw [hreceiver, h.chunkCount]
  · rw [hsequence, h.sequence]

theorem bookkept_of_fresh {size : ℕ} (h : c.transfer = freshTransfer size) : Bookkept c [] := by
  have hfresh : Bookkept { receiver := { expectedSize := some size }, expectedSize := size } [] :=
    ⟨by simp, rfl, Nat.zero_le _, rfl, rfl, rfl⟩
  exact hfresh.congr h

theorem Bookkept.receive (h : Bookkept b blocks) (data : Bytes) :
    Bookkept (b.receive (b.chunk data)) (blocks ++ [data]) where
  buffer := by
    have hlength : b.receivedSize = (blocks.flatten.take b.expectedSize).length := by
      rw [h.receivedSize, h.buffer]
    rw [ProgrammingState.receive, ProgrammingState.chunk, hlength, h.buffer, take_append_chunk,
      List.flatten_concat]
  receivedSize := by
    rw [ProgrammingState.receive, List.length_append, h.receivedSize]
  within := by
    have hle := h.within
    have hchunk : (b.chunk data).length ≤ b.expectedSize - b.receivedSize :=
      List.length_take_le _ _
    rw [ProgrammingState.receive]
    dsimp only
    omega
  limit := h.limit
  chunkCount := by
    rw [ProgrammingState.receive, List.length_append, h.chunkCount]
    rfl
  sequence := by
    have hbyte : ∀ n, n &&& 0xFF = n % 256 := fun n ↦ Nat.and_two_pow_sub_one_eq_mod n 8
    rw [ProgrammingState.receive, List.length_append, List.length_singleton]
    dsimp only
    rw [hbyte, h.sequence]
    omega

end Bookkept

/-- What one exchange does to the bookkeeping. -/
theorem Effect.bookkept {σ : Type} [ProgrammingServer σ] {s t : σ} {x : Exchange}
    {trace : List Exchange} (h : Effect s t x)
    (hs : downloadRequested s → Bookkept (base s) (acceptedBlocks trace))
    (ht : downloadRequested t) : Bookkept (base t) (acceptedBlocks (trace ++ [x])) := by
  rw [acceptedBlocks_concat]
  cases h with
  | closed h => exact absurd (h.symm.trans ht) Bool.false_ne_true
  | kept h hx hr =>
      rw [if_neg (not_or.mpr ⟨hx.notErased, hx.notRequested⟩), if_neg hx.notBlock]
      exact (hs (hr ht)).congr h
  | fresh size h hx hr =>
      rw [if_pos hx]
      exact bookkept_of_fresh h
  | block h hx hr =>
      have hnot : ∀ other, sidTransferData ≠ other → ¬ x.Accepted other := fun other hne hother ↦
        hne (Option.some.inj (hx.1.symm.trans hother.1))
      have hneither : ¬ (x.Erased ∨ x.DownloadRequested) := by
        rintro (herased | hrequested)
        · exact hnot sidRoutineControl (by decide) herased.1
        · exact hnot sidRequestDownload (by decide) hrequested
      rw [if_neg hneither, if_pos hx]
      exact ((hs (hr ht)).receive _).congr h

/-! ## The CAN programmer -/

namespace UDSCanProgrammer

variable {p : UDSCanProgrammer} {r : Request}

theorem effect_requestDownload (hhead : r.payload.head? = some sidRequestDownload) :
    Effect p (requestDownload r p).state (exchange r (requestDownload r p)) := by
  apply effect_requireProgrammingSession
  intro p
  split
  · exact effect_negative r _ _ rfl id
  split
  · exact effect_negative r _ _ rfl id
  split
  · exact effect_negative r _ _ rfl id
  · have hx : (exchange r (reply [positiveResponseSid sidRequestDownload, 0x00, 0x44, 0x00, 0x40]
        (p.beginDownload (intFromBytes (lastBytes r.payload 4))))).DownloadRequested :=
      ⟨hhead, by simp [exchange, reply, Action.responseCode?]⟩
    exact .fresh (intFromBytes (lastBytes r.payload 4)) rfl (Or.inr hx) fun _ ↦ Or.inr hx

theorem effect_transferData (hhead : r.payload.head? = some sidTransferData) :
    Effect p (transferData r p).state (exchange r (transferData r p)) := by
  apply effect_requireProgrammingSession
  intro p
  split
  · exact effect_negative r _ _ rfl id
  split
  · exact effect_negative r _ _ rfl id
  split
  · exact effect_negative r _ _ rfl id
  · exact effect_receiveBlock hhead

theorem effect_requestTransferExit (hhead : r.payload.head? = some sidRequestTransferExit) :
    Effect p (requestTransferExit r p).state (exchange r (requestTransferExit r p)) := by
  apply effect_requireProgrammingSession
  intro p
  split
  · exact effect_negative r _ _ rfl id
  split
  · exact effect_negative r _ _ rfl id
  split
  · exact effect_negative r _ _ rfl id
  · unfold saveAndVerify
    cases r.original with
    | error e => exact .kept rfl (idle_of_head hhead (by decide)) id
    | ok original =>
        refine .kept rfl (idle_of_head hhead (by decide)) fun h ↦ ?_
        exact (concludes_conclude.requested _ p h).1

theorem effect_serve {serviceId : UInt8} (hhead : r.payload.head? = some serviceId) :
    Effect p (serve serviceId r p).state (exchange r (serve serviceId r p)) := by
  have hserved := served serviceId r p
  generalize serve serviceId r p = o at hserved ⊢
  cases hserved with
  | diagnosticSessionControl => exact effect_diagnosticSessionControl
  | testerPresent => exact effect_testerPresent hhead
  | readDataByIdentifier => exact effect_readDataByIdentifier hhead
  | securityAccess => exact effect_securityAccess hhead
  | routineControl =>
      exact effect_routineControl (fun data p ↦ ⟨(p.base.erase data).expectedSize, rfl⟩)
        (fun _ _ ↦ rfl) hhead
  | requestDownload => exact effect_requestDownload hhead
  | transferData => exact effect_transferData hhead
  | requestTransferExit => exact effect_requestTransferExit hhead
  | ecuReset => exact effect_ecuReset
  | unsupported => exact effect_negative r _ _ rfl id

theorem effect_handleUds (r : Request) (p : UDSCanProgrammer) :
    Effect p (handleUds r p).state (exchange r (handleUds r p)) := by
  cases hhead : r.payload.head? with
  | none =>
      rw [handleUds_of_nil (List.head?_eq_none_iff.mp hhead)]
      refine .kept rfl ⟨fun h ↦ ?_, fun h ↦ ?_, fun h ↦ ?_⟩ id
      · simpa [exchange, hhead] using h.1.1
      · simpa [exchange, hhead] using h.1
      · simpa [exchange, hhead] using h.1
  | some serviceId =>
      rcases handleUds_cases hhead with ⟨-, -, heq⟩ | ⟨-, heq⟩
      · rw [heq]
        exact effect_serve hhead
      · rw [heq]
        exact effect_negative r _ _ rfl id

theorem transferData_of_refused (hhead : r.payload.head? = some sidTransferData)
    (hrefused : ¬ (exchange r (transferData r p)).Accepted sidTransferData)
    (halive : ¬ (exchange r (transferData r p)).Expired) :
    (transferData r p).state.base.transfer = p.base.transfer := by
  unfold transferData requireProgrammingSession at *
  rcases expireSessionIfNeeded_cases r p with ⟨-, he⟩ | ⟨-, he⟩
  · simp only [he] at *
    split
    · rfl
    rename_i hprog
    rw [if_neg hprog] at hrefused
    split
    · rfl
    rename_i hlength
    rw [if_neg hlength] at hrefused
    split
    · rfl
    rename_i hunlocked
    rw [if_neg hunlocked] at hrefused
    split
    · rfl
    rename_i hrequested
    rw [if_neg hrequested] at hrefused
    unfold receiveBlock at *
    dsimp only at *
    split
    · rfl
    rename_i hsequence
    rw [if_neg hsequence] at hrefused
    split
    · rfl
    rename_i hempty
    rw [if_neg hempty] at hrefused
    refine absurd ⟨hhead, ?_⟩ hrefused
    simp [exchange, Outcome.after, reply, Action.responseCode?]
  · refine absurd ?_ halive
    simp only [he]
    rw [if_pos (by rw [currentSession_expired]; decide)]
    simp [exchange, Exchange.Expired, Outcome.after]

/-- A refused block changes nothing in the record, unless the session expired. -/
theorem transfer_of_refused (hhead : r.payload.head? = some sidTransferData)
    (hrefused : ¬ (exchange r (handleUds r p)).Accepted sidTransferData)
    (halive : ¬ (exchange r (handleUds r p)).Expired) :
    (handleUds r p).state.base.transfer = p.base.transfer := by
  rcases handleUds_cases hhead with ⟨-, -, hserve⟩ | ⟨-, heq⟩
  · change handleUds r p = transferData r p at hserve
    rw [hserve] at hrefused halive ⊢
    exact transferData_of_refused hhead hrefused halive
  · rw [heq]
    rfl

/-- In every state reached with a requested download the record of the transfer is that of the
blocks answered positively since the memory was last erased or requested; and a block that is
answered negatively in a live session changes none of it. -/
theorem download_bookkeeping (ecuId : ℕ) (ecuKey file version : String)
    (requests : List Request) (p : UDSCanProgrammer) (trace : List Exchange)
    (hrun : (p, trace) = run (step handleUds) (initial ecuId ecuKey file version) requests) :
    (p.downloadRequested →
      p.base.receiver.buffer = (acceptedBlocks trace).flatten.take p.base.expectedSize ∧
      p.base.receivedSize = p.base.receiver.buffer.length ∧
      p.base.receivedSize ≤ p.base.expectedSize ∧
      p.base.receiver.expectedSize = some p.base.expectedSize ∧
      p.base.receiver.chunkCount = (acceptedBlocks trace).length ∧
      p.base.expectedTransferSequence = (1 + (acceptedBlocks trace).length) % 256) ∧
    ∀ r : Request, r.payload.head? = some sidTransferData →
      ¬ (step handleUds p r).2.Accepted sidTransferData → ¬ (step handleUds p r).2.Expired →
        (step handleUds p r).1.base.receiver = p.base.receiver ∧
        (step handleUds p r).1.base.expectedSize = p.base.expectedSize ∧
        (step handleUds p r).1.base.receivedSize = p.base.receivedSize ∧
        (step handleUds p r).1.base.expectedTransferSequence = p.base.expectedTransferSequence := by
  constructor
  · have hbookkept : p.downloadRequested → Bookkept p.base (acceptedBlocks trace) := by
      obtain ⟨rfl, rfl⟩ := Prod.mk.inj hrun
      refine run_invariant (A := fun _ _ _ ↦ True)
        (I := fun (p : UDSCanProgrammer) trace ↦
          p.downloadRequested → Bookkept p.base (acceptedBlocks trace))
        (fun h ↦ absurd h Bool.false_ne_true)
        (fun p _ r h _ ↦ (effect_handleUds r p).bookkept h) requests
        (admissible_of_forall (fun _ _ _ ↦ trivial) _ _)
    intro hrequested
    have h := hbookkept hrequested
    exact ⟨h.buffer, h.receivedSize, h.within, h.limit, h.chunkCount, h.sequence⟩
  · intro r hhead hrefused halive
    have hsame := transfer_of_refused hhead hrefused halive
    simp only [ProgrammingState.transfer, Prod.mk.injEq] at hsame
    exact hsame

/-- The BCM in the middle of its download. -/
theorem download_bookkeeping_bcm :
    (run (step handleUds) (initial 0x202 "bcm" "bcm_v2.bin" "2.0.0")
      (bcmSession.take 6)).1.base.receiver.buffer = [0xAB, 0xCD] := by
  have h := ((download_bookkeeping 0x202 "bcm" "bcm_v2.bin" "2.0.0" (bcmSession.take 6) _ _ rfl).1
    (by decide +kernel)).1
  refine h.trans ?_
  decide +kernel

end UDSCanProgrammer

end VehicleOta.Uds
