import VehicleOta.Uds.DownloadServer
import VehicleOta.Uds.LibraryClient

/-!
# A whole download

What `FlashManager` sends for a firmware reaches the buffer of either server unchanged: the
sizes, the block numbers and the block lengths of the two sides agree for every firmware that
`RequestDownload` can announce and every block length.
-/

namespace VehicleOta.Uds

open ProgrammingServer TraceLogic BlockLogic

/-! ## Responses -/

section Responses

variable {σ : Type}

def Exchange.responses (x : Exchange) : List Bytes := x.actions.filterMap Action.response?

/-- The tester's wait for the final response ends with a positive one. -/
def Exchange.Positive (x : Exchange) : Prop :=
  ∃ serviceId response, x.request.head? = some serviceId ∧
    expectPositiveResponse serviceId x.responses = .ok response

theorem positive_of_response {x : Exchange} {serviceId : UInt8} {parameters : Bytes}
    (hhead : x.request.head? = some serviceId)
    (hservice : positiveResponseSid serviceId ≠ sidNegativeResponse)
    (h : x.actions = [.send (positiveResponseSid serviceId :: parameters)]) : x.Positive := by
  refine ⟨serviceId, positiveResponseSid serviceId :: parameters, hhead, ?_⟩
  have hresponses : x.responses = [positiveResponseSid serviceId :: parameters] := by
    rw [Exchange.responses, h]
    rfl
  rw [hresponses, expectPositiveResponse, checkResponse_positive hservice]
  rfl

/-- The tester waits for the final response of a routine behind the pending one. -/
theorem positive_routineResponses {r : Request} {o : Outcome σ}
    (hhead : r.payload.head? = some sidRoutineControl) (h : o.actions = routineResponses r) :
    (exchange r o).Positive := by
  refine ⟨sidRoutineControl, [positiveResponseSid sidRoutineControl, r.payload.getD 1 0] ++
    slice r.payload 2 4, hhead, ?_⟩
  have hresponses : (exchange r o).responses =
      [[sidNegativeResponse, sidRoutineControl, nrcResponsePending],
        [positiveResponseSid sidRoutineControl, r.payload.getD 1 0] ++ slice r.payload 2 4] := by
    rw [Exchange.responses, exchange, h]
    rfl
  rw [hresponses, expectPositiveResponse, checkResponse_pending, Option.getD_none,
    expectPositiveResponse, List.cons_append, checkResponse_positive (by decide)]
  rfl

end Responses

/-- The request for block number `i`. -/
def blockRequest (c : ℕ) (firmware : Bytes) (i : ℕ) : Bytes :=
  [sidTransferData, UInt8.ofNat ((i + 1) % 256)] ++ block c firmware i

section Server

variable {σ : Type} [ProgrammingServer σ] {handle : Request → σ → Outcome σ} {serving : σ → Prop}
  {r : Request} {s : σ} {firmware : Bytes} {c : ℕ}

/-- A block request in its turn. -/
theorem handle_blockRequest (hserves : ServesDownload handle serving) (hc : 0 < c) {k : ℕ}
    (hk : k < blockCount c firmware) (hs : Ready s) (hserving : serving s) (hr : Live r s)
    (hpayload : r.payload = blockRequest c firmware k)
    (hholds : (base s).Holds firmware.length (firmware.take (k * c)) k) :
    (step handle s r).2.Positive ∧ Ready (step handle s r).1 ∧ serving (step handle s r).1 ∧
      (base (step handle s r).1).Holds firmware.length (firmware.take ((k + 1) * c)) (k + 1) := by
  have hblock := length_block_pos hc hk
  have hfits : (firmware.take (k * c)).length + (block c firmware k).length ≤ firmware.length := by
    rw [← List.length_append, take_append_block]
    exact List.length_take_le' _ _
  have htouched : (base (touched r s)).Holds firmware.length (firmware.take (k * c)) k := by
    rw [touched, base_update]
    exact hholds.touchSession _
  have hreceive := receiveBlock_of_expected htouched (List.length_pos_iff.mp hblock) hfits hpayload
  have heq : handle r s = receiveBlock r (touched r s) := by
    refine (hserves.block r s hs hserving (by rw [hpayload]; rfl) ?_ hr.unexpired).resolve_right
      fun h ↦ h.1 hr
    rw [hpayload]
    simp [blockRequest]
  have hready := hs.touched r
  rw [step, heq, hreceive]
  refine ⟨?_, ⟨?_, ?_⟩, ?_, ?_⟩
  · exact positive_of_response (by rw [exchange, hpayload]; rfl) (by decide) rfl
  · rw [reply_state, base_update]
    exact hready.session
  · rw [reply_state, base_update]
    exact hready.unlocked
  · exact hserves.serving_update _ _ (hserves.serving_update _ _ hserving)
  · rw [reply_state, base_update, ← take_append_block]
    exact htouched.receive _

/-- The blocks from number `k` on, one after the other. -/
theorem run_blocks (hserves : ServesDownload handle serving) (hc : 0 < c) {k m : ℕ}
    (hm : k + m = blockCount c firmware) (hs : Ready s) (hserving : serving s)
    (hholds : (base s).Holds firmware.length (firmware.take (k * c)) k) {inputs : List Request}
    (hinputs : inputs.map Request.payload = (List.range' k m).map (blockRequest c firmware))
    (hlive : Admissible (step handle) (fun s _ r ↦ Live r s) s inputs) :
    (∀ x ∈ (run (step handle) s inputs).2, x.Positive) ∧ Ready (run (step handle) s inputs).1 ∧
      serving (run (step handle) s inputs).1 ∧
      (base (run (step handle) s inputs).1).Holds firmware.length firmware (k + m) := by
  induction m generalizing k s inputs with
  | zero =>
      obtain rfl : inputs = [] := by simpa using hinputs
      have hall : firmware.length ≤ k * c := by
        rw [show k = blockCount c firmware by omega]
        exact length_le_blockCount_mul hc
      rw [List.take_of_length_le hall] at hholds
      exact ⟨by simp, hs, hserving, hholds⟩
  | succ m ih =>
      cases inputs with
      | nil => simp [List.range'_succ] at hinputs
      | cons r inputs =>
          rw [List.range'_succ, List.map_cons, List.map_cons, List.cons.injEq] at hinputs
          obtain ⟨hr, hlive⟩ := hlive.of_cons
          obtain ⟨hpositive, hs, hserving, hholds⟩ :=
            handle_blockRequest hserves hc (by omega) hs hserving hr hinputs.1 hholds
          obtain ⟨hpositives, hs, hserving, hholds⟩ :=
            ih (by omega) hs hserving hholds hinputs.2 hlive
          rw [run_cons]
          refine ⟨List.forall_mem_cons.mpr ⟨hpositive, hpositives⟩, hs, hserving, ?_⟩
          rw [show k + (m + 1) = k + 1 + m by omega]
          exact hholds

/-- What one server makes of the requests of a download. -/
def Delivers (handle : Request → σ → Outcome σ) (firmware : Bytes) (payloads : List Bytes)
    (exit : Bytes) : Prop :=
  ∀ (s : σ) (inputs : List Request), Ready s → inputs.map Request.payload = payloads →
    Admissible (step handle) (fun s _ r ↦ Live r s) s inputs →
      (∀ x ∈ (run (step handle) s inputs).2, x.Positive) ∧
      (base (run (step handle) s inputs).1).receiver.firmwareData = firmware ∧
      ¬ (base (run (step handle) s inputs).1).lengthMismatch ∧
      ∀ r, r.payload = exit → Live r (run (step handle) s inputs).1 →
        ∃ file later, (handle r (run (step handle) s inputs).1).actions =
          responsePending sidRequestTransferExit :: .save file firmware :: later

/-- The request that erases, and the one that asks for the download. -/
def erasePayload (size : ℕ) : Bytes :=
  [sidRoutineControl, routineControlStart] ++ intToBytes 2 routineEraseMemory ++ intToBytes 4 size

def requestPayload (size : ℕ) : Bytes :=
  [sidRequestDownload, 0x00, 0x44] ++ intToBytes 4 0 ++ intToBytes 4 size

theorem handle_erase (hserves : ServesDownload handle serving) {size : ℕ} (hs : Ready s)
    (hr : Live r s) (hpayload : r.payload = erasePayload size) :
    (step handle s r).2.Positive ∧ Ready (step handle s r).1 ∧
      (base (step handle s r).1).eraseCompleted := by
  obtain ⟨erased, heq, hready, herased⟩ := hserves.erase r s _ hs hr hpayload
  rw [step, heq]
  exact ⟨positive_routineResponses (by rw [hpayload]; rfl) rfl, hready, herased⟩

theorem handle_request (hserves : ServesDownload handle serving) {size : ℕ}
    (hsize : size < 256 ^ 4) (hs : Ready s) (herased : (base s).eraseCompleted) (hr : Live r s)
    (hpayload : r.payload = requestPayload size) :
    (step handle s r).2.Positive ∧ Ready (step handle s r).1 ∧ serving (step handle s r).1 ∧
      (base (step handle s r).1).Holds size [] 0 := by
  have hhead : r.payload.head? = some sidRequestDownload := by
    rw [hpayload]
    rfl
  obtain ⟨haccepted, lengths, hactions⟩ := hserves.request r s
    (intToBytes 4 0 ++ intToBytes 4 size) hs herased hr (by rw [hpayload]; rfl) (by simp)
  obtain ⟨hready, hserving, hholds⟩ := hserves.requested r s hhead haccepted
  have hrequested : (exchange r (handle r s)).requestedSize = size := by
    rw [Exchange.requestedSize, exchange, hpayload, requestPayload,
      lastBytes_append _ _ (intToBytes_length 4 size), intFromBytes_intToBytes 4 size hsize]
  rw [hrequested] at hholds
  exact ⟨positive_of_response hhead (by decide) hactions, hready, hserving, hholds⟩

/-- A complete download passes the length check and is saved. -/
theorem handle_exit (hserves : ServesDownload handle serving) {count : ℕ} (hs : Ready s)
    (hserving : serving s) (hholds : (base s).Holds firmware.length firmware count) (hr : Live r s)
    (hpayload : r.payload = [sidRequestTransferExit]) :
    ∃ file later, (handle r s).actions =
      responsePending sidRequestTransferExit :: .save file firmware :: later := by
  obtain ⟨conclude, heq⟩ := hserves.exit r s hs hserving hpayload hr
  have hcomplete : ¬ (base s).lengthMismatch := fun h ↦ (hholds.lengthMismatch_iff.mp h).2 rfl
  have hdata : (base (touched r s)).receiver.firmwareData = firmware := by
    rw [touched, base_update]
    exact (hholds.touchSession _).firmwareData le_rfl
  rw [heq, if_neg hcomplete]
  refine ⟨firmwareFile (touched r s), ?_⟩
  unfold saveAndVerify
  rw [hdata]
  cases r.original with
  | error e => exact ⟨[], rfl⟩
  | ok original => exact ⟨_, rfl⟩

theorem delivers_of_serves (hserves : ServesDownload handle serving) (hc : 0 < c)
    (hlength : firmware.length < 256 ^ 4) :
    Delivers handle firmware
      (erasePayload firmware.length :: requestPayload firmware.length ::
        (List.range (blockCount c firmware)).map (blockRequest c firmware))
      [sidRequestTransferExit] := by
  intro s inputs hs hinputs hlive
  obtain ⟨rErase, inputs, rfl, hErase, hinputs⟩ := List.map_eq_cons_iff.mp hinputs
  obtain ⟨rRequest, inputs, rfl, hRequest, hinputs⟩ := List.map_eq_cons_iff.mp hinputs
  obtain ⟨hr, hlive⟩ := hlive.of_cons
  obtain ⟨hpositiveErase, hs, herased⟩ := handle_erase hserves hs hr hErase
  obtain ⟨hr, hlive⟩ := hlive.of_cons
  obtain ⟨hpositiveRequest, hs, hserving, hholds⟩ :=
    handle_request hserves hlength hs herased hr hRequest
  rw [List.range_eq_range'] at hinputs
  obtain ⟨hpositives, hs, hserving, hholds⟩ := run_blocks hserves hc (Nat.zero_add _) hs hserving
    (by simpa using hholds) hinputs hlive
  rw [run_cons, run_cons]
  refine ⟨?_, hholds.firmwareData le_rfl, fun h ↦ (hholds.lengthMismatch_iff.mp h).2 rfl,
    fun r hpayload hr ↦ ?_⟩
  · exact List.forall_mem_cons.mpr ⟨hpositiveErase, List.forall_mem_cons.mpr
      ⟨hpositiveRequest, hpositives⟩⟩
  · exact handle_exit hserves hs hserving hholds hr hpayload

end Server

/-! ## Both servers -/

theorem mapM_buildTransferData {library? : Option UdsLibrary} (hlibrary : DocumentedLibrary library?)
    (c : ℕ) (firmware : Bytes) :
    (FlashManager.transferData c firmware).mapM
        (fun call ↦ buildTransferData library? call.1 call.2) =
      .ok ((List.range (blockCount c firmware)).map (blockRequest c firmware)) := by
  rw [FlashManager.transferData_eq]
  induction List.range (blockCount c firmware) with
  | nil => rfl
  | cons i rest ih =>
      rw [List.map_cons, List.mapM_cons, ih,
        buildTransferData_eq hlibrary (Nat.mod_lt _ (by decide))]
      rfl

/-- Every firmware that can be announced, cut into blocks of any length, arrives unchanged at
both servers in an unlocked session that does not expire. -/
theorem download_delivers (library? : Option UdsLibrary) (hlibrary : DocumentedLibrary library?)
    (firmware : Bytes) (hlength : firmware.length < 2 ^ 32) (c : ℕ) (hc : 0 < c) :
    ∃ erase request blocks exit,
      FlashManager.eraseMemory library? firmware.length = .ok erase ∧
      FlashManager.requestDownload library? firmware.length = .ok request ∧
      (FlashManager.transferData c firmware).mapM
        (fun call ↦ buildTransferData library? call.1 call.2) = .ok blocks ∧
      buildRequestTransferExit library? = .ok exit ∧
      blocks.length = (firmware.length + c - 1) / c ∧
      (∀ (i : ℕ) (hi : i < blocks.length), ∃ data : Bytes,
        blocks[i] = [sidTransferData, UInt8.ofNat ((i + 1) % 256)] ++ data ∧
          1 ≤ data.length ∧ data.length ≤ c) ∧
      Delivers UDSCanProgrammer.handleUds firmware (erase :: request :: blocks) exit ∧
      ∀ blockLength, Delivers (ECUContext.handle blockLength) firmware
        (erase :: request :: blocks) exit := by
  have hsize : firmware.length < 256 ^ 4 := hlength
  refine ⟨erasePayload firmware.length, requestPayload firmware.length,
    (List.range (blockCount c firmware)).map (blockRequest c firmware), [sidRequestTransferExit],
    ?_, ?_, mapM_buildTransferData hlibrary c firmware, buildRequestTransferExit_eq hlibrary,
    ?_, ?_, ?_, ?_⟩
  · rw [FlashManager.eraseMemory, toBytes_of_lt hsize]
    exact buildRoutineControlStart_eq hlibrary (by decide) _
  · exact buildRequestDownload_eq hlibrary hsize (by decide)
  · rw [List.length_map, List.length_range, blockCount]
  · intro i hi
    rw [List.length_map, List.length_range] at hi
    refine ⟨block c firmware i, by simp [blockRequest], length_block_pos hc hi, ?_⟩
    rw [length_block]
    exact min_le_left _ _
  · exact delivers_of_serves UDSCanProgrammer.servesDownload hc hsize
  · exact fun blockLength ↦ delivers_of_serves (ECUContext.servesDownload blockLength) hc hsize

theorem download_delivers_two_blocks :
    ∃ blocks, (FlashManager.transferData 2 [1, 2, 3]).mapM
        (fun call ↦ buildTransferData none call.1 call.2) = .ok blocks ∧
      blocks.length = 2 ∧
      Delivers UDSCanProgrammer.handleUds [1, 2, 3]
        ([0x31, 1, 0xFF, 0, 0, 0, 0, 3] :: [0x34, 0, 0x44, 0, 0, 0, 0, 0, 0, 0, 3] :: blocks)
        [0x37] := by
  obtain ⟨erase, request, blocks, exit, herase, hrequest, hblocks, hexit, hcount, -, hcan, -⟩ :=
    download_delivers none (fun _ h ↦ absurd h (by simp)) [1, 2, 3] (by decide) 2 (by decide)
  obtain rfl : [0x31, 1, 0xFF, 0, 0, 0, 0, 3] = erase := Except.ok.inj herase
  obtain rfl : [0x34, 0, 0x44, 0, 0, 0, 0, 0, 0, 0, 3] = request := Except.ok.inj hrequest
  obtain rfl : [0x37] = exit := Except.ok.inj hexit
  exact ⟨blocks, hblocks, hcount, hcan⟩

end VehicleOta.Uds
