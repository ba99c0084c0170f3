import VehicleOta.Uds.Download

/-!
# A download under retries

Whatever requests and responses are lost or late, a server accepts the blocks of a download in
their order and each of them at most once.  So the buffer is the firmware as soon as the length
check of `RequestTransferExit` passes.
-/

namespace VehicleOta.Uds

open ProgrammingServer TraceLogic BlockLogic

/-! ## The invariant -/

section Server

variable {σ : Type} [ProgrammingServer σ]

/-- A waiting client is at a block that is not behind the blocks under way, nor behind the last
accepted one. -/
def Client.Leads (firmware : Bytes) (c next : ℕ) (queued : List ℕ) : Client → Prop
  | .waiting call _ request _ _ => request = blockRequest c firmware call ∧
      call < blockCount c firmware ∧ next ≤ call + 1 ∧ ∀ j ∈ queued, j ≤ call
  | _ => True

/-- The blocks `taken` were accepted, all before number `next`, and the requests under way are
those of the blocks `queued`, in their order and none older than the last accepted one. -/
structure InTransfer (firmware : Bytes) (c : ℕ) (serving : σ → Prop) (taken : List ℕ) (next : ℕ)
    (queued : List ℕ) (l : Session σ) : Prop where
  ready : Ready l.server
  serving : serving l.server
  holds : (base l.server).Holds firmware.length (taken.flatMap (block c firmware)) next
  taken : taken.Sublist (List.range next)
  next_le : next ≤ blockCount c firmware
  requests : l.requests = queued.map (blockRequest c firmware)
  sorted : queued.Pairwise (· ≤ ·)
  recent : ∀ j ∈ queued, next ≤ j + 1 ∧ j < blockCount c firmware
  client : l.client.Leads firmware c next queued

variable {library? : Option UdsLibrary} {firmware : Bytes} {c next call : ℕ} {serving : σ → Prop}
  {taken queued : List ℕ} {l : Session σ}

/-- The client alone moves. -/
theorem InTransfer.withClient (h : InTransfer firmware c serving taken next queued l)
    {client : Client} (hclient : client.Leads firmware c next queued) :
    InTransfer firmware c serving taken next queued { l with client := client } :=
  { h with client := hclient }

/-- The client sends the request for block number `call`, the first time or again. -/
theorem InTransfer.send (h : InTransfer firmware c serving taken next queued l)
    (hcall : call < blockCount c firmware) (hnext : next ≤ call + 1) (hqueued : ∀ j ∈ queued, j ≤ call)
    {sequence attempt : ℕ} :
    InTransfer firmware c serving taken next (queued ++ [call])
      { l with
        client := .waiting call sequence (blockRequest c firmware call) attempt false
        requests := l.requests ++ [blockRequest c firmware call] } where
  ready := h.ready
  serving := h.serving
  holds := h.holds
  taken := h.taken
  next_le := h.next_le
  requests := by rw [h.requests, List.map_append, List.map_singleton]
  sorted := by
    rw [List.pairwise_append]
    refine ⟨h.sorted, List.pairwise_singleton _ _, fun j hj k hk ↦ ?_⟩
    exact List.mem_singleton.mp hk ▸ hqueued j hj
  recent := by
    intro j hj
    rcases List.mem_append.mp hj with hj | hj
    · exact h.recent j hj
    · exact List.mem_singleton.mp hj ▸ ⟨hnext, hcall⟩
  client := by
    refine ⟨rfl, hcall, hnext, fun j hj ↦ ?_⟩
    rcases List.mem_append.mp hj with hj | hj
    · exact hqueued j hj
    · exact (List.mem_singleton.mp hj).le

theorem InTransfer.startCall (h : InTransfer firmware c serving taken next queued l)
    (hlibrary : DocumentedLibrary library?) (hnext : next ≤ call + 1)
    (hqueued : ∀ j ∈ queued, j ≤ call) :
    ∃ queued, InTransfer firmware c serving taken next queued
      (l.startCall library? (FlashManager.transferData c firmware) call) := by
  unfold Session.startCall
  rw [FlashManager.transferData_eq, List.getElem?_map]
  by_cases hcall : call < blockCount c firmware
  · rw [List.getElem?_range hcall, Option.map_some]
    dsimp only
    rw [buildTransferData_eq hlibrary (Nat.mod_lt _ (by decide))]
    exact ⟨_, h.send hcall hnext hqueued⟩
  · rw [List.getElem?_eq_none (by rw [List.length_range]; omega), Option.map_none]
    exact ⟨queued, h.withClient trivial⟩

theorem InTransfer.lose (h : InTransfer firmware c serving taken next queued l) (k : ℕ) :
    InTransfer firmware c serving taken next (queued.eraseIdx k)
      { l with requests := l.requests.eraseIdx k } :=
  have hsub : (queued.eraseIdx k).Sublist queued := List.eraseIdx_sublist _ _
  { h with
    requests := by
      dsimp only
      rw [h.requests, List.eraseIdx_map]
    sorted := h.sorted.sublist hsub
    recent := fun j hj ↦ h.recent j (hsub.subset hj)
    client := by
      have hleads := h.client
      revert hleads
      dsimp only
      cases l.client with
      | waiting call sequence request attempt pending =>
          intro hleads
          exact ⟨hleads.1, hleads.2.1, hleads.2.2.1, fun j hj ↦ hleads.2.2.2 j (hsub.subset hj)⟩
      | returned => exact id
      | raised e => exact id }

/-! ## The client -/

theorem InTransfer.receive (h : InTransfer firmware c serving taken next queued l)
    (hlibrary : DocumentedLibrary library?) (response : Bytes) :
    ∃ queued, InTransfer firmware c serving taken next queued
      (l.receive library? (FlashManager.transferData c firmware) response) := by
  have hleads := h.client
  unfold Session.receive
  cases hclient : l.client with
  | returned => exact ⟨queued, h⟩
  | raised e => exact ⟨queued, h⟩
  | waiting call sequence request attempt pending =>
      rw [hclient] at hleads
      -- a call that returns hands over to the next one
      have hnext : ∃ queued, InTransfer firmware c serving taken next queued
          (l.startCall library? (FlashManager.transferData c firmware) (call + 1)) :=
        h.startCall hlibrary (hleads.2.2.1.trans (Nat.le_succ _))
          fun j hj ↦ (hleads.2.2.2 j hj).trans (Nat.le_succ _)
      dsimp only
      split
      · exact hnext
      unfold Session.finishCall
      split
      · exact ⟨queued, h.withClient hleads⟩
      · exact ⟨queued, h.withClient trivial⟩
      · split
        · exact ⟨queued, h.withClient trivial⟩
        · exact hnext

theorem InTransfer.expire (h : InTransfer firmware c serving taken next queued l) :
    ∃ queued, InTransfer firmware c serving taken next queued l.expire := by
  have hleads := h.client
  unfold Session.expire
  cases hclient : l.client with
  | returned => exact ⟨queued, h⟩
  | raised e => exact ⟨queued, h⟩
  | waiting call sequence request attempt pending =>
      rw [hclient] at hleads
      obtain ⟨rfl, hcall, hnext, hqueued⟩ := hleads
      dsimp only
      split
      · exact ⟨queued, h.withClient trivial⟩
      · exact ⟨_, h.send hcall hnext hqueued⟩

/-! ## The server -/

/-- The request for block number `j`, which is not older than the last accepted block: the
block is refused, or it is a new one and taken whole. -/
theorem handle_queued {handle : Request → σ → Outcome σ} (hserves : ServesDownload handle serving)
    {r : Request} {s : σ} {j : ℕ} (hs : Ready s) (hserving : serving s)
    (hholds : (base s).Holds firmware.length (taken.flatMap (block c firmware)) next)
    (htaken : taken.Sublist (List.range next)) (hnext : next ≤ j + 1)
    (hne : block c firmware j ≠ []) (hpayload : r.payload = blockRequest c firmware j)
    (hr : (base s).sessionExpired r.expiryClock = false) :
    ∃ (taken : List ℕ) (next : ℕ), Ready (handle r s).state ∧ serving (handle r s).state ∧
      (base (handle r s).state).Holds firmware.length (taken.flatMap (block c firmware)) next ∧
      taken.Sublist (List.range next) ∧ next ≤ j + 1 := by
  have hlength : 2 ≤ r.payload.length := by
    rw [hpayload]
    simp [blockRequest]
  rcases hserves.block r s hs hserving (by rw [hpayload]; rfl) hlength hr with
    heq | ⟨-, code, heq⟩
  · have hready := hs.touched r
    have htouched : (base (touched r s)).Holds firmware.length
        (taken.flatMap (block c firmware)) next := by
      rw [touched, base_update]
      exact hholds.touchSession _
    have hserving : serving (touched r s) := hserves.serving_update _ _ hserving
    rw [heq]
    by_cases hnumber : (j + 1) % 256 = (next + 1) % 256
    · -- the number is the expected one, so the block is none of those accepted before
      have hnew : next ≤ j := by omega
      have htaken := sublist_range_concat htaken hnew
      have hflat : (taken ++ [j]).flatMap (block c firmware) =
          taken.flatMap (block c firmware) ++ block c firmware j := by
        rw [List.flatMap_append, List.flatMap_singleton]
      have hfits : ((taken ++ [j]).flatMap (block c firmware)).length ≤ firmware.length :=
        length_flatMap_le_of_sublist htaken
      rw [hflat, List.length_append] at hfits
      have hexpected := htouched.of_mod_eq (show next % 256 = j % 256 by omega)
      rw [receiveBlock_of_expected hexpected hne hfits hpayload, reply_state]
      refine ⟨taken ++ [j], j + 1, ⟨?_, ?_⟩, hserves.serving_update _ _ hserving, ?_, htaken, le_rfl⟩
      · rw [base_update]
        exact hready.session
      · rw [base_update]
        exact hready.unlocked
      · rw [base_update, hflat]
        exact hexpected.receive _
    · rw [receiveBlock_of_unexpected htouched]
      · exact ⟨taken, next, hready, hserving, htouched, htaken, hnext⟩
      · rw [hpayload]
        change (UInt8.ofNat ((j + 1) % 256)).toNat ≠ (next + 1) % 256
        rw [UInt8.toNat_ofNat', Nat.mod_mod]
        exact hnumber
  · rw [heq]
    exact ⟨taken, next, hs, hserving, hholds, htaken, hnext⟩

theorem InTransfer.deliver {handle : Request → σ → Outcome σ}
    (hserves : ServesDownload handle serving) (hc : 0 < c)
    (h : InTransfer firmware c serving taken next queued l) {r : Request} {requests : List Bytes}
    (hrequests : l.requests = r.payload :: requests)
    (hr : (base l.server).sessionExpired r.expiryClock = false) (responses : List Bytes) :
    ∃ taken next queued, InTransfer firmware c serving taken next queued
      { l with
        requests := requests
        responses := responses
        server := (handle r l.server).state } := by
  have hqueue := hrequests.symm.trans h.requests
  cases queued with
  | nil => simp at hqueue
  | cons j queued =>
      rw [List.map_cons, List.cons.injEq] at hqueue
      obtain ⟨hnext, hj⟩ := h.recent j List.mem_cons_self
      obtain ⟨hfirst, hsorted⟩ := List.pairwise_cons.mp h.sorted
      have hne : block c firmware j ≠ [] := List.length_pos_iff.mp (length_block_pos hc hj)
      obtain ⟨taken', next', hready, hserving, hholds, htaken, hnext'⟩ :=
        handle_queued hserves h.ready h.serving h.holds h.taken hnext hne hqueue.1 hr
      refine ⟨taken', next', queued, hready, hserving, hholds, htaken, by omega, hqueue.2, hsorted,
        fun i hi ↦ ?_, ?_⟩
      · have hij := hfirst i hi
        exact ⟨by omega, (h.recent i (List.mem_cons_of_mem _ hi)).2⟩
      · have hleads := h.client
        revert hleads
        dsimp only
        cases l.client with
        | waiting call sequence request attempt pending =>
            rintro ⟨hrequest, hcall, -, hqueued⟩
            have hjcall := hqueued j List.mem_cons_self
            exact ⟨hrequest, hcall, by omega, fun i hi ↦ hqueued i (List.mem_cons_of_mem _ hi)⟩
        | returned => exact fun _ ↦ trivial
        | raised e => exact fun _ ↦ trivial

/-! ## Runs -/

theorem InTransfer.step {handle : Request → σ → Outcome σ}
    (hserves : ServesDownload handle serving) (hc : 0 < c) (hlibrary : DocumentedLibrary library?)
    (h : InTransfer firmware c serving taken next queued l) {e : Event} (hunexpired : l.Unexpired e)
    {l' : Session σ}
    (hstep : l.step? library? (FlashManager.transferData c firmware) handle e = some l') :
    ∃ taken next queued, InTransfer firmware c serving taken next queued l' := by
  cases e with
  | deliver r =>
      unfold Session.step? at hstep
      dsimp only at hstep
      cases hrequests : l.requests with
      | nil =>
          rw [hrequests] at hstep
          cases hstep
      | cons payload requests =>
          rw [hrequests] at hstep
          dsimp only at hstep
          split at hstep
          · rename_i hpayload
            rw [← Option.some.inj hstep]
            exact h.deliver hserves hc (by rw [hrequests, hpayload]) hunexpired _
          · cases hstep
  | loseRequest k => exact ⟨taken, next, _, Option.some.inj hstep ▸ h.lose k⟩
  | loseResponse k => exact ⟨taken, next, queued, Option.some.inj hstep ▸ { h with }⟩
  | read =>
      unfold Session.step? at hstep
      dsimp only at hstep
      cases hresponses : l.responses with
      | nil =>
          rw [hresponses] at hstep
          cases hstep
      | cons response responses =>
          rw [hresponses] at hstep
          have hrest : InTransfer firmware c serving taken next queued
              { l with responses := responses } := { h with }
          obtain ⟨queued', h'⟩ := hrest.receive hlibrary response
          exact ⟨taken, next, queued', Option.some.inj hstep ▸ h'⟩
  | timeout =>
      obtain ⟨queued', h'⟩ := h.expire
      exact ⟨taken, next, queued', Option.some.inj hstep ▸ h'⟩
  | abort e =>
      unfold Session.step? at hstep
      dsimp only at hstep
      split at hstep
      · exact ⟨taken, next, queued, Option.some.inj hstep ▸ h.withClient trivial⟩
      · cases hstep

theorem inTransfer_of_reachable {handle : Request → σ → Outcome σ}
    (hserves : ServesDownload handle serving) (hc : 0 < c) (hlibrary : DocumentedLibrary library?)
    {s : σ} (hs : Ready s) (hserving : serving s) (hholds : (base s).Holds firmware.length [] 0)
    (hreach : Session.Reachable library? (FlashManager.transferData c firmware) handle
      (Session.start library? (FlashManager.transferData c firmware) s) l) :
    ∃ taken next queued, InTransfer firmware c serving taken next queued l := by
  induction hreach with
  | refl =>
      have hidle : InTransfer firmware c serving [] 0 [] { client := .returned, server := s } :=
        ⟨hs, hserving, hholds, List.nil_sublist _, Nat.zero_le _, rfl, List.Pairwise.nil,
          by simp, trivial⟩
      obtain ⟨queued, h⟩ := hidle.startCall hlibrary (Nat.zero_le (0 + 1)) (by simp)
      exact ⟨[], 0, queued, h⟩
  | tail _ hstep ih =>
      obtain ⟨taken, next, queued, h⟩ := ih
      obtain ⟨e, hunexpired, hstep⟩ := hstep
      exact h.step hserves hc hlibrary hunexpired hstep

/-- What the length check lets through is the whole firmware. -/
theorem InTransfer.complete (h : InTransfer firmware c serving taken next queued l) (hc : 0 < c)
    (hne : firmware ≠ []) (hcomplete : ¬ (base l.server).lengthMismatch) :
    taken = List.range (blockCount c firmware) ∧ (base l.server).receiver.buffer = firmware := by
  have hlength : (taken.flatMap (block c firmware)).length = firmware.length := by
    by_contra hdiff
    exact hcomplete (h.holds.lengthMismatch_iff.mpr ⟨mt List.length_eq_zero_iff.mp hne, hdiff⟩)
  have hsub : taken.Sublist (List.range (blockCount c firmware)) :=
    h.taken.trans (List.range_sublist.mpr h.next_le)
  have hall := eq_range_of_sublist hc hsub hlength.ge
  refine ⟨hall, ?_⟩
  rw [h.holds.buffer, hall, flatMap_blocks hc]

/-- Behind an accepted `RequestDownload` for the firmware, the length check passes in no state
that the transfer reaches but those with exactly the firmware in the buffer. -/
def ExactUnderRetries (handle : Request → σ → Outcome σ) (library? : Option UdsLibrary)
    (firmware : Bytes) (c : ℕ) : Prop :=
  ∀ (r : Request) (s : σ) (l : Session σ), r.payload.head? = some sidRequestDownload →
    (exchange r (handle r s)).Accepted sidRequestDownload →
    (exchange r (handle r s)).requestedSize = firmware.length →
    Session.Reachable library? (FlashManager.transferData c firmware) handle
      (Session.start library? (FlashManager.transferData c firmware) (handle r s).state) l →
    ¬ (base l.server).lengthMismatch → (base l.server).receiver.buffer = firmware

theorem exact_of_serves {handle : Request → σ → Outcome σ} (hserves : ServesDownload handle serving)
    (hlibrary : DocumentedLibrary library?) (hne : firmware ≠ []) (hc : 0 < c) :
    ExactUnderRetries handle library? firmware c := by
  intro r s l hhead haccepted hsize hreach hcomplete
  obtain ⟨hs, hserving, hholds⟩ := hserves.requested r s hhead haccepted
  rw [hsize] at hholds
  obtain ⟨taken, next, queued, h⟩ :=
    inTransfer_of_reachable hserves hc hlibrary hs hserving hholds hreach
  exact (h.complete hc hne hcomplete).2

end Server

/-- Whatever is lost or late, on both servers a download that passes the length check is exactly
the firmware. -/
theorem retried_transfer_exact (library? : Option UdsLibrary) (hlibrary : DocumentedLibrary library?)
    (firmware : Bytes) (hne : firmware ≠ []) (c : ℕ) (hc : 0 < c) :
    ExactUnderRetries UDSCanProgrammer.handleUds library? firmware c ∧
      ∀ blockLength, ExactUnderRetries (ECUContext.handle blockLength) library? firmware c :=
  ⟨exact_of_serves UDSCanProgrammer.servesDownload hlibrary hne hc, fun blockLength ↦
    exact_of_serves (ECUContext.servesDownload blockLength) hlibrary hne hc⟩

/-- A programmer that was unlocked and erased, and the requests of a download of one byte. -/
def erasedBcm : UDSCanProgrammer :=
  { ecuId := 0x101, ecuKey := "bcm", firmwareFile := "bcm.bin", targetVersion := "2.0.0"
    base := { currentSession := 0x02, securityUnlocked := true, eraseCompleted := true } }

def oneByteDownload : Request := { payload := [0x34, 0, 0x44, 0, 0, 0, 0, 0, 0, 0, 1] }

def oneByteBlock : Request := { payload := [0x36, 1, 7] }

def bcmAfter (requests : List Request) : UDSCanProgrammer :=
  (run (step UDSCanProgrammer.handleUds) erasedBcm requests).1

/-- The client behind its second request for the block. -/
def resent (requests responses : List Bytes) (p : UDSCanProgrammer) : Session UDSCanProgrammer :=
  ⟨.waiting 0 1 oneByteBlock.payload 2 false, requests, responses, p⟩

/-- The one block is sent twice, and the first response comes after the second request. -/
theorem retried_transfer_exact_resent :
    (bcmAfter [oneByteDownload, oneByteBlock, oneByteBlock]).base.receiver.buffer = [7] := by
  have hresend : (Session.start none (FlashManager.transferData 1 [7])
      (bcmAfter [oneByteDownload])).step? none (FlashManager.transferData 1 [7])
        UDSCanProgrammer.handleUds .timeout =
      some (resent [[0x36, 1, 7], [0x36, 1, 7]] [] (bcmAfter [oneByteDownload])) := rfl
  have haccept : Session.step? none (FlashManager.transferData 1 [7]) UDSCanProgrammer.handleUds
      (resent [[0x36, 1, 7], [0x36, 1, 7]] [] (bcmAfter [oneByteDownload]))
        (.deliver oneByteBlock) =
      some (resent [[0x36, 1, 7]] [[0x76, 1]] (bcmAfter [oneByteDownload, oneByteBlock])) := rfl
  have hrefuse : Session.step? none (FlashManager.transferData 1 [7]) UDSCanProgrammer.handleUds
      (resent [[0x36, 1, 7]] [[0x76, 1]] (bcmAfter [oneByteDownload, oneByteBlock]))
        (.deliver oneByteBlock) =
      some (resent [] [[0x76, 1], [0x7F, 0x36, 0x73]]
        (bcmAfter [oneByteDownload, oneByteBlock, oneByteBlock])) := rfl
  have hread : Session.step? none (FlashManager.transferData 1 [7]) UDSCanProgrammer.handleUds
      (resent [] [[0x76, 1], [0x7F, 0x36, 0x73]]
        (bcmAfter [oneByteDownload, oneByteBlock, oneByteBlock])) .read =
      some ⟨.returned, [], [[0x7F, 0x36, 0x73]],
        bcmAfter [oneByteDownload, oneByteBlock, oneByteBlock]⟩ := rfl
  have hreach : Session.Reachable none (FlashManager.transferData 1 [7]) UDSCanProgrammer.handleUds
      (Session.start none (FlashManager.transferData 1 [7]) (bcmAfter [oneByteDownload]))
      ⟨.returned, [], [[0x7F, 0x36, 0x73]],
        bcmAfter [oneByteDownload, oneByteBlock, oneByteBlock]⟩ :=
    (((Relation.ReflTransGen.single ⟨.timeout, trivial, hresend⟩).tail
      ⟨.deliver oneByteBlock, rfl, haccept⟩).tail ⟨.deliver oneByteBlock, rfl, hrefuse⟩).tail
        ⟨.read, trivial, hread⟩
  exact (retried_transfer_exact none (fun _ h ↦ absurd h (by simp)) [7] (by simp) 1 one_pos).1
    oneByteDownload erasedBcm _ rfl (by decide) rfl hreach (by decide)

end VehicleOta.Uds
