import VehicleOta.Uds.DoipServices

/-!
# What the gateway proxy installs

The proxy does not remember that a download was requested, and a session change leaves the
receive buffer alone.  Where every verified transfer follows a download requested in its own
session, an install has the whole programming sequence behind it; without that, bytes of an
earlier session can be verified and installed.
-/

namespace VehicleOta.Uds

open ProgrammingServer TraceLogic

/-! ## Stages of a delivery -/

/-- A download of `size` bytes was requested after an erasure in this session, and `data` is
what the blocks answered positively since then carried, cut to that size. -/
def Delivered (size : ℕ) (data : Bytes) (trace : List Exchange) : Prop :=
  ∃ past download blocks, trace = past ++ download :: blocks ∧
    download.DownloadRequested ∧ download.Quiet ∧ MemoryErased past ∧ (∀ x ∈ blocks, x.Quiet) ∧
    download.requestedSize = size ∧ data = (transferred blocks).take size

/-- In this session `RequestTransferExit` saved and verified what was delivered. -/
def DeliveryVerified (file : String) (data : Bytes) : List Exchange → Prop :=
  Since Exchange.Quiet fun past x ↦
    x.TransferExited file data ∧ x.Quiet ∧ ∃ size, Delivered size data past

/-- A download was requested in this session and the memory was not erased since. -/
def FreshDownload : List Exchange → Prop :=
  Since (fun x ↦ x.Quiet ∧ ¬ x.Erased) fun _ x ↦ x.DownloadRequested ∧ x.Quiet

theorem Delivered.concat {size : ℕ} {data : Bytes} {trace : List Exchange} {x : Exchange}
    (h : Delivered size data trace) (hx : x.Quiet) :
    Delivered size (data ++ x.blockData.take (size - data.length)) (trace ++ [x]) := by
  obtain ⟨past, download, blocks, rfl, hdownload, hquiet, herased, hblocks, hsize, rfl⟩ := h
  refine ⟨past, download, blocks ++ [x], by simp, hdownload, hquiet, herased, ?_, hsize, ?_⟩
  · intro y hy
    rcases List.mem_append.mp hy with hy | hy
    · exact hblocks y hy
    · exact List.mem_singleton.mp hy ▸ hx
  · rw [take_append_chunk]
    simp [transferred]

theorem DeliveryVerified.requested {file : String} {data : Bytes} {trace : List Exchange}
    (h : DeliveryVerified file data trace) :
    Since Exchange.Quiet (fun _ x ↦ x.DownloadRequested) trace := by
  obtain ⟨past, exit, rest, rfl, ⟨-, hquiet, size, before, download, blocks, rfl, hdownload, -, -,
    hblocks, -⟩, hrest⟩ := h
  refine ⟨before, download, blocks ++ exit :: rest, by simp, hdownload, ?_⟩
  intro x hx
  rcases List.mem_append.mp hx with hx | hx
  · exact hblocks x hx
  · rcases List.mem_cons.mp hx with rfl | hx
    · exact hquiet
    · exact hrest x hx

namespace ECUContext

variable {ecu : ECUContext} {r : Request} {blockLength : ℕ} {trace : List Exchange}

/-! ## Runs -/

/-- A transfer is verified only where a download is fresh. -/
def Sequenced (ecu : ECUContext) (past : List Exchange) (r : Request) : Prop :=
  ecu.Verifies r → FreshDownload past

theorem sequenced_of_head (h : r.payload.head? ≠ some sidRequestTransferExit) :
    Sequenced ecu trace r := fun hverifies ↦ absurd hverifies.1 h

/-- The buffer holds what was delivered. -/
structure BufferDelivered (ecu : ECUContext) (trace : List Exchange) : Prop where
  delivered : Delivered ecu.base.expectedSize ecu.base.receiver.buffer trace
  receivedSize : ecu.base.receivedSize = ecu.base.receiver.buffer.length
  unlimited : ecu.base.receiver.expectedSize = none

structure Memory (file : String) (ecu : ECUContext) (trace : List Exchange) : Prop where
  remembered : Remembered ecu trace
  sameFile : ecu.profile.firmwareFile = file
  buffer : ecu.base.currentSession = defaultSessionProgramming → FreshDownload trace →
    BufferDelivered ecu trace
  verified : ecu.base.installPending → ∃ data, DeliveryVerified file data trace

/-- A requested download starts an empty delivery. -/
theorem bufferDelivered_of_requested (hmemory : MemoryErased trace)
    (hrequested : (exchange r (handle blockLength r ecu)).DownloadRequested)
    (hquiet : (exchange r (handle blockLength r ecu)).Quiet) :
    BufferDelivered (handle blockLength r ecu).state
      (trace ++ [exchange r (handle blockLength r ecu)]) := by
  obtain ⟨-, hbase⟩ := handle_downloadRequested hrequested
  have hbase : (handle blockLength r ecu).state.base =
      (ecu.base.touchSession r.touchClock).beginDownload (intFromBytes (lastBytes r.payload 4)) :=
    hbase
  refine ⟨⟨trace, _, [], rfl, hrequested, hquiet, hmemory, by simp, ?_, ?_⟩, ?_, ?_⟩
  · rw [hbase]
    rfl
  · rw [hbase]
    simp [transferred, ProgrammingState.beginDownload, FirmwareReceiver.clear]
  · rw [hbase]
    rfl
  · rw [hbase]
    rfl

theorem BufferDelivered.concat {t : ECUContext} {x : Exchange} (h : BufferDelivered ecu trace)
    (hx : x.Quiet) (hr : Receives ecu t x.blockData) : BufferDelivered t (trace ++ [x]) := by
  have hchunk : (ProgrammingServer.base ecu).chunk x.blockData =
      x.blockData.take (ecu.base.expectedSize - ecu.base.receiver.buffer.length) := by
    rw [← h.receivedSize]
    rfl
  have hbuffer : t.base.receiver.buffer = ecu.base.receiver.buffer ++
      x.blockData.take (ecu.base.expectedSize - ecu.base.receiver.buffer.length) :=
    hchunk ▸ hr.buffer
  refine ⟨?_, ?_, hr.limit.trans h.unlimited⟩
  · have hsize : t.base.expectedSize = ecu.base.expectedSize := hr.expectedSize
    rw [hbuffer, hsize]
    exact h.delivered.concat hx
  · have hreceived : t.base.receivedSize = ecu.base.receivedSize +
        (x.blockData.take (ecu.base.expectedSize - ecu.base.receiver.buffer.length)).length :=
      hchunk ▸ hr.receivedSize
    rw [hreceived, hbuffer, List.length_append, h.receivedSize]

theorem Memory.step {file : String} (h : Memory file ecu trace) (r : Request)
    (hsequenced : Sequenced ecu trace r) :
    Memory file (step (handle blockLength) ecu r).1
      (trace ++ [(step (handle blockLength) ecu r).2]) := by
  obtain ⟨he, hundisturbed⟩ := explained_handle blockLength r ecu
  refine ⟨h.remembered.step he, he.file.trans h.sameFile, fun hprog hfresh ↦ ?_,
    fun hpending ↦ ?_⟩
  · -- either this exchange requested the download, or the one in progress goes on
    by_cases hrequested : (exchange r (handle blockLength r ecu)).DownloadRequested
    · obtain ⟨herased, -⟩ := handle_downloadRequested hrequested
      rcases since_concat_iff.mp hfresh with ⟨-, hquiet⟩ | ⟨-, hquiet, -⟩ <;>
        exact bufferDelivered_of_requested (h.remembered.erased herased) hrequested hquiet
    · rcases since_concat_iff.mp hfresh with ⟨hdownload, -⟩ | ⟨hfresh, hquiet, herased⟩
      · exact absurd hdownload hrequested
      · have hsession : ecu.base.currentSession = defaultSessionProgramming := by
          rcases he.session hprog with ⟨hcontrol, -⟩ | ⟨-, hs⟩
          · exact absurd hcontrol hquiet.1
          · exact hs
        exact (h.buffer hsession hfresh).concat hquiet
          (hundisturbed hquiet herased hrequested hprog)
  · obtain ⟨hquiet, ⟨hp, -⟩ | ⟨data, hexit, -⟩⟩ := he.pending hpending
    · obtain ⟨data, hverified⟩ := h.verified hp
      exact ⟨data, hverified.concat hquiet⟩
    · obtain ⟨hverifies, hdata⟩ := handle_transferExited hexit
      have hbuffer := h.buffer hverifies.2.2.1 (hsequenced hverifies)
      have hfirmware : ecu.base.receiver.firmwareData = ecu.base.receiver.buffer := by
        rw [FirmwareReceiver.firmwareData, hbuffer.unlimited]
      have hfile : ProgrammingServer.firmwareFile ecu = file := h.sameFile
      rw [hfile] at hexit
      refine ⟨data, since_of_mark ⟨hexit, hquiet, ecu.base.expectedSize, ?_⟩⟩
      rw [hdata, hfirmware]
      exact hbuffer.delivered

theorem memory_run (blockLength : ℕ) (key : String) (address : ℕ) (profile : Profile)
    (requests : List Request)
    (h : Admissible (step (handle blockLength)) Sequenced (initial key address profile) requests) :
    Memory profile.firmwareFile
      (run (step (handle blockLength)) (initial key address profile) requests).1
      (run (step (handle blockLength)) (initial key address profile) requests).2 :=
  run_invariant (I := Memory profile.firmwareFile)
    ⟨Remembered.initial rfl rfl, rfl, fun h ↦ absurd h (by simp [initial, defaultSessionProgramming]),
      fun h ↦ absurd h Bool.false_ne_true⟩
    (fun _ _ r h hs ↦ h.step r hs) requests h

/-- Where every verified transfer follows a fresh download, a request that starts the install
thread is an `ECUReset` in a session that saw an accepted key, an erased memory, a requested
download and the blocks whose data the transfer exit saved and verified. -/
theorem install_follows_delivery (blockLength : ℕ) (key : String) (address : ℕ)
    (profile : Profile) (requests : List Request) (r : Request)
    (hrun : Admissible (step (handle blockLength)) Sequenced (initial key address profile)
      requests)
    (h : (step (handle blockLength)
      (run (step (handle blockLength)) (initial key address profile) requests).1 r).2.Launched) :
    r.payload.head? = some sidEcuReset ∧
      ¬ (step (handle blockLength)
        (run (step (handle blockLength)) (initial key address profile) requests).1 r).2.Expired ∧
      ∃ data, DeliveryVerified profile.firmwareFile data
        (run (step (handle blockLength)) (initial key address profile) requests).2 := by
  have hmemory := memory_run blockLength key address profile requests hrun
  have hinstalls := installs_of_launched h
  obtain ⟨hhead, heq⟩ := handle_of_installs hinstalls
  obtain ⟨hpending, hexpired⟩ := ecuReset_of_installs (heq ▸ hinstalls)
  refine ⟨hhead, ?_, hmemory.verified hpending⟩
  simpa only [step, heq] using hexpired

/-! ## A session of the BCM, and a second one on its buffer -/

def bcmProfile : Profile := ⟨"bcm_v2.bin", "2.0.0"⟩

/-- Everything up to the last block. -/
def bcmDownload : List Request :=
  [{ payload := [0x10, 0x02], touchClock := 1 },
   { payload := [0x27, 0x01], expiryClock := 2, touchClock := 2, securityClock := 2 },
   { payload := [0x27, 0x02, 0xB5, 0x58, 0x3C, 0xC2], expiryClock := 3, touchClock := 3 },
   { payload := [0x31, 0x01, 0xFF, 0x00, 0, 0, 0, 2], expiryClock := 4, touchClock := 4 },
   { payload := [0x34, 0x00, 0x44, 8, 0, 0, 0, 0, 0, 0, 2], expiryClock := 5, touchClock := 5 },
   { payload := [0x36, 0x01, 0xAB, 0xCD, 0xEF], expiryClock := 6, touchClock := 6 }]

def transferExit : Request :=
  { payload := [0x37], expiryClock := 7, touchClock := 7, original := .ok [0xAB, 0xCD] }

def activateImage : Request :=
  { payload := [0x31, 0x01, 0xFF, 0x02], expiryClock := 12, touchClock := 12 }

def resetRequest : Request := { payload := [0x11, 0x01], expiryClock := 13, touchClock := 13 }

theorem install_follows_delivery_bcm :
    ∃ data, DeliveryVerified "bcm_v2.bin" data
      (run (step (handle 8192)) (initial "bcm" 0x1002 bcmProfile)
        (bcmDownload ++ [transferExit] ++ [activateImage])).2 := by
  have hdownload : Admissible (step (handle 8192)) Sequenced (initial "bcm" 0x1002 bcmProfile)
      bcmDownload := by
    intro before r after heq
    exact sequenced_of_head ((by decide : ∀ r ∈ bcmDownload,
      r.payload.head? ≠ some sidRequestTransferExit) r (by simp [heq]))
  have hexit := hdownload.concat (i := transferExit) fun _ ↦
    since_of_get (n := 4) (by decide +kernel) (by decide +kernel) (by decide +kernel)
  have hactivate := hexit.concat (i := activateImage) (sequenced_of_head (by decide))
  exact (install_follows_delivery 8192 "bcm" 0x1002 bcmProfile _ resetRequest hactivate
    (by decide +kernel)).2.2

/-- A new session that unlocks and goes to the transfer exit at once. -/
def bcmSecondSession : List Request :=
  [{ payload := [0x10, 0x02], touchClock := 8 },
   { payload := [0x27, 0x01], expiryClock := 9, touchClock := 9, securityClock := 9 },
   { payload := [0x27, 0x02, 0xB5, 0x58, 0x3C, 0xC1], expiryClock := 10, touchClock := 10 },
   { payload := [0x37], expiryClock := 11, touchClock := 11, original := .ok [0xAB, 0xCD] }]

/-- The second session neither erases nor requests a download, and installs the bytes of the
first. -/
theorem install_from_stale_buffer :
    (step (handle 8192) (run (step (handle 8192)) (initial "bcm" 0x1002 bcmProfile)
      (bcmDownload ++ [transferExit] ++ bcmSecondSession ++ [activateImage])).1 resetRequest).2.Launched ∧
    ∀ data, ¬ DeliveryVerified bcmProfile.firmwareFile data
      (run (step (handle 8192)) (initial "bcm" 0x1002 bcmProfile)
        (bcmDownload ++ [transferExit] ++ bcmSecondSession ++ [activateImage])).2 := by
  refine ⟨by decide +kernel, fun data h ↦ ?_⟩
  exact not_since_of_drop 7 (by unfold Exchange.DownloadRequested; decide +kernel)
    (by decide +kernel) h.requested

end ECUContext

end VehicleOta.Uds
