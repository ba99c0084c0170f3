import VehicleOta.Ecu.Installer

/-!
# What the flash methods leave in a slot directory

While an image is programmed the journal of the slot is the old one or names an incomplete
state, so that no directory left by a loss of power looks bootable.
-/

namespace VehicleOta.Ecu

open CrashLogic Hash Firmware

/-- The layout file has its geometry, and no journal precedes it. -/
structure SlotDir.Sound (d : SlotDir) : Prop where
  geometry : ∀ l, d.layout = some l → ∃ g, l.geometry = some g
  journal : d.layout = none → d.journal = none

/-- A directory seen while a new image is programmed over the directory `d`. -/
structure Flashing (d t : SlotDir) : Prop where
  sound : t.Sound
  journal : t.journal = d.journal ∨ t.incomplete = true

theorem incomplete_of_journal {t : SlotDir} {j : Journal} (h : t.journal = some j)
    (hj : j.state ∈ incompleteJournalStates) : t.incomplete = true := by
  simp [SlotDir.incomplete, h, hj]

theorem Flashing.incomplete {d t : SlotDir} (h : Flashing d t) (hd : d.incomplete = true) :
    t.incomplete = true := by
  rcases h.journal with hj | hj
  · simpa [SlotDir.incomplete, hj] using hd
  · exact hj

/-! ## Programming -/

namespace FlashMemoryEmulator

/-- The partition of `flash` is set up and holds `file`. -/
structure Holds (flash : FlashMemoryEmulator) (file : Bytes) (t : SlotDir) : Prop where
  memory : t.memory = some file
  layout : ∃ l, t.layout = some l ∧ l.geometry = some flash.toFlashGeometry

/-- The partition holds `file` and is not finished. -/
structure Prepared (flash : FlashMemoryEmulator) (file : Bytes) (t : SlotDir) : Prop
    extends Holds flash file t where
  incomplete : t.incomplete = true

variable {self : FlashMemoryEmulator} {d t : SlotDir} {file : Bytes}

theorem Holds.sound (h : self.Holds file t) : t.Sound := by
  obtain ⟨l, hl, hg⟩ := h.layout
  refine ⟨?_, by simp [hl]⟩
  intro l' hl'
  obtain rfl : l = l' := by simpa [hl] using hl'
  exact ⟨_, hg⟩

theorem Prepared.flashing (h : self.Prepared file t) : Flashing d t :=
  ⟨h.sound, Or.inr h.incomplete⟩

theorem offset_eq {address : ℕ} (h : self.baseAddress ≤ address) :
    self.offset address = .ok (address - self.baseAddress) :=
  if_neg (by omega)

theorem initializeFlash_returns (hd : d.Sound) :
    self.initializeFlash.returns (fun _ t ↦ Flashing d t)
      (fun _ t ↦ self.Prepared (List.replicate self.partitionSize erasedByte) t) d := by
  simp only [initializeFlash, saveLayout, updateJournal, writeControlBlock, readControlBlock,
    Persist.returns_write_bind, Persist.returns_reads_bind, Persist.returns_write]
  have hsound : ∀ t : SlotDir, t.layout = some { geometry := some self.toFlashGeometry } →
      t.Sound := by
    intro t ht
    exact ⟨fun l hl ↦ ⟨self.toFlashGeometry, by simp_all⟩, by simp [ht]⟩
  refine ⟨⟨⟨hd.geometry, hd.journal⟩, Or.inl rfl⟩, ⟨hsound _ rfl, Or.inl rfl⟩,
    ⟨hsound _ rfl, Or.inr rfl⟩, ⟨hsound _ rfl, Or.inr rfl⟩, ?_⟩
  exact ⟨⟨rfl, ⟨_, rfl, rfl⟩⟩, rfl⟩

theorem updateJournal_returns {state : JournalState} {extra : List (String × Field)}
    (hstate : state ∈ incompleteJournalStates) (h : self.Prepared file t) :
    (self.updateJournal state extra).returns (fun _ t ↦ Flashing d t)
      (fun _ t ↦ self.Prepared file t) t := by
  rw [updateJournal, Persist.returns_write]
  have h' : self.Prepared file
      { t with journal := some ⟨state, self.baseAddress, self.partitionSize, extra⟩ } :=
    ⟨⟨h.memory, h.layout⟩, incomplete_of_journal rfl hstate⟩
  exact ⟨h'.flashing, h'⟩

theorem writeMemory_returns {position : ℕ} {data : Bytes} (h : self.Prepared file t) :
    (writeMemory position data).returns (fun _ t ↦ Flashing d t)
      (fun _ t ↦ self.Prepared (overwrite 0 file position data) t) t := by
  rw [writeMemory, Persist.returns_write]
  have h' : self.Prepared (overwrite 0 file position data)
      { t with memory := t.memory.map fun file ↦ overwrite 0 file position data } :=
    ⟨⟨by simp [h.memory], h.layout⟩, h.incomplete⟩
  exact ⟨h'.flashing, h'⟩

theorem openMemory_returns {C : SlotFile → SlotDir → Prop} (h : t.memory = some file) :
    openMemory.returns C (fun r u ↦ r = file ∧ u = t) t := by
  simp [openMemory, h]

/-- Erasing what is erased changes nothing. -/
theorem overwrite_erased {n position k : ℕ} (h : k = 0 ∨ position + k ≤ n) :
    overwrite 0 (List.replicate n erasedByte) position (List.replicate k erasedByte) =
      List.replicate n erasedByte := by
  rcases h with rfl | h
  · simp
  · rw [overwrite_eq _ _ _ _ (by simpa using h)]
    simp only [List.take_replicate, List.drop_replicate, List.length_replicate,
      List.replicate_append_replicate]
    congr 1
    omega

theorem eraseRegion_returns {address size : ℕ} (haddress : self.baseAddress ≤ address)
    (h : self.Prepared (List.replicate self.partitionSize erasedByte) t) :
    (self.eraseRegion address size).returns (fun _ t ↦ Flashing d t)
      (fun _ t ↦ self.Prepared (List.replicate self.partitionSize erasedByte) t) t := by
  have hend : self.baseAddress ≤ address + size := by omega
  rw [eraseRegion, offset_eq haddress, offset_eq hend, Persist.returns_ok_bind,
    Persist.returns_ok_bind]
  apply Persist.returns_bind (openMemory_returns h.memory)
  rintro _ _ ⟨rfl, rfl⟩
  apply Persist.returns_bind (writeMemory_returns h)
  intro _ u hu
  rw [overwrite_erased (by omega)] at hu
  exact updateJournal_returns (by decide) hu

/-- The bytes of `file` from `start` on, `size` of them, are erased. -/
def ErasedAt (file : Bytes) (start size : ℕ) : Prop :=
  start + size ≤ file.length ∧ (file.drop start).take size = List.replicate size erasedByte

theorem ErasedAt.sub {start size x n : ℕ} (h : ErasedAt file start size) (hx : x + n ≤ size) :
    ErasedAt file (start + x) n := by
  refine ⟨by have := h.1; omega, ?_⟩
  calc (file.drop (start + x)).take n
      = (((file.drop start).take size).drop x).take n := by
        rw [List.drop_take, List.take_take, List.drop_drop, min_eq_left (by omega)]
    _ = List.replicate n erasedByte := by
        rw [h.2, List.drop_replicate, List.take_replicate, min_eq_left (by omega)]

theorem and_erased (b : UInt8) : erasedByte &&& b = b := by
  apply UInt8.toBitVec_inj.mp
  revert b
  rintro ⟨b⟩
  revert b
  decide +kernel

theorem or_erased (b : UInt8) : erasedByte ||| b = erasedByte := by
  apply UInt8.toBitVec_inj.mp
  revert b
  rintro ⟨b⟩
  revert b
  decide +kernel

theorem zipWith_and_erased (chunk : Bytes) :
    List.zipWith (· &&& ·) (List.replicate chunk.length erasedByte) chunk = chunk := by
  induction chunk with
  | nil => rfl
  | cons b chunk ih => simp [List.replicate_succ, and_erased, ih]

/-- The check of `program` passes on erased flash. -/
theorem no_flip_erased (chunk : Bytes) :
    ((List.replicate chunk.length erasedByte).zip chunk).any
      (fun p ↦ (p.1 ||| p.2) != p.1) = false := by
  induction chunk with
  | nil => rfl
  | cons b chunk ih => simp [List.replicate_succ, or_erased, ih]

theorem add_length_slice_le {data : Bytes} {x n : ℕ} (hx : x ≤ data.length) :
    x + (slice data x (x + n)).length ≤ data.length := by
  simp only [slice, List.length_drop, List.length_take]
  omega

/-- What is programmed up to `x` leaves the bytes behind `x` erased. -/
theorem ErasedAt.behind {start x : ℕ} {data : Bytes} (h : ErasedAt file start data.length)
    (hx : x ≤ data.length) {n : ℕ} (hn : x + n ≤ data.length) :
    ErasedAt (overwrite 0 file start (data.take x)) (start + x) n := by
  have htake : (data.take x).length = x := List.length_take_of_le hx
  have hfit : start + (data.take x).length ≤ file.length := by
    have := h.1
    omega
  have hdrop := drop_overwrite 0 file (data.take x) start hfit
  rw [htake] at hdrop
  refine ⟨?_, ?_⟩
  · rw [length_overwrite 0 file _ start hfit]
    have := h.1
    omega
  · rw [hdrop]
    exact (h.sub hn).2

/-- Adding the chunk at `x` to what is programmed up to `x`. -/
theorem overwrite_chunk {start x n : ℕ} {data : Bytes}
    (hfit : start + data.length ≤ file.length) (hx : x ≤ data.length) :
    overwrite 0 (overwrite 0 file start (data.take x)) (start + x) (slice data x (x + n)) =
      overwrite 0 file start (data.take (x + n)) := by
  have htake : (data.take x).length = x := List.length_take_of_le hx
  have hle : (data.take (x + n)).length ≤ data.length := List.length_take_le' _ _
  have happ : data.take x ++ slice data x (x + n) = data.take (x + n) := take_append_slice data x n
  have h := overwrite_append 0 file (data.take x) (slice data x (x + n)) start
    (by rw [happ]; omega)
  rw [htake, happ] at h
  exact h

theorem programPage_returns {start x : ℕ} {data : Bytes} (herased : ErasedAt file start data.length)
    (hx : x ≤ data.length) (h : self.Prepared (overwrite 0 file start (data.take x)) t) :
    (self.programPage start data x).returns (fun _ t ↦ Flashing d t)
      (fun _ t ↦ self.Prepared (overwrite 0 file start (data.take (x + self.pageSize))) t) t := by
  have hexisting := (herased.behind hx (add_length_slice_le (n := self.pageSize) hx)).2
  rw [programPage]
  apply Persist.returns_bind (openMemory_returns h.memory)
  rintro _ _ ⟨rfl, rfl⟩
  dsimp only
  rw [hexisting, no_flip_erased, zipWith_and_erased]
  rw [← overwrite_chunk (n := self.pageSize) herased.1 hx]
  exact writeMemory_returns h

theorem program_returns {data : Bytes} (address : ℕ) (hpage : 0 < self.pageSize)
    (haddress : self.baseAddress ≤ address)
    (herased : ErasedAt file (address - self.baseAddress) data.length)
    (hsize : address - self.baseAddress + data.length ≤ self.partitionSize)
    (h : self.Prepared file t) :
    (self.program address data).returns (fun _ t ↦ Flashing d t)
      (fun _ t ↦ self.Prepared (overwrite 0 file (address - self.baseAddress) data) t) t := by
  rw [program, offset_eq haddress, Persist.returns_ok_bind, if_neg (by omega)]
  apply Persist.returns_bind (openMemory_returns h.memory)
  rintro _ _ ⟨-, rfl⟩
  -- the page loop: after the pages `pre` the first `pre.length` pages of `data` are programmed
  apply Persist.returns_bind (Persist.returns_forEach
    (fun pre t ↦ self.Prepared (overwrite 0 file (address - self.baseAddress)
      (data.take (pre.length * self.pageSize))) t) (by simpa using h) ?page)
  case page =>
    intro pre x post t hsplit ht
    obtain ⟨rfl, hx⟩ := rangeStep_split hpage hsplit
    have hnext := programPage_returns (d := d) herased hx.le ht
    rwa [List.length_append, List.length_singleton, Nat.add_mul, Nat.one_mul]
  intro _ u hu
  rw [List.take_of_length_le (length_rangeStep_mul_ge hpage)] at hu
  obtain ⟨l, hl, hg⟩ := hu.layout
  simp only [loadLayout, saveLayout, Persist.returns_reads_bind, Persist.returns_write_bind]
  have hsaved : self.Prepared (overwrite 0 file (address - self.baseAddress) data)
      { u with layout := some { u.layout.getD {} with
        lastProgrammedAddress := some address
        lastProgrammedSize := data.length
        lastChunkSha256 := hexDigest (Hash.sha256 data) } } :=
    ⟨⟨hu.memory, ⟨_, rfl, by simp [hl, hg]⟩⟩, hu.incomplete⟩
  exact ⟨hsaved.flashing, updateJournal_returns (by decide) hsaved⟩

/-! ## Reading back -/

theorem read_returns (self : FlashMemoryEmulator) {C : SlotFile → SlotDir → Prop}
    {payload rest : Bytes}
    (hsize : payload.length ≤ self.partitionSize) (h : t.memory = some (payload ++ rest)) :
    (self.read self.baseAddress payload.length).returns C
      (fun r u ↦ r = payload ∧ u = t) t := by
  rw [read, offset_eq le_rfl, Persist.returns_ok_bind, Nat.sub_self, if_neg (by omega)]
  apply Persist.returns_bind (openMemory_returns h)
  rintro _ _ ⟨rfl, rfl⟩
  simp

theorem recordPayloadMetadata_returns {address : ℕ} {payload : Bytes} (h : self.Prepared file t) :
    (recordPayloadMetadata address payload).returns (fun _ t ↦ self.Prepared file t)
      (fun _ t ↦ self.Prepared file t) t := by
  obtain ⟨l, hl, hg⟩ := h.layout
  simp only [recordPayloadMetadata, loadLayout, saveLayout, Persist.returns_reads_bind,
    Persist.returns_write]
  have h' : self.Prepared file
      { t with layout := some { t.layout.getD {} with
        payloadSha256 := hexDigest (Hash.sha256 payload)
        payloadSize := some payload.length
        payloadAddress := some address } } :=
    ⟨⟨h.memory, ⟨_, rfl, by simp [hl, hg]⟩⟩, h.incomplete⟩
  exact ⟨h', h'⟩

end FlashMemoryEmulator

/-! ## The flash phases of the installer -/

namespace FirmwareInstaller

open FlashMemoryEmulator

variable {metadata : FirmwareImageMetadata} {payload : Bytes} {d t : SlotDir}
  {firmwareFile : FirmwareFile} {targetVersion : String}

/-- The partition once `payload` is programmed: erased behind the payload. -/
def flashImage (metadata : FirmwareImageMetadata) (payload : Bytes) : Bytes :=
  payload ++ List.replicate ((flashFor metadata).partitionSize - payload.length) erasedByte

theorem payloadSize_le_partitionSize :
    metadata.payloadSize ≤ (flashFor metadata).partitionSize := by
  simp only [flashFor, defaultSectorSize]
  omega

theorem pageSize_pos (metadata : FirmwareImageMetadata) : 0 < (flashFor metadata).pageSize := by
  simp only [flashFor, defaultPageSize]
  split <;> decide

/-- Writing the payload at the start of an erased partition. -/
theorem overwrite_replicate (hsize : payload.length ≤ (flashFor metadata).partitionSize) :
    overwrite 0 (List.replicate (flashFor metadata).partitionSize erasedByte) 0 payload =
      flashImage metadata payload := by
  rw [overwrite_eq _ _ _ _ (by simpa using hsize), List.take_zero, List.nil_append,
    List.drop_replicate, Nat.zero_add, flashImage]

theorem programImage_returns (firmwareFile : FirmwareFile) (targetVersion : String) (hd : d.Sound)
    (hsize : payload.length = metadata.payloadSize) :
    (programImage metadata payload firmwareFile targetVersion).returns
      (fun _ t ↦ Flashing d t)
      (fun _ t ↦ (flashFor metadata).Prepared (flashImage metadata payload) t) d := by
  have hpage := pageSize_pos metadata
  have hfit : payload.length ≤ (flashFor metadata).partitionSize :=
    hsize.le.trans payloadSize_le_partitionSize
  rw [programImage]
  apply Persist.returns_bind (initializeFlash_returns hd)
  intro _ t₁ h₁
  apply Persist.returns_bind (updateJournal_returns (by decide) h₁)
  intro _ t₂ h₂
  apply Persist.returns_bind (eraseRegion_returns le_rfl h₂)
  intro _ t₃ h₃
  have herased : ErasedAt (List.replicate (flashFor metadata).partitionSize erasedByte) 0
      payload.length := by
    refine ⟨by simpa using hfit, ?_⟩
    rw [List.drop_zero, List.take_replicate, min_eq_left hfit]
  -- after the chunks `pre` the first `pre.length` pages of the payload are programmed
  refine Persist.returns_mono (Persist.returns_forEach
    (fun pre t ↦ (flashFor metadata).Prepared
      (overwrite 0 (List.replicate (flashFor metadata).partitionSize erasedByte) 0
        (payload.take (pre.length * (flashFor metadata).pageSize))) t)
    (by simpa using h₃) ?chunk) (fun _ _ ↦ id) ?done
  case chunk =>
    intro pre x post t hsplit ht
    obtain ⟨rfl, hx⟩ := rangeStep_split hpage hsplit
    set x := pre.length * (flashFor metadata).pageSize
    have hslice := add_length_slice_le (n := (flashFor metadata).pageSize) hx.le
    have hat : (flashFor metadata).baseAddress = metadata.flashAddress := rfl
    have hbehind := herased.behind hx.le hslice
    rw [Nat.zero_add] at hbehind
    have hnext := program_returns (d := d) (metadata.flashAddress + x) hpage
      (by omega) (by rwa [hat, Nat.add_sub_cancel_left]) (by omega) ht
    have hchunk := overwrite_chunk (n := (flashFor metadata).pageSize) herased.1 hx.le
    rw [Nat.zero_add] at hchunk
    rw [hat, Nat.add_sub_cancel_left, hchunk] at hnext
    rwa [List.length_append, List.length_singleton, Nat.add_mul, Nat.one_mul]
  case done =>
    intro _ t ht
    rwa [List.take_of_length_le (length_rangeStep_mul_ge hpage), overwrite_replicate hfit] at ht

theorem verifyImage_returns (pendingSlot : Slot) (targetVersion : String)
    (hsize : payload.length = metadata.payloadSize)
    (hhash : metadata.payloadSha256 = hexDigest (Hash.sha256 payload))
    (h : (flashFor metadata).Prepared (flashImage metadata payload) t) :
    (verifyImage metadata payload pendingSlot targetVersion).returns
      (fun _ t ↦ (flashFor metadata).Holds (flashImage metadata payload) t)
      (fun _ t ↦ (flashFor metadata).Holds (flashImage metadata payload) t ∧
        t.incomplete = false) t := by
  have hfit : payload.length ≤ (flashFor metadata).partitionSize :=
    hsize.le.trans payloadSize_le_partitionSize
  have hverify : ∀ C, ((flashFor metadata).verify metadata.flashAddress payload).returns C
      (fun b u ↦ b = true ∧ u = t) t := by
    intro C
    refine Persist.returns_bind (read_returns _ hfit h.memory) ?_
    rintro r u ⟨hr, hu⟩
    simp [hr, hu]
  have hsha : ∀ C, ((flashFor metadata).sha256 metadata.flashAddress payload.length).returns C
      (fun s u ↦ s = metadata.payloadSha256 ∧ u = t) t := by
    intro C
    refine Persist.returns_bind (read_returns _ hfit h.memory) ?_
    rintro r u ⟨hr, hu⟩
    simp [hr, hu, hhash]
  rw [verifyImage]
  apply Persist.returns_bind (hverify _)
  rintro b u ⟨hb, hu⟩
  rw [hb, hu]
  simp only [Bool.not_true, Bool.false_eq_true, if_false]
  apply Persist.returns_bind (hsha _)
  rintro s u ⟨hs, hu⟩
  rw [hu, if_neg (by simpa using hs)]
  apply Persist.returns_bind (Persist.returns_mono (recordPayloadMetadata_returns h)
    (fun _ _ hu ↦ hu.toHolds) fun _ _ hu ↦ hu)
  intro _ u hu
  simp only [updateJournal, Persist.returns_write_bind, Persist.returns_write]
  exact ⟨⟨hu.memory, hu.layout⟩, ⟨hu.memory, hu.layout⟩, ⟨hu.memory, hu.layout⟩, rfl⟩

end FirmwareInstaller

end VehicleOta.Ecu
