import VehicleOta.Ecu.FlashRuns
import VehicleOta.Firmware.ImageHeader

/-!
# The flash phase of an install

Whatever the target slot held before, the whole payload is programmed and reads back.
-/

namespace VehicleOta.Ecu.FirmwareInstaller

open CrashLogic Firmware FlashMemoryEmulator

variable {metadata : FirmwareImageMetadata} {payload image : Bytes} {d t : SlotDir}
  {firmwareFile : FirmwareFile} {targetVersion : String}

/-! ## The partition -/

theorem partitionSize_pos (metadata : FirmwareImageMetadata) :
    0 < (flashFor metadata).partitionSize := lt_max_of_lt_left (by decide)

theorem sectorSize_dvd_partitionSize (metadata : FirmwareImageMetadata) :
    (flashFor metadata).sectorSize ∣ (flashFor metadata).partitionSize := by
  have hsector : (flashFor metadata).sectorSize = defaultSectorSize := rfl
  rw [hsector, flashFor]
  rcases max_choice defaultSectorSize ((metadata.payloadSize + defaultSectorSize - 1) /
      defaultSectorSize * defaultSectorSize) with h | h
  · rw [h]
  · rw [h]
    exact dvd_mul_left _ _

/-! ## The program -/

/-- The layout and the journal of before are overwritten without being read. -/
theorem programImage_forgets (metadata : FirmwareImageMetadata) (payload : Bytes)
    (firmwareFile : FirmwareFile) (targetVersion : String) (d : SlotDir) :
    (programImage metadata payload firmwareFile targetVersion d).result =
        (programImage metadata payload firmwareFile targetVersion
          { d with layout := none, journal := none }).result ∧
      (programImage metadata payload firmwareFile targetVersion).store d =
        (programImage metadata payload firmwareFile targetVersion).store
          { d with layout := none, journal := none } := by
  have hinit : (flashFor metadata).initializeFlash.store d =
      (flashFor metadata).initializeFlash.store { d with layout := none, journal := none } := rfl
  have hresult : ∀ s, ((flashFor metadata).initializeFlash s).result = .ok ⟨⟩ := fun _ ↦ rfl
  constructor
  · rw [programImage, Persist.result_bind_of_ok (hresult _),
      Persist.result_bind_of_ok (hresult _), hinit]
  · rw [programImage, Persist.store_bind_of_ok (hresult _), Persist.store_bind_of_ok (hresult _),
      hinit]

theorem programImage_run (firmwareFile : FirmwareFile) (targetVersion : String) (d : SlotDir)
    (hsize : payload.length = metadata.payloadSize) :
    (programImage metadata payload firmwareFile targetVersion d).result = .ok ⟨⟩ ∧
      ((programImage metadata payload firmwareFile targetVersion).store d).memory =
        some (flashImage metadata payload) := by
  obtain ⟨hresult, hstore⟩ := programImage_forgets metadata payload firmwareFile targetVersion d
  have hsound : SlotDir.Sound { d with layout := none, journal := none } :=
    ⟨fun l hl ↦ (by cases hl), fun _ ↦ rfl⟩
  obtain ⟨-, _, hok, hprepared⟩ := programImage_returns firmwareFile targetVersion hsound hsize
  rw [hresult, hstore]
  exact ⟨hok, hprepared.memory⟩

/-! ## Reading back -/

theorem verify_programmed (hsize : payload.length = metadata.payloadSize)
    (hmemory : t.memory = some (flashImage metadata payload)) :
    ((flashFor metadata).verify metadata.flashAddress payload t).result = .ok true := by
  have hfit : payload.length ≤ (flashFor metadata).partitionSize :=
    hsize.le.trans payloadSize_le_partitionSize
  have hreturns : ((flashFor metadata).verify metadata.flashAddress payload).returns
      (fun _ _ ↦ True) (fun b _ ↦ b = true) t := by
    apply Persist.returns_bind (read_returns _ hfit hmemory)
    rintro r u ⟨rfl, -⟩
    simp
  obtain ⟨b, hresult, rfl⟩ := Persist.returns_run hreturns
  exact hresult

theorem sha256_programmed (hsize : payload.length = metadata.payloadSize)
    (hmemory : t.memory = some (flashImage metadata payload)) :
    ((flashFor metadata).sha256 metadata.flashAddress payload.length t).result =
      .ok (Hash.hexDigest (Hash.sha256 payload)) := by
  have hfit : payload.length ≤ (flashFor metadata).partitionSize :=
    hsize.le.trans payloadSize_le_partitionSize
  have hreturns : ((flashFor metadata).sha256 metadata.flashAddress payload.length).returns
      (fun _ _ ↦ True) (fun s _ ↦ s = Hash.hexDigest (Hash.sha256 payload)) t := by
    apply Persist.returns_bind (read_returns _ hfit hmemory)
    rintro r u ⟨rfl, -⟩
    simp
  obtain ⟨s, hresult, rfl⟩ := Persist.returns_run hreturns
  exact hresult

/-- An accepted image is programmed in full over any slot: the partition is a positive multiple
of the sector size that holds the payload and is erased behind it, and both verifications
succeed on the slot as long as its flash file is left alone. -/
theorem flash_phase_programs_payload {image : Bytes} {metadata : FirmwareImageMetadata}
    (h : parseFirmwareImage image = .ok metadata) (firmwareFile : FirmwareFile)
    (targetVersion : String) (d : SlotDir) :
    ∃ payload, extractFirmwarePayload image = .ok (metadata, payload) ∧
      payload.length = metadata.payloadSize ∧
      (programImage metadata payload firmwareFile targetVersion d).result = .ok ⟨⟩ ∧
      ((programImage metadata payload firmwareFile targetVersion).store d).memory =
        some (payload ++ List.replicate ((flashFor metadata).partitionSize - payload.length)
          erasedByte) ∧
      0 < (flashFor metadata).partitionSize ∧
      (flashFor metadata).sectorSize ∣ (flashFor metadata).partitionSize ∧
      payload.length ≤ (flashFor metadata).partitionSize ∧
      ∀ t, t.memory = ((programImage metadata payload firmwareFile targetVersion).store d).memory →
        ((flashFor metadata).verify metadata.flashAddress payload t).result = .ok true ∧
          ((flashFor metadata).sha256 metadata.flashAddress payload.length t).result =
            .ok metadata.payloadSha256 := by
  obtain ⟨payload, hextract⟩ : ∃ payload, extractFirmwarePayload image = .ok (metadata, payload) :=
    ⟨_, by rw [extractFirmwarePayload, h]; rfl⟩
  obtain ⟨hsize, hsha⟩ := extractFirmwarePayload_ok hextract
  obtain ⟨hresult, hmemory⟩ := programImage_run firmwareFile targetVersion d hsize
  refine ⟨payload, hextract, hsize, hresult, hmemory, partitionSize_pos metadata,
    sectorSize_dvd_partitionSize metadata, hsize.le.trans payloadSize_le_partitionSize, ?_⟩
  intro t ht
  rw [hmemory] at ht
  exact ⟨verify_programmed hsize ht, hsha ▸ sha256_programmed hsize ht⟩

theorem headerAccepted_bareImage : HeaderAccepted (bareImage 0x77) := by
  refine ⟨rfl, rfl, rfl, ?_⟩
  rw [show storedPayloadSize (bareImage 0x77) = 1 from rfl,
    show (bareImage 0x77).length = 161 from rfl]
  exact le_rfl

/-- The slot holds the flash of an aborted install. -/
theorem flash_phase_bareImage :
    ∃ metadata payload, extractFirmwarePayload (bareImage 0x77) = .ok (metadata, payload) ∧
      (programImage metadata payload ⟨"bcm_v2.bin", by decide⟩ "2.0.0"
        { memory := some [0x00, 0x12],
          journal := some ⟨.erased, 0, 2, []⟩ }).result = .ok ⟨⟩ := by
  obtain ⟨metadata, h⟩ := parseFirmwareImage_ok_iff.mpr headerAccepted_bareImage
  obtain ⟨payload, hextract, -, hresult, -⟩ :=
    flash_phase_programs_payload h ⟨"bcm_v2.bin", by decide⟩ "2.0.0"
      { memory := some [0x00, 0x12], journal := some ⟨.erased, 0, 2, []⟩ }
  exact ⟨metadata, payload, hextract, hresult⟩

end VehicleOta.Ecu.FirmwareInstaller
