import VehicleOta.Firmware.ImageFormat

/-!
# What the parser checks

`parse_firmware_image` checks the frame of the header.  The digests and the image size that the
header stores do not matter to it.
-/

namespace VehicleOta.Firmware

open Hash

/-! ## Stored fields -/

section Stored

variable (image : Bytes)

def storedPayloadSize : ℕ := intFromBytes ((image.drop 92).take 4)

def storedImageSize : ℕ := intFromBytes ((image.drop 96).take 4)

def storedCrc32 : ℕ := intFromBytes ((image.drop 100).take 4)

def storedSha256 : Bytes := (image.drop 104).take 32

def payloadOf : Bytes := slice image headerSize (headerSize + storedPayloadSize image)

/-- The frame of the image: the constants of the header and enough bytes behind it. -/
structure HeaderAccepted : Prop where
  magic : image.take 8 = magic
  formatVersion : intFromBytes ((image.drop 8).take 1) = formatVersion
  headerSize : intFromBytes ((image.drop 10).take 2) = headerSize
  length : Firmware.headerSize + storedPayloadSize image ≤ image.length

/-- The header describes the payload behind it. -/
structure HeaderMatches : Prop where
  crc32 : storedCrc32 image = crc32 (payloadOf image)
  sha256 : storedSha256 image = sha256 (payloadOf image)
  imageSize : storedImageSize image = headerSize + storedPayloadSize image

theorem length_payloadOf_eq_iff (h : headerSize ≤ image.length) :
    (payloadOf image).length = storedPayloadSize image ↔
      headerSize + storedPayloadSize image ≤ image.length := by
  rw [payloadOf, slice, List.length_drop, List.length_take]
  omega

end Stored

variable {image : Bytes}

theorem parseFirmwareImage_ok_iff :
    (∃ metadata, parseFirmwareImage image = .ok metadata) ↔ HeaderAccepted image := by
  unfold parseFirmwareImage
  dsimp only
  constructor
  · rintro ⟨metadata, h⟩
    split at h
    · cases h
    rename_i hlength
    split at h
    · cases h
    rename_i hmagic
    split at h
    · cases h
    rename_i hversion
    split at h
    · cases h
    rename_i hheader
    split at h
    · cases h
    rename_i hpayload
    exact ⟨not_not.mp hmagic, not_not.mp hversion, not_not.mp hheader,
      (length_payloadOf_eq_iff image (not_lt.mp hlength)).mp (not_not.mp hpayload)⟩
  · intro h
    have hlength : headerSize ≤ image.length := (Nat.le_add_right _ _).trans h.length
    have hmagic : ¬ ((image.drop 0).take 8 ≠ magic) := not_not.mpr h.magic
    have hpayload : ¬ ((payloadOf image).length ≠ storedPayloadSize image) :=
      not_not.mpr ((length_payloadOf_eq_iff image hlength).mpr h.length)
    unfold payloadOf storedPayloadSize at hpayload
    rw [if_neg (not_lt.mpr hlength), if_neg hmagic, if_neg (not_not.mpr h.formatVersion),
      if_neg (not_not.mpr h.headerSize), if_neg hpayload]
    exact ⟨_, rfl⟩

theorem extractFirmwarePayload_of_accepted (h : HeaderAccepted image) :
    ∃ metadata, extractFirmwarePayload image = .ok (metadata, payloadOf image) := by
  obtain ⟨metadata, hparse⟩ := parseFirmwareImage_ok_iff.mpr h
  refine ⟨metadata, ?_⟩
  have hsize : metadata.payloadSize = storedPayloadSize image := by
    unfold parseFirmwareImage at hparse
    dsimp only at hparse
    split_ifs at hparse
    all_goals rw [← Except.ok.inj hparse]; rfl
  rw [extractFirmwarePayload, hparse, payloadOf, ← hsize]
  rfl

theorem extractFirmwarePayload_of_not_accepted (h : ¬ HeaderAccepted image) :
    ∃ err, extractFirmwarePayload image = .error err := by
  cases hparse : parseFirmwareImage image with
  | ok metadata => exact absurd (parseFirmwareImage_ok_iff.mp ⟨metadata, hparse⟩) h
  | error err => exact ⟨err, by rw [extractFirmwarePayload, hparse]; rfl⟩

/-! ## Built images -/

section Built

variable {spec : FirmwareImageSpec} {payload : Bytes}

theorem buildFirmwareImage_ok (h : buildFirmwareImage spec = .ok image) :
    image = packHeader spec ++ spec.payloadData ∧
      headerSize + spec.payloadData.length < 2 ^ 32 := by
  unfold buildFirmwareImage at h
  split at h
  · cases h
  split at h
  · cases h
  rename_i hfits
  rw [not_or, not_or, not_le, not_le, not_le] at hfits
  exact ⟨(Except.ok.inj h).symm, hfits.2.2⟩

theorem length_padText (value : String) (size : ℕ) : (padText value size).length = size := by
  unfold padText
  dsimp only
  split
  · rw [List.length_take]
    omega
  · rw [List.length_append, List.length_replicate]
    omega

/-- The fields before the payload size. -/
def headerFront (spec : FirmwareImageSpec) : Bytes :=
  magic ++ intToBytes 1 formatVersion ++ intToBytes 1 (spec.ecuId % 256) ++
    intToBytes 2 headerSize ++ padText spec.ecuName 16 ++ padText spec.partNumber 16 ++
    padText spec.currentVersion 16 ++ padText spec.targetVersion 16 ++
    padText spec.buildDate 8 ++ intToBytes 4 spec.buildNumber ++ intToBytes 4 spec.flashAddress

theorem length_headerFront (spec : FirmwareImageSpec) : (headerFront spec).length = 92 := by
  simp only [headerFront, List.length_append, intToBytes_length, length_padText]
  rfl

theorem length_packHeader (spec : FirmwareImageSpec) : (packHeader spec).length = headerSize := by
  have hfront : packHeader spec = headerFront spec ++ intToBytes 4 spec.payloadData.length ++
      intToBytes 4 (headerSize + spec.payloadData.length) ++
      intToBytes 4 (crc32 spec.payloadData) ++ sha256 spec.payloadData ++
      padText spec.imageFormat 8 ++ List.replicate 16 0 := rfl
  simp only [hfront, List.length_append, length_headerFront, intToBytes_length, length_padText,
    List.length_replicate, length_sha256]
  rfl

theorem field_append {α : Type*} (front field rest : List α) {offset size : ℕ}
    (hoffset : front.length = offset) (hsize : field.length = size) :
    ((front ++ (field ++ rest)).drop offset).take size = field := by
  rw [← hoffset, ← hsize, List.drop_left, List.take_left]

theorem packHeader_split (spec : FirmwareImageSpec) (payload : Bytes) :
    packHeader spec ++ payload = headerFront spec ++ (intToBytes 4 spec.payloadData.length ++
      (intToBytes 4 (headerSize + spec.payloadData.length) ++
        (intToBytes 4 (crc32 spec.payloadData) ++ (sha256 spec.payloadData ++
          (padText spec.imageFormat 8 ++ (List.replicate 16 0 ++ payload)))))) := by
  simp only [packHeader, headerFront, List.append_assoc]

theorem storedPayloadSize_built (hfits : headerSize + spec.payloadData.length < 2 ^ 32)
    (payload : Bytes) :
    storedPayloadSize (packHeader spec ++ payload) = spec.payloadData.length := by
  rw [storedPayloadSize, packHeader_split,
    field_append _ _ _ (length_headerFront spec) (intToBytes_length _ _),
    intFromBytes_intToBytes _ _ (by rw [show 256 ^ 4 = 2 ^ 32 from rfl]; omega)]

theorem storedImageSize_built (hfits : headerSize + spec.payloadData.length < 2 ^ 32)
    (payload : Bytes) :
    storedImageSize (packHeader spec ++ payload) = headerSize + spec.payloadData.length := by
  have hfront : (headerFront spec ++ intToBytes 4 spec.payloadData.length).length = 96 := by
    rw [List.length_append, length_headerFront, intToBytes_length]
  rw [storedImageSize, packHeader_split, ← List.append_assoc,
    field_append _ _ _ hfront (intToBytes_length _ _), intFromBytes_intToBytes _ _ hfits]

theorem storedCrc32_built (spec : FirmwareImageSpec) (payload : Bytes) :
    storedCrc32 (packHeader spec ++ payload) = crc32 spec.payloadData := by
  have hfront : (headerFront spec ++ intToBytes 4 spec.payloadData.length ++
      intToBytes 4 (headerSize + spec.payloadData.length)).length = 100 := by
    rw [List.length_append, List.length_append, length_headerFront, intToBytes_length,
      intToBytes_length]
  rw [storedCrc32, packHeader_split, ← List.append_assoc, ← List.append_assoc,
    field_append _ _ _ hfront (intToBytes_length _ _), intFromBytes_intToBytes _ _ (crc32_lt _)]

theorem storedSha256_built (spec : FirmwareImageSpec) (payload : Bytes) :
    storedSha256 (packHeader spec ++ payload) = sha256 spec.payloadData := by
  have hfront : (headerFront spec ++ intToBytes 4 spec.payloadData.length ++
      intToBytes 4 (headerSize + spec.payloadData.length) ++
      intToBytes 4 (crc32 spec.payloadData)).length = 104 := by
    rw [List.length_append, List.length_append, List.length_append, length_headerFront,
      intToBytes_length, intToBytes_length, intToBytes_length]
  rw [storedSha256, packHeader_split, ← List.append_assoc, ← List.append_assoc,
    ← List.append_assoc, field_append _ _ _ hfront (length_sha256 _)]

theorem payloadOf_built (hfits : headerSize + spec.payloadData.length < 2 ^ 32)
    (payload : Bytes) :
    payloadOf (packHeader spec ++ payload) = payload.take spec.payloadData.length := by
  rw [payloadOf, storedPayloadSize_built hfits, slice, ← length_packHeader spec,
    List.take_length_add_append, List.drop_left]

/-- The header of a built image describes the payloads with the digests of its own. -/
theorem headerMatches_built_iff (hfits : headerSize + spec.payloadData.length < 2 ^ 32) :
    HeaderMatches (packHeader spec ++ payload) ↔
      crc32 spec.payloadData = crc32 (payload.take spec.payloadData.length) ∧
        sha256 spec.payloadData = sha256 (payload.take spec.payloadData.length) := by
  constructor
  · intro h
    have hcrc := h.crc32
    have hsha := h.sha256
    rw [storedCrc32_built, payloadOf_built hfits] at hcrc
    rw [storedSha256_built, payloadOf_built hfits] at hsha
    exact ⟨hcrc, hsha⟩
  · rintro ⟨hcrc, hsha⟩
    refine ⟨?_, ?_, ?_⟩
    · rw [storedCrc32_built, payloadOf_built hfits, hcrc]
    · rw [storedSha256_built, payloadOf_built hfits, hsha]
    · rw [storedImageSize_built hfits, storedPayloadSize_built hfits]

theorem packHeader_front (spec : FirmwareImageSpec) (payload : Bytes) :
    ∃ rest, packHeader spec ++ payload =
      magic ++ (intToBytes 1 formatVersion ++ (intToBytes 1 (spec.ecuId % 256) ++
        (intToBytes 2 headerSize ++ rest))) := by
  simp only [packHeader, List.append_assoc]
  exact ⟨_, rfl⟩

/-- The header of a built image is accepted over any payload of at least its length. -/
theorem headerAccepted_built (hfits : headerSize + spec.payloadData.length < 2 ^ 32) :
    HeaderAccepted (packHeader spec ++ payload) ↔ spec.payloadData.length ≤ payload.length := by
  have hsize := storedPayloadSize_built hfits payload
  have hlength : (packHeader spec ++ payload).length = headerSize + payload.length := by
    rw [List.length_append, length_packHeader]
  constructor
  · intro h
    have := h.length
    omega
  · intro h
    obtain ⟨rest, hrest⟩ := packHeader_front spec payload
    have hmagic : magic.length = 8 := rfl
    have hfront : (magic ++ intToBytes 1 formatVersion ++
        intToBytes 1 (spec.ecuId % 256)).length = 10 := by
      simp only [List.length_append, intToBytes_length, hmagic]
    refine ⟨?_, ?_, ?_, by omega⟩
    · rw [hrest, ← hmagic, List.take_left]
    · rw [hrest, field_append _ _ _ hmagic (intToBytes_length _ _)]
      rfl
    · rw [hrest, ← List.append_assoc, ← List.append_assoc,
        field_append _ _ _ hfront (intToBytes_length _ _)]
      rfl

end Built

end VehicleOta.Firmware
