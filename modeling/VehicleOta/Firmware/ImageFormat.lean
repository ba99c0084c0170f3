import VehicleOta.Hash.Sha256

/-!
# Firmware images

`firmware/image_format.py`: the 160-byte header, `build_firmware_image`,
`parse_firmware_image` and `extract_firmware_payload`.
-/

namespace VehicleOta.Firmware

open Hash

def magic : Bytes := [0x56, 0x4f, 0x54, 0x41, 0x49, 0x4d, 0x47, 0x31]

def formatVersion : ℕ := 1

def headerSize : ℕ := 160

/-- `value.encode("ascii", errors="ignore")` -/
def encodeAscii (value : String) : Bytes :=
  (value.toList.filter fun c ↦ c.toNat < 128).map fun c ↦ UInt8.ofNat c.toNat

/-- `value.decode("ascii", errors="ignore")` -/
def decodeAscii (value : Bytes) : String :=
  String.ofList ((value.filter (· < 128)).map fun b ↦ Char.ofNat b.toNat)

def padText (value : String) (size : ℕ) : Bytes :=
  let data := encodeAscii value
  if size < data.length then data.take size
  else data ++ List.replicate (size - data.length) 0

def unpadText (value : Bytes) : String :=
  decodeAscii (value.reverse.dropWhile (· = 0)).reverse

structure FirmwareImageSpec where
  ecuName : String
  ecuId : ℕ
  partNumber : String
  currentVersion : String
  targetVersion : String
  buildDate : String
  buildNumber : ℕ
  flashAddress : ℕ
  payloadSize : ℕ
  imageFormat : String := "RAW"
  payloadData : Bytes

structure FirmwareImageMetadata where
  ecuName : String
  ecuId : ℕ
  partNumber : String
  currentVersion : String
  targetVersion : String
  buildDate : String
  buildNumber : ℕ
  flashAddress : ℕ
  payloadSize : ℕ
  imageSize : ℕ
  crc32 : ℕ
  payloadSha256 : String
  imageFormat : String
  deriving DecidableEq, Repr

/-- The header that `build_firmware_image` packs for the payload of the specification. -/
def packHeader (spec : FirmwareImageSpec) : Bytes :=
  magic ++ intToBytes 1 formatVersion ++ intToBytes 1 (spec.ecuId % 256) ++
    intToBytes 2 headerSize ++ padText spec.ecuName 16 ++ padText spec.partNumber 16 ++
    padText spec.currentVersion 16 ++ padText spec.targetVersion 16 ++
    padText spec.buildDate 8 ++ intToBytes 4 spec.buildNumber ++
    intToBytes 4 spec.flashAddress ++ intToBytes 4 spec.payloadData.length ++
    intToBytes 4 (headerSize + spec.payloadData.length) ++
    intToBytes 4 (crc32 spec.payloadData) ++ sha256 spec.payloadData ++
    padText spec.imageFormat 8 ++ List.replicate 16 0

/-- `build_firmware_image` on a specification that carries its payload. -/
def buildFirmwareImage (spec : FirmwareImageSpec) : Except PyError Bytes :=
  if spec.payloadSize ≠ spec.payloadData.length then
    .error (.valueError (s!"payload_size mismatch for {spec.ecuName}: " ++
      s!"expected {spec.payloadSize}, got {spec.payloadData.length}"))
  else if 2 ^ 32 ≤ spec.buildNumber ∨ 2 ^ 32 ≤ spec.flashAddress ∨
      2 ^ 32 ≤ headerSize + spec.payloadData.length then
    .error (.structError "'I' format requires 0 <= number <= 4294967295")
  else .ok (packHeader spec ++ spec.payloadData)

/-- The header fields are read at their offsets in the format `>8sBBH16s16s16s16s8sIIIII32s8s16s`.
A stored CRC that differs from the computed one is replaced by the computed one, and the
stored SHA-256 is not looked at. -/
def parseFirmwareImage (image : Bytes) : Except PyError FirmwareImageMetadata :=
  let field := fun offset size ↦ (image.drop offset).take size
  let number := fun offset size ↦ intFromBytes (field offset size)
  let payloadSize := number 92 4
  let payload := slice image headerSize (headerSize + payloadSize)
  let calculatedCrc32 := crc32 payload
  if image.length < headerSize then
    .error (.valueError "Firmware image too small to contain a header")
  else if field 0 8 ≠ magic then
    .error (.valueError "Invalid firmware image magic")
  else if number 8 1 ≠ formatVersion then
    .error (.valueError s!"Unsupported firmware image version: {number 8 1}")
  else if number 10 2 ≠ headerSize then
    .error (.valueError s!"Unexpected header size: {number 10 2}")
  else if payload.length ≠ payloadSize then
    .error (.valueError "Firmware image payload truncated")
  else .ok
    { ecuName := unpadText (field 12 16)
      ecuId := number 9 1
      partNumber := unpadText (field 28 16)
      currentVersion := unpadText (field 44 16)
      targetVersion := unpadText (field 60 16)
      buildDate := unpadText (field 76 8)
      buildNumber := number 84 4
      flashAddress := number 88 4
      payloadSize := payloadSize
      imageSize := number 96 4
      crc32 := if number 100 4 = calculatedCrc32 then number 100 4 else calculatedCrc32
      payloadSha256 := hexDigest (sha256 payload)
      imageFormat := unpadText (field 136 8) }

def extractFirmwarePayload (image : Bytes) :
    Except PyError (FirmwareImageMetadata × Bytes) := do
  let metadata ← parseFirmwareImage image
  return (metadata, slice image headerSize (headerSize + metadata.payloadSize))

/-- What acceptance guarantees about the payload that the caller gets. -/
theorem extractFirmwarePayload_ok {image : Bytes} {metadata : FirmwareImageMetadata}
    {payload : Bytes} (h : extractFirmwarePayload image = .ok (metadata, payload)) :
    payload.length = metadata.payloadSize ∧
      metadata.payloadSha256 = hexDigest (sha256 payload) := by
  unfold extractFirmwarePayload at h
  cases hparse : parseFirmwareImage image with
  | error e => simp [hparse, bind, Except.bind] at h
  | ok m =>
      have heq : m = metadata ∧
          slice image headerSize (headerSize + m.payloadSize) = payload := by
        simpa [hparse, bind, Except.bind, pure, Except.pure] using h
      obtain ⟨rfl, rfl⟩ := heq
      unfold parseFirmwareImage at hparse
      simp only at hparse
      split_ifs at hparse with _ _ _ _ hlength
      all_goals
        obtain rfl := Except.ok.inj hparse
        exact ⟨not_not.mp hlength, rfl⟩

/-- An image with a bare header and one byte of payload. -/
def bareImage (b : UInt8) : Bytes :=
  magic ++ [1, 0, 0, 160] ++ List.replicate 80 0 ++ [0, 0, 0, 1] ++ List.replicate 64 0 ++ [b]

theorem extract_bareImage (b : UInt8) :
    ∃ metadata, extractFirmwarePayload (bareImage b) = .ok (metadata, [b]) := by
  have hlength : (bareImage b).length = 161 := rfl
  have hsize : intFromBytes (((bareImage b).drop 92).take 4) = 1 := rfl
  have hpayload : slice (bareImage b) headerSize (headerSize + 1) = [b] := rfl
  have hmagic : ((bareImage b).drop 0).take 8 = magic := rfl
  have hversion : intFromBytes (((bareImage b).drop 8).take 1) = formatVersion := rfl
  have hheader : intFromBytes (((bareImage b).drop 10).take 2) = headerSize := rfl
  have hparse : ∃ metadata, parseFirmwareImage (bareImage b) = .ok metadata ∧
      metadata.payloadSize = 1 := by
    unfold parseFirmwareImage
    simp only [hsize, hpayload, hmagic, hversion, hheader, ne_eq, not_true, if_false,
      List.length_singleton]
    rw [if_neg (by rw [hlength]; decide)]
    exact ⟨_, rfl, rfl⟩
  obtain ⟨metadata, hparse, hsize⟩ := hparse
  refine ⟨metadata, ?_⟩
  simp only [extractFirmwarePayload, hparse, bind, Except.bind, hsize, hpayload]
  rfl

end VehicleOta.Firmware
