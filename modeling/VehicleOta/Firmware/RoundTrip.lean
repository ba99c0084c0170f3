import VehicleOta.Firmware.ImageHeader

/-!
# Building and parsing an image

What `build_firmware_image` packs is what `parse_firmware_image` unpacks, field by field, whatever
follows the image; and nothing shorter than the image is accepted.
-/

namespace VehicleOta.Firmware

open Hash

/-! ## Text fields -/

/-- The text survives a field of `size` bytes. -/
structure FitsField (value : String) (size : ℕ) : Prop where
  ascii : ∀ c ∈ value.toList, c.toNat < 128
  length : value.toList.length ≤ size
  noTrailingNul : value.toList.getLast? ≠ some (Char.ofNat 0)

theorem toNat_ofNat_of_ascii {c : Char} (h : c.toNat < 128) :
    (UInt8.ofNat c.toNat).toNat = c.toNat := UInt8.toNat_ofNat_of_lt' (by
  rw [show UInt8.size = 256 from rfl]
  omega)

theorem encodeAscii_eq {value : String} (h : ∀ c ∈ value.toList, c.toNat < 128) :
    encodeAscii value = value.toList.map fun c ↦ UInt8.ofNat c.toNat := by
  rw [encodeAscii, List.filter_eq_self.mpr (by simpa using h)]

theorem decodeAscii_encodeAscii {value : String} (h : ∀ c ∈ value.toList, c.toNat < 128) :
    decodeAscii (encodeAscii value) = value := by
  have hkept : (encodeAscii value).filter (· < 128) = encodeAscii value := by
    refine List.filter_eq_self.mpr fun b hb ↦ ?_
    rw [encodeAscii_eq h] at hb
    obtain ⟨c, hc, rfl⟩ := List.mem_map.mp hb
    refine decide_eq_true (UInt8.lt_iff_toNat_lt.mpr ?_)
    rw [toNat_ofNat_of_ascii (h c hc)]
    exact h c hc
  have hchars : (encodeAscii value).map (fun b ↦ Char.ofNat b.toNat) = value.toList := by
    rw [encodeAscii_eq h, List.map_map]
    calc value.toList.map ((fun b : UInt8 ↦ Char.ofNat b.toNat) ∘ fun c ↦ UInt8.ofNat c.toNat)
        = value.toList.map id := List.map_congr_left fun c hc ↦ by
          rw [Function.comp_apply, toNat_ofNat_of_ascii (h c hc), Char.ofNat_toNat, id]
      _ = value.toList := List.map_id _
  rw [decodeAscii, hkept, hchars, String.ofList_toList]

/-- Stripping the padding leaves the text. -/
theorem unpadText_padText {value : String} {size : ℕ} (h : FitsField value size) :
    unpadText (padText value size) = value := by
  have hlength : (encodeAscii value).length ≤ size := by
    rw [encodeAscii_eq h.ascii, List.length_map]
    exact h.length
  have hstop : (encodeAscii value).reverse.dropWhile (· = 0) = (encodeAscii value).reverse := by
    cases hreverse : (encodeAscii value).reverse with
    | nil => rfl
    | cons b rest =>
        have hlast : (encodeAscii value).getLast? = some b := by
          rw [← List.head?_reverse, hreverse]
          rfl
        rw [encodeAscii_eq h.ascii, List.getLast?_map, Option.map_eq_some_iff] at hlast
        obtain ⟨c, hc, rfl⟩ := hlast
        have hne : UInt8.ofNat c.toNat ≠ 0 := by
          intro hzero
          have hnat := congrArg UInt8.toNat hzero
          rw [toNat_ofNat_of_ascii (h.ascii c (List.mem_of_getLast? hc))] at hnat
          apply h.noTrailingNul
          rw [hc, ← Char.ofNat_toNat c, hnat]
          rfl
        rw [List.dropWhile_cons_of_neg (by simpa using hne)]
  rw [unpadText, padText, if_neg (not_lt.mpr hlength), List.reverse_append, List.reverse_replicate,
    List.dropWhile_append_of_pos (by
      intro b hb
      simpa using List.eq_of_mem_replicate hb),
    hstop, List.reverse_reverse, decodeAscii_encodeAscii h.ascii]

/-! ## The fields of the header -/

/-- The field at position `k` of a sequence of fields with these widths. -/
theorem field_flatten {fields : List Bytes} {widths : List ℕ} {k offset size : ℕ} {field : Bytes}
    (hwidths : fields.map List.length = widths) (hfield : fields[k]? = some field)
    (hoffset : (widths.take k).sum = offset) (hsize : widths[k]? = some size) (rest : Bytes) :
    ((fields.flatten ++ rest).drop offset).take size = field := by
  obtain ⟨hk, rfl⟩ := List.getElem?_eq_some_iff.mp hfield
  have hsplit : fields.flatten =
      (fields.take k).flatten ++ (fields[k] ++ (fields.drop (k + 1)).flatten) := by
    rw [← List.flatten_cons, ← List.drop_eq_getElem_cons hk, ← List.flatten_append,
      List.take_append_drop]
  have hfront : (fields.take k).flatten.length = offset := by
    rw [List.length_flatten, ← hoffset, ← hwidths, List.map_take]
  have hlength : fields[k].length = size := by
    rw [← hwidths, List.getElem?_map, hfield, Option.map_some, Option.some.injEq] at hsize
    exact hsize
  rw [hsplit, List.append_assoc, List.append_assoc, field_append _ _ _ hfront hlength]

def headerFields (spec : FirmwareImageSpec) : List Bytes :=
  [magic, intToBytes 1 formatVersion, intToBytes 1 (spec.ecuId % 256), intToBytes 2 headerSize,
    padText spec.ecuName 16, padText spec.partNumber 16, padText spec.currentVersion 16,
    padText spec.targetVersion 16, padText spec.buildDate 8, intToBytes 4 spec.buildNumber,
    intToBytes 4 spec.flashAddress, intToBytes 4 spec.payloadData.length,
    intToBytes 4 (headerSize + spec.payloadData.length), intToBytes 4 (crc32 spec.payloadData),
    sha256 spec.payloadData, padText spec.imageFormat 8, List.replicate 16 0]

def headerWidths : List ℕ := [8, 1, 1, 2, 16, 16, 16, 16, 8, 4, 4, 4, 4, 4, 32, 8, 16]

theorem packHeader_eq_flatten (spec : FirmwareImageSpec) :
    packHeader spec = (headerFields spec).flatten := by
  simp only [packHeader, headerFields, List.flatten_cons, List.flatten_nil, List.append_nil,
    List.append_assoc]

theorem length_headerFields (spec : FirmwareImageSpec) :
    (headerFields spec).map List.length = headerWidths := by
  simp only [headerFields, List.map_cons, List.map_nil, intToBytes_length, length_padText,
    length_sha256, List.length_replicate]
  rfl

/-- Every field is read at the offset where it was packed. -/
theorem field_built (spec : FirmwareImageSpec) (rest : Bytes) (k offset size : ℕ) {field : Bytes}
    (hfield : (headerFields spec)[k]? = some field) (hoffset : (headerWidths.take k).sum = offset)
    (hsize : headerWidths[k]? = some size) :
    ((packHeader spec ++ rest).drop offset).take size = field := by
  rw [packHeader_eq_flatten]
  exact field_flatten (length_headerFields spec) hfield hoffset hsize rest

/-! ## Round trip -/

/-- Every field but the payload fits the header. -/
structure Packable (spec : FirmwareImageSpec) : Prop where
  ecuName : FitsField spec.ecuName 16
  ecuId : spec.ecuId < 256
  partNumber : FitsField spec.partNumber 16
  currentVersion : FitsField spec.currentVersion 16
  targetVersion : FitsField spec.targetVersion 16
  buildDate : FitsField spec.buildDate 8
  buildNumber : spec.buildNumber < 2 ^ 32
  flashAddress : spec.flashAddress < 2 ^ 32
  imageFormat : FitsField spec.imageFormat 8

/-- The metadata of the image that carries the payload of the specification. -/
def FirmwareImageSpec.metadata (spec : FirmwareImageSpec) : FirmwareImageMetadata where
  ecuName := spec.ecuName
  ecuId := spec.ecuId
  partNumber := spec.partNumber
  currentVersion := spec.currentVersion
  targetVersion := spec.targetVersion
  buildDate := spec.buildDate
  buildNumber := spec.buildNumber
  flashAddress := spec.flashAddress
  payloadSize := spec.payloadSize
  imageSize := headerSize + spec.payloadData.length
  crc32 := crc32 spec.payloadData
  payloadSha256 := hexDigest (sha256 spec.payloadData)
  imageFormat := spec.imageFormat

variable {spec : FirmwareImageSpec} {image : Bytes}

theorem intFromBytes_intToBytes_four {n : ℕ} (h : n < 2 ^ 32) :
    intFromBytes (intToBytes 4 n) = n := intFromBytes_intToBytes _ _ h

/-- The parser reads the specification back from the header, whatever follows the payload. -/
theorem parse_packed (h : Packable spec) (hsize : spec.payloadSize = spec.payloadData.length)
    (hfits : headerSize + spec.payloadData.length < 2 ^ 32) (rest : Bytes) :
    parseFirmwareImage (packHeader spec ++ (spec.payloadData ++ rest)) = .ok spec.metadata := by
  have hfield := @field_built spec (spec.payloadData ++ rest)
  have hpayloadSize : intFromBytes
      (((packHeader spec ++ (spec.payloadData ++ rest)).drop 92).take 4) =
        spec.payloadData.length := by
    rw [hfield 11 92 4 rfl rfl rfl, intFromBytes_intToBytes_four (by omega)]
  have hpayload : slice (packHeader spec ++ (spec.payloadData ++ rest)) headerSize
      (headerSize + spec.payloadData.length) = spec.payloadData := by
    rw [← List.append_assoc]
    exact slice_append_middle _ _ _ (length_packHeader spec).symm (by rw [length_packHeader])
  have hlong : ¬ (packHeader spec ++ (spec.payloadData ++ rest)).length < headerSize := by
    rw [List.length_append, length_packHeader]
    omega
  have hcrc : intFromBytes (intToBytes 4 (crc32 spec.payloadData)) = crc32 spec.payloadData :=
    intFromBytes_intToBytes_four (crc32_lt _)
  unfold parseFirmwareImage
  simp only [hpayloadSize, hpayload, if_neg hlong]
  rw [hfield 0 0 8 rfl rfl rfl, hfield 1 8 1 rfl rfl rfl, hfield 2 9 1 rfl rfl rfl,
    hfield 3 10 2 rfl rfl rfl, hfield 4 12 16 rfl rfl rfl, hfield 5 28 16 rfl rfl rfl,
    hfield 6 44 16 rfl rfl rfl, hfield 7 60 16 rfl rfl rfl, hfield 8 76 8 rfl rfl rfl,
    hfield 9 84 4 rfl rfl rfl, hfield 10 88 4 rfl rfl rfl, hfield 12 96 4 rfl rfl rfl,
    hfield 13 100 4 rfl rfl rfl, hfield 15 136 8 rfl rfl rfl, unpadText_padText h.ecuName,
    unpadText_padText h.partNumber, unpadText_padText h.currentVersion,
    unpadText_padText h.targetVersion, unpadText_padText h.buildDate,
    unpadText_padText h.imageFormat, intFromBytes_intToBytes_four h.buildNumber,
    intFromBytes_intToBytes_four h.flashAddress, intFromBytes_intToBytes_four hfits, hcrc,
    if_pos rfl, Nat.mod_eq_of_lt h.ecuId, intFromBytes_intToBytes 1 _ h.ecuId,
    intFromBytes_intToBytes 1 formatVersion (by decide),
    intFromBytes_intToBytes 2 headerSize (by decide), if_neg (not_not.mpr rfl),
    if_neg (not_not.mpr rfl), if_neg (not_not.mpr rfl), if_neg (not_not.mpr rfl),
    FirmwareImageSpec.metadata, hsize]

/-- Every proper prefix is too short for the header or for the payload. -/
theorem parse_take_packed (hfits : headerSize + spec.payloadData.length < 2 ^ 32) {n : ℕ}
    (hn : n < (packHeader spec ++ spec.payloadData).length) :
    ∃ e, parseFirmwareImage ((packHeader spec ++ spec.payloadData).take n) = .error e := by
  have hnot : ¬ HeaderAccepted ((packHeader spec ++ spec.payloadData).take n) := by
    rw [List.length_append, length_packHeader] at hn
    rcases Nat.lt_or_ge n headerSize with hshort | hlong
    · intro h
      have hlength := h.length
      rw [List.length_take] at hlength
      omega
    · rw [List.take_append, List.take_of_length_le (by rwa [length_packHeader]),
        headerAccepted_built hfits, length_packHeader, List.length_take]
      omega
  cases hparse : parseFirmwareImage ((packHeader spec ++ spec.payloadData).take n) with
  | error e => exact ⟨e, rfl⟩
  | ok metadata => exact absurd (parseFirmwareImage_ok_iff.mp ⟨metadata, hparse⟩) hnot

/-- The payload of a specification: the given one, or the one drawn for its fields. -/
def FirmwareImageSpec.withPayload (deterministicPayload : String → ℕ → Bytes)
    (spec : FirmwareImageSpec) (payloadData : Option Bytes) : FirmwareImageSpec :=
  { spec with
    payloadData := payloadData.getD (deterministicPayload
      s!"{spec.ecuName}|{spec.targetVersion}|{spec.buildNumber}" spec.payloadSize) }

structure RoundTrips (spec : FirmwareImageSpec) (image : Bytes) : Prop where
  parsed : parseFirmwareImage image = .ok spec.metadata
  imageSize : spec.metadata.imageSize = image.length
  extracted : ∀ rest, extractFirmwarePayload (image ++ rest) = .ok (spec.metadata, spec.payloadData)
  rejected : ∀ n < image.length, ∃ e, parseFirmwareImage (image.take n) = .error e

theorem roundTrips_packed (h : Packable spec) (hsize : spec.payloadSize = spec.payloadData.length)
    (hfits : headerSize + spec.payloadData.length < 2 ^ 32) :
    RoundTrips spec (packHeader spec ++ spec.payloadData) := by
  have hparsed := parse_packed h hsize hfits
  refine ⟨?_, ?_, ?_, fun n hn ↦ parse_take_packed hfits hn⟩
  · have hnil := hparsed []
    rwa [List.append_nil] at hnil
  · rw [List.length_append, length_packHeader]
    rfl
  · intro rest
    have hpayload : slice (packHeader spec ++ (spec.payloadData ++ rest)) headerSize
        (headerSize + spec.metadata.payloadSize) = spec.payloadData := by
      rw [← List.append_assoc]
      exact slice_append_middle _ _ _ (length_packHeader spec).symm
        (by rw [length_packHeader, ← hsize]; rfl)
    rw [List.append_assoc, extractFirmwarePayload, hparsed rest]
    exact congrArg (fun payload ↦ Except.ok (spec.metadata, payload)) hpayload

/-- Any specification that fits the header, with a payload of its own or a drawn one, makes an
image that is parsed back exactly, provided that its payload has the size it declares; otherwise
building it raises. -/
theorem parse_built_image {deterministicPayload : String → ℕ → Bytes}
    (hdraw : ∀ seed size, (deterministicPayload seed size).length = size)
    {spec : FirmwareImageSpec} (payloadData : Option Bytes) (h : Packable spec)
    (hfits : headerSize +
      (spec.withPayload deterministicPayload payloadData).payloadData.length < 2 ^ 32) :
    ((∀ payload, payloadData = some payload → spec.payloadSize = payload.length) →
        ∃ image,
          buildFirmwareImage (spec.withPayload deterministicPayload payloadData) = .ok image ∧
          RoundTrips (spec.withPayload deterministicPayload payloadData) image) ∧
      ∀ payload, payloadData = some payload → spec.payloadSize ≠ payload.length →
        ∃ message, buildFirmwareImage (spec.withPayload deterministicPayload payloadData) =
          .error (.valueError message) := by
  constructor
  · intro hdeclared
    set built := spec.withPayload deterministicPayload payloadData with hbuilt
    have hpackable : Packable built := ⟨h.ecuName, h.ecuId, h.partNumber, h.currentVersion,
      h.targetVersion, h.buildDate, h.buildNumber, h.flashAddress, h.imageFormat⟩
    have hsize : built.payloadSize = built.payloadData.length := by
      cases payloadData with
      | none => exact (hdraw _ _).symm
      | some payload => exact hdeclared payload rfl
    refine ⟨packHeader built ++ built.payloadData, ?_, roundTrips_packed hpackable hsize hfits⟩
    rw [buildFirmwareImage, if_neg (not_not.mpr hsize), if_neg]
    rintro (hlarge | hlarge | hlarge)
    · exact absurd hpackable.buildNumber (not_lt.mpr hlarge)
    · exact absurd hpackable.flashAddress (not_lt.mpr hlarge)
    · exact absurd hfits (not_lt.mpr hlarge)
  · rintro payload rfl hdiffers
    exact ⟨_, if_pos hdiffers⟩

/-- A specification of the BCM that declares five bytes of payload. -/
def bcmSpec : FirmwareImageSpec where
  ecuName := "BCM"
  ecuId := 2
  partNumber := "BCM-0001"
  currentVersion := "1.0.0"
  targetVersion := "2.0.0"
  buildDate := "20250101"
  buildNumber := 42
  flashAddress := 0x08000000
  payloadSize := 5
  payloadData := []

theorem packable_bcmSpec : Packable bcmSpec where
  ecuName := ⟨by simp [bcmSpec], by decide, by decide⟩
  ecuId := by decide
  partNumber := ⟨by simp [bcmSpec], by decide, by decide⟩
  currentVersion := ⟨by simp [bcmSpec], by decide, by decide⟩
  targetVersion := ⟨by simp [bcmSpec], by decide, by decide⟩
  buildDate := ⟨by simp [bcmSpec], by decide, by decide⟩
  buildNumber := by decide
  flashAddress := by decide
  imageFormat := ⟨by simp [bcmSpec], by decide, by decide⟩

/-- A payload of another size is not built, so nothing is parsed back. -/
theorem build_rejects_size :
    Packable bcmSpec ∧ headerSize + bcmSpec.payloadData.length < 2 ^ 32 ∧
      ¬ ∃ image, buildFirmwareImage bcmSpec = .ok image := by
  refine ⟨packable_bcmSpec, by decide, ?_⟩
  rintro ⟨image, h⟩
  cases h

theorem parse_built_bcm :
    ∃ image, buildFirmwareImage (bcmSpec.withPayload (fun _ size ↦ List.replicate size 0x5A)
        (some [1, 2, 3, 4, 5])) = .ok image ∧
      extractFirmwarePayload (image ++ [0xFF]) = .ok ((bcmSpec.withPayload
        (fun _ size ↦ List.replicate size 0x5A) (some [1, 2, 3, 4, 5])).metadata,
          [1, 2, 3, 4, 5]) := by
  obtain ⟨image, hbuilt, htrip⟩ := (@parse_built_image (fun _ size ↦ List.replicate size 0x5A)
    (fun _ size ↦ List.length_replicate) bcmSpec (some [1, 2, 3, 4, 5]) packable_bcmSpec
    (by decide)).1 (by
      rintro payload heq
      obtain rfl := Option.some.inj heq
      rfl)
  exact ⟨image, hbuilt, htrip.extracted [0xFF]⟩

end VehicleOta.Firmware
