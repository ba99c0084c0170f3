import VehicleOta.Can.FlowControl
import VehicleOta.Doip.Gateway
import VehicleOta.Uds.FlashManager

/-!
# The advertised block length

What the gateway writes into a RequestDownload response, the block size that
`LibraryDoIPClient.request_download` takes from it, and the frames that have to carry the blocks
behind the gateway.
-/

namespace VehicleOta

open Uds Can

/-! ## The block size of the client -/

namespace Uds

/-- `LibraryDoIPClient.MAX_GATEWAY_TRANSFER_PAYLOAD` -/
def maxGatewayTransferPayload : ℕ := 16384

/-- `parse_request_download_max_block_length` -/
def parseRequestDownloadMaxBlockLength (payload : Bytes) : Option ℕ :=
  if payload.head? ≠ some (positiveResponseSid sidRequestDownload) then none
  else if payload.length < 5 then none
  else
    let maxBlockLength := intFromBytes (lastBytes payload 2)
    if 0 < maxBlockLength then some maxBlockLength else none

/-- `max_transfer_payload` behind the positive response of `request_download`. -/
def negotiateTransferPayload (maxTransferPayload : ℕ) (response : Bytes) : ℕ :=
  match parseRequestDownloadMaxBlockLength response with
  | none => maxTransferPayload
  | some negotiated => min negotiated maxGatewayTransferPayload

/-- Every TransferData request with up to `chunk` bytes of data can be forwarded. -/
def Carries (library? : Option UdsLibrary) (chunk : ℕ) : Prop :=
  ∀ sequence data, sequence < 256 → data.length ≤ chunk →
    ∃ request, buildTransferData library? sequence data = .ok request ∧
      request.length ≤ 0xFFF ∧ SentWithoutError request

theorem carries_iff {library? : Option UdsLibrary} (hlibrary : DocumentedLibrary library?)
    (chunk : ℕ) : Carries library? chunk ↔ chunk ≤ 4093 := by
  constructor
  · intro hcarries
    obtain ⟨request, hrequest, hlength, -⟩ :=
      hcarries 0 (List.replicate chunk 0) (by decide) (List.length_replicate ..).le
    rw [buildTransferData_eq hlibrary (by decide)] at hrequest
    obtain rfl := Except.ok.inj hrequest
    simp only [List.length_append, List.length_cons, List.length_nil,
      List.length_replicate] at hlength
    omega
  · intro hchunk sequence data hsequence hdata
    have hlength : ([sidTransferData, UInt8.ofNat sequence] ++ data).length ≤ 0xFFF := by
      simp only [List.length_append, List.length_cons, List.length_nil]
      omega
    exact ⟨_, buildTransferData_eq hlibrary hsequence data, hlength,
      (sentWithoutError_iff _).mpr hlength⟩

end Uds

/-! ## The advertised block length -/

namespace DoIPServer

variable {g : DoIPServer} {response : Bytes}

/-- The response to a RequestDownload that `process` forwards advertises no block length, or one
that the client can use up to its last byte. -/
def AdvertisesUsable (g : DoIPServer) (library? : Option UdsLibrary) (response : Bytes) : Prop :=
  ∀ advertised,
    parseRequestDownloadMaxBlockLength (g.rewriteRequestDownloadResponse response) =
      some advertised →
    ∀ maxTransferPayload, Carries library?
      (negotiateTransferPayload maxTransferPayload (g.rewriteRequestDownloadResponse response))

theorem parse_of_short (hshort : response.length < 5) :
    parseRequestDownloadMaxBlockLength (g.rewriteRequestDownloadResponse response) = none := by
  rw [rewriteRequestDownloadResponse, if_pos (Or.inr hshort), parseRequestDownloadMaxBlockLength,
    if_pos hshort, ite_self]

/-- The client reads the setting of the gateway, whatever the ECU asked for. -/
theorem parse_of_rewritten
    (hpositive : response.head? = some (positiveResponseSid sidRequestDownload))
    (hlong : 5 ≤ response.length) (hpos : 1 ≤ g.blockLength) (hmax : g.blockLength ≤ 16384) :
    parseRequestDownloadMaxBlockLength (g.rewriteRequestDownloadResponse response) =
      some g.blockLength := by
  have hrewritten : g.rewriteRequestDownloadResponse response =
      response.take 3 ++ intToBytes 2 g.blockLength := by
    apply if_neg
    rw [not_or, not_not, not_lt]
    exact ⟨hpositive, hlong⟩
  have hhead : (response.take 3 ++ intToBytes 2 g.blockLength).head? =
      some (positiveResponseSid sidRequestDownload) := by
    rw [List.head?_append, List.head?_take, if_neg (by decide), hpositive]
    rfl
  have hlength : ¬ (response.take 3 ++ intToBytes 2 g.blockLength).length < 5 := by
    rw [List.length_append, List.length_take, intToBytes_length]
    omega
  rw [hrewritten, parseRequestDownloadMaxBlockLength, if_neg (not_not.mpr hhead), if_neg hlength,
    lastBytes_append _ _ (intToBytes_length 2 g.blockLength),
    intFromBytes_intToBytes 2 g.blockLength (by omega)]
  exact if_pos hpos

/-- With a setting that the server admits and a positive response of the ECU, the advertised
block length is usable exactly if there is none or the setting leaves room for the two bytes in
front of the data. -/
theorem advertised_usable_iff (g : DoIPServer) (hpos : 1 ≤ g.blockLength)
    (hmax : g.blockLength ≤ 16384) {library? : Option UdsLibrary}
    (hlibrary : DocumentedLibrary library?) {response : Bytes}
    (hpositive : response.head? = some (positiveResponseSid sidRequestDownload)) :
    g.AdvertisesUsable library? response ↔ response.length < 5 ∨ g.blockLength ≤ 4093 := by
  rcases Nat.lt_or_ge response.length 5 with hshort | hlong
  · refine iff_of_true ?_ (Or.inl hshort)
    intro advertised hadvertised
    rw [parse_of_short hshort] at hadvertised
    cases hadvertised
  · have hparse := parse_of_rewritten hpositive hlong hpos hmax
    have hchunk (maxTransferPayload : ℕ) :
        negotiateTransferPayload maxTransferPayload (g.rewriteRequestDownloadResponse response) =
          g.blockLength := by
      rw [negotiateTransferPayload, hparse]
      exact min_eq_left hmax
    constructor
    · intro husable
      have hcarries := husable _ hparse 0
      rw [hchunk, carries_iff hlibrary] at hcarries
      exact Or.inr hcarries
    · intro hfits advertised _ maxTransferPayload
      rw [hchunk, carries_iff hlibrary]
      exact hfits.resolve_left (not_lt.mpr hlong)

/-- A gateway without the flash proxy, in front of no ECU. -/
def forwarding (blockLength : ℕ) : DoIPServer :=
  { proxyFlashEnabled := false, blockLength, ecus := .empty }

/-- The setting of 8192 bytes with an ECU that asked for blocks of 64. -/
theorem advertised_default :
    ¬ (forwarding 8192).AdvertisesUsable none [0x74, 0x00, 0x44, 0x00, 0x40] := by
  intro husable
  have hparse : parseRequestDownloadMaxBlockLength
      ((forwarding 8192).rewriteRequestDownloadResponse [0x74, 0x00, 0x44, 0x00, 0x40]) =
        some 8192 := by
    decide
  have hcarries := husable 8192 hparse 0
  rw [negotiateTransferPayload, hparse, carries_iff (by simp [DocumentedLibrary])] at hcarries
  exact absurd hcarries (by decide)

theorem advertised_usable_small :
    (forwarding 1024).AdvertisesUsable none [0x74, 0x00, 0x44, 0x00, 0x40] :=
  (advertised_usable_iff (forwarding 1024) (by decide) (by decide)
    (by simp [DocumentedLibrary]) rfl).mpr (Or.inr (by decide))

end DoIPServer

end VehicleOta
