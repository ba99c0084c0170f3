import VehicleOta.Doip.ClientHandler

/-!
# Packets in front of a malformed header

`extract_packets` raises when it meets a bad header, and the packets that it has taken out of the
same chunk are gone with the exception.  So it matters where `recv` cuts the stream.
-/

namespace VehicleOta.Doip

/-- At least a whole header, with a wrong version or a wrong inverse version. -/
def BadHeader (bad : Bytes) : Prop :=
  doipHeaderSize ≤ bad.length ∧
    (bad.getD 0 0 ≠ doipVersion ∨ bad.getD 1 0 ≠ doipInverseVersion)

/-- Some chunk ends behind the packets and in front of the end of the header that follows them. -/
def Separated (packets : List Packet) (chunks : List Bytes) : Prop :=
  ∃ before after, chunks = before ++ after ∧
    (streamOf packets).length ≤ before.flatten.length ∧
    before.flatten.length < (streamOf packets).length + doipHeaderSize

variable {packets all : List Packet} {bad buffer rest : Bytes}

/-! ## One chunk -/

theorem BadHeader.of_prefix (h : BadHeader (buffer ++ rest)) (hlong : doipHeaderSize ≤ buffer.length) :
    BadHeader buffer := by
  have hget : ∀ i, i < doipHeaderSize → (buffer ++ rest).getD i 0 = buffer.getD i 0 := by
    intro i hi
    rw [List.getD_eq_getElem?_getD, List.getD_eq_getElem?_getD,
      List.getElem?_append_left (hi.trans_le hlong)]
  refine ⟨hlong, ?_⟩
  rw [← hget 0 (by decide), ← hget 1 (by decide)]
  exact h.2

theorem extractPackets_of_badHeader (h : BadHeader bad) :
    extractPackets bad = (.error (.valueError "Invalid DoIP protocol version"), bad) := by
  rw [extractPackets, if_neg (not_lt.mpr h.1), unpackHeader]
  exact if_pos h.2

/-- The exception takes the packets with it. -/
theorem extractPackets_streamOf_bad (hall : ∀ p ∈ all, Encodable p) (hbad : BadHeader bad) :
    extractPackets (streamOf all ++ bad) =
      (.error (.valueError "Invalid DoIP protocol version"), bad) := by
  induction all with
  | nil => exact extractPackets_of_badHeader hbad
  | cons p all ih =>
      have hcons : streamOf (p :: all) ++ bad = packetBytes p ++ (streamOf all ++ bad) :=
        List.append_assoc (packetBytes p) (streamOf all) bad
      rw [hcons, extractPackets_packet (hall p List.mem_cons_self),
        ih fun q hq ↦ hall q (List.mem_cons_of_mem p hq)]
      rfl

/-- The buffer is too short for the next packet, or for the header behind the last one. -/
structure Settled (packets : List Packet) (buffer : Bytes) : Prop where
  next : ∀ p more, packets = p :: more → buffer.length < (packetBytes p).length
  last : packets = [] → buffer.length < doipHeaderSize

/-- A settled buffer does not hold the packets, unless there are none. -/
theorem Settled.eq_nil (h : Settled packets buffer)
    (hlong : (streamOf packets).length ≤ buffer.length) : packets = [] := by
  cases packets with
  | nil => rfl
  | cons p more =>
      have hshort := h.next p more rfl
      have hcons : streamOf (p :: more) = packetBytes p ++ streamOf more := rfl
      rw [hcons, List.length_append] at hlong
      omega

theorem Cut.settled (h : Cut (packets ++ all) packets buffer) : Settled all buffer where
  next p more heq := h.next p more (by rw [heq])
  last heq := by
    rw [h.last (by rw [heq, List.append_nil])]
    decide

/-- Short of the bad header, the complete packets are taken out of the buffer. -/
theorem extractPackets_short (hall : ∀ p ∈ all, Encodable p)
    (hbuffer : buffer ++ rest = streamOf all ++ bad)
    (hshort : buffer.length < (streamOf all).length + doipHeaderSize) :
    ∃ packets later left, all = packets ++ later ∧ extractPackets buffer = (.ok packets, left) ∧
      buffer = streamOf packets ++ left ∧ Settled later left := by
  rcases Nat.lt_or_ge buffer.length (streamOf all).length with hinside | hbehind
  · obtain ⟨tail, htail⟩ := List.prefix_of_prefix_length_le ⟨rest, hbuffer⟩
      (List.prefix_append (streamOf all) bad) hinside.le
    obtain ⟨packets, left, hextract, hsplit, hcut⟩ := extractPackets_stream hall htail
    obtain ⟨later, rfl⟩ := hcut.isPrefix
    exact ⟨packets, later, left, rfl, hextract, hsplit, hcut.settled⟩
  · obtain ⟨left, rfl⟩ := List.prefix_of_prefix_length_le
      (List.prefix_append (streamOf all) bad) ⟨rest, hbuffer⟩ hbehind
    have hleft : left.length < doipHeaderSize := by
      rw [List.length_append] at hshort
      omega
    exact ⟨all, [], left, (List.append_nil all).symm, extractPackets_streamOf hall hleft, rfl,
      fun _ _ heq ↦ absurd heq (by simp), fun _ ↦ hleft⟩

/-! ## All chunks -/

/-- The chunks behind a settled buffer: the handler sees the packets, and no more, if and only if
a chunk ends in front of the end of the bad header. -/
theorem framed_eq_iff (hall : ∀ p ∈ all, Encodable p) (hbad : BadHeader bad) {chunks : List Bytes}
    (hchunks : ∀ chunk ∈ chunks, chunk ≠ [])
    (hbuffer : buffer ++ chunks.flatten = streamOf all ++ bad) (hsettled : Settled all buffer) :
    framed chunks buffer = all ↔ ∃ before after, chunks = before ++ after ∧
      (streamOf all).length ≤ buffer.length + before.flatten.length ∧
      buffer.length + before.flatten.length < (streamOf all).length + doipHeaderSize := by
  induction chunks generalizing all buffer with
  | nil =>
      have hlength := congrArg List.length hbuffer
      have hheader := hbad.1
      simp only [List.flatten_nil, List.length_append, List.length_nil] at hlength
      obtain rfl := hsettled.eq_nil (by omega)
      have hshort := hsettled.last rfl
      simp only [streamOf, List.flatMap_nil, List.length_nil] at hlength
      omega
  | cons data later ih =>
      have hlater := fun chunk hchunk ↦ hchunks chunk (List.mem_cons_of_mem data hchunk)
      rw [List.flatten_cons, ← List.append_assoc] at hbuffer
      rw [framed, if_neg (hchunks data List.mem_cons_self)]
      rcases Nat.lt_or_ge (buffer ++ data).length ((streamOf all).length + doipHeaderSize) with
        hshort | hlong
      · -- the chunk ends in front of the bad header
        obtain ⟨packets, more, left, rfl, hextract, hsplit, hleft⟩ :=
          extractPackets_short hall hbuffer hshort
        have hrest : left ++ later.flatten = streamOf more ++ bad := by
          rw [hsplit, streamOf_append, List.append_assoc, List.append_assoc] at hbuffer
          exact List.append_cancel_left hbuffer
        have hmore := ih (fun p hp ↦ hall p (List.mem_append_right packets hp)) hlater hrest hleft
        have hlength := congrArg List.length hsplit
        rw [hextract]
        dsimp only
        rw [List.append_right_inj, hmore, streamOf_append]
        simp only [List.length_append] at hlength hshort ⊢
        constructor
        · rintro ⟨before, after, rfl, hge, hlt⟩
          refine ⟨data :: before, after, rfl, ?_⟩
          rw [List.flatten_cons, List.length_append]
          omega
        · rintro ⟨before, after, heq, hge, hlt⟩
          cases before with
          | nil =>
              -- the buffer in front of the chunk had everything already
              have hnil := hsettled.eq_nil (by
                rw [streamOf_append, List.length_append]
                simpa using hge)
              obtain ⟨rfl, rfl⟩ := List.append_eq_nil_iff.mp hnil
              refine ⟨[], later, rfl, ?_⟩
              simp only [List.append_nil, streamOf, List.flatMap_nil, List.length_nil,
                List.flatten_nil] at *
              omega
          | cons chunk before =>
              obtain ⟨rfl, rfl⟩ := List.cons.inj heq
              refine ⟨before, after, rfl, ?_⟩
              rw [List.flatten_cons, List.length_append] at hge hlt
              omega
      · -- the chunk completes the bad header
        obtain ⟨tail, htail⟩ := List.prefix_of_prefix_length_le
          (List.prefix_append (streamOf all) bad) ⟨later.flatten, hbuffer⟩ (by omega)
        have hbadTail : BadHeader tail := by
          rw [← htail, List.append_assoc] at hbuffer
          have hwhole := List.append_cancel_left hbuffer
          rw [← htail, List.length_append] at hlong
          exact BadHeader.of_prefix (hwhole ▸ hbad) (by omega)
        rw [← htail, extractPackets_streamOf_bad hall hbadTail]
        rw [List.length_append] at hlong
        constructor
        · rintro rfl
          exact ⟨[], data :: later, rfl, by simp [streamOf], by
            simpa [streamOf] using hsettled.last rfl⟩
        · rintro ⟨before, after, heq, hge, hlt⟩
          cases before with
          | nil => exact (hsettled.eq_nil (by simpa using hge)).symm
          | cons chunk before =>
              obtain ⟨rfl, rfl⟩ := List.cons.inj heq
              rw [List.flatten_cons, List.length_append] at hlt
              omega

end VehicleOta.Doip

namespace VehicleOta

open Doip ClientSession

/-- The handler processes the packets in front of a malformed header, and closes, if and only if
some chunk ends between the last packet and the end of that header, and `process` copes with the
packets. -/
theorem packets_before_bad_header_iff (meet : ℕ → Encounter)
    (hmeet : ∀ n, (meet n).request.Readable) (g : DoIPServer) (packets : List Packet)
    (hall : ∀ p ∈ packets, p.1 < 256 ^ 2 ∧ p.2.length < 256 ^ 4) (bad : Bytes)
    (hbad : BadHeader bad) (chunks : List Bytes) (hchunks : ∀ chunk ∈ chunks, chunk ≠ [])
    (hstream : chunks.flatten = streamOf packets ++ bad) :
    ((handleClient meet chunks [] { server := g }).1.processed = packets ∧
        (handleClient meet chunks [] { server := g }).2 = .closed) ↔
      Separated packets chunks ∧ ServesAll meet packets { server := g } := by
  have hsettled : Settled packets [] :=
    ⟨fun p _ _ ↦ by simp [packetBytes, doipHeaderSize], fun _ ↦ by decide⟩
  have hstart : [] ++ chunks.flatten = streamOf packets ++ bad := hstream
  have hframed := framed_eq_iff hall hbad hchunks hstart hsettled
  simp only [List.length_nil, Nat.zero_add] at hframed
  obtain ⟨hsession, hclosed⟩ := @handleClient_eq meet { server := g } chunks []
  rw [hsession, hclosed]
  constructor
  · rintro ⟨hprocessed, hnone⟩
    rw [processed_serveAll hnone, List.nil_append] at hprocessed
    rw [hprocessed] at hnone
    exact ⟨hframed.mp hprocessed, (serveAll_error_iff hmeet packets).mp hnone⟩
  · rintro ⟨hseparated, hserves⟩
    have hnone := (serveAll_error_iff hmeet packets).mpr hserves
    rw [hframed.mpr hseparated]
    exact ⟨processed_serveAll hnone, hnone⟩

/-- An alive check in front of eight bytes that are no header. -/
def aliveCheckBytes : Bytes := packetBytes (aliveCheckRequest, [])

def badBytes : Bytes := [0x03, 0xFC, 0x00, 0x07, 0x00, 0x00, 0x00, 0x00]

theorem streamOf_aliveCheck : streamOf [(aliveCheckRequest, [])] = aliveCheckBytes :=
  List.append_nil _

theorem badHeader_badBytes : BadHeader badBytes := ⟨by decide, Or.inl (by decide)⟩

/-- In two chunks. -/
theorem packets_before_bad_header_two :
    (handleClient (fun _ ↦ idleEncounter) [aliveCheckBytes, badBytes] []
      { server := idleServer }).1.processed = [(aliveCheckRequest, [])] := by
  refine ((packets_before_bad_header_iff (fun _ ↦ idleEncounter) (fun _ ↦ readable_idleEncounter)
    idleServer [(aliveCheckRequest, [])] (by simp [aliveCheckRequest]) badBytes badHeader_badBytes
    [aliveCheckBytes, badBytes] (by simp [aliveCheckBytes, packetBytes, headerBytes, badBytes])
    (by rw [streamOf_aliveCheck]; simp)).mpr ⟨?_, ?_⟩).1
  · exact ⟨[aliveCheckBytes], [badBytes], rfl, by simp [streamOf_aliveCheck], by
      simp [streamOf_aliveCheck, doipHeaderSize]⟩
  · rw [servesAll_iff_of_usable fun _ ↦ usable_idleEncounter]
    simp [Truncated, aliveCheckRequest, routingActivationRequest, diagnosticMessage]

/-- In one chunk the alive check is lost. -/
theorem packets_lost_in_chunk :
    [aliveCheckBytes ++ badBytes].flatten = streamOf [(aliveCheckRequest, [])] ++ badBytes ∧
      (handleClient (fun _ ↦ idleEncounter) [aliveCheckBytes ++ badBytes] []
        { server := idleServer }).1.processed ≠ [(aliveCheckRequest, [])] := by
  have hextract : extractPackets (streamOf [(aliveCheckRequest, [])] ++ badBytes) =
      (.error (.valueError "Invalid DoIP protocol version"), badBytes) :=
    extractPackets_streamOf_bad (by simp [Doip.Encodable, aliveCheckRequest]) badHeader_badBytes
  rw [streamOf_aliveCheck] at hextract
  have hframed : framed [aliveCheckBytes ++ badBytes] [] = [] := by
    rw [framed, if_neg (by decide), List.nil_append, hextract]
  refine ⟨by rw [streamOf_aliveCheck]; simp, ?_⟩
  rw [(handleClient_eq _ _).1, hframed]
  exact (List.cons_ne_nil _ _).symm

end VehicleOta
