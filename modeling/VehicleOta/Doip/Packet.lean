import VehicleOta.Python.Basics
import VehicleOta.Trace.Since

/-!
# DoIP packets on a byte stream

`transport/doip/packet.py`, and the buffer of `DoIPServer.handle_client` in
`transport/doip/server.py`.  TCP cuts the stream of packets into chunks as it likes.
-/

namespace VehicleOta.Doip

open TraceLogic

def doipVersion : UInt8 := 0x02
def doipInverseVersion : UInt8 := 0xFD
def doipHeaderSize : ℕ := 8

/-- A payload type and a payload. -/
abbrev Packet := ℕ × Bytes

def headerBytes (payloadType length : ℕ) : Bytes :=
  [doipVersion, doipInverseVersion] ++ intToBytes 2 payloadType ++ intToBytes 4 length

def buildPacket (payloadType : ℕ) (payload : Bytes) : Except PyError Bytes :=
  if 256 ^ 2 ≤ payloadType then
    .error (.structError "'H' format requires 0 <= number <= 65535")
  else if 256 ^ 4 ≤ payload.length then
    .error (.structError "'I' format requires 0 <= number <= 4294967295")
  else .ok (headerBytes payloadType payload.length ++ payload)

/-- `struct.unpack("!BBHI", buffer[:DOIP_HEADER_SIZE])` on a buffer of at least that size. -/
def unpackHeader (buffer : Bytes) : UInt8 × UInt8 × ℕ × ℕ :=
  (buffer.getD 0 0, buffer.getD 1 0, intFromBytes (slice buffer 2 4),
    intFromBytes (slice buffer 4 8))

/-- `extract_packets`: what it returns or raises, and the buffer it leaves. -/
def extractPackets (buffer : Bytes) : Except PyError (List Packet) × Bytes :=
  if buffer.length < doipHeaderSize then (.ok [], buffer)
  else
    let (version, inverse, payloadType, length) := unpackHeader buffer
    if version ≠ doipVersion ∨ inverse ≠ doipInverseVersion then
      (.error (.valueError "Invalid DoIP protocol version"), buffer)
    else if buffer.length < doipHeaderSize + length then (.ok [], buffer)
    else
      let payload := slice buffer doipHeaderSize (doipHeaderSize + length)
      let rest := extractPackets (buffer.drop (doipHeaderSize + length))
      (rest.1.map ((payloadType, payload) :: ·), rest.2)
termination_by buffer.length
decreasing_by
  rw [List.length_drop]
  simp only [doipHeaderSize] at *
  omega

/-- A chunk from `client.recv` at the end of the buffer. -/
def receiveChunk (buffer chunk : Bytes) : Bytes × Except PyError (List Packet) :=
  let extracted := extractPackets (buffer ++ chunk)
  (extracted.2, extracted.1)

/-! ## One packet -/

/-- A packet that `build_packet` encodes. -/
def Encodable (p : Packet) : Prop := p.1 < 256 ^ 2 ∧ p.2.length < 256 ^ 4

def packetBytes (p : Packet) : Bytes := headerBytes p.1 p.2.length ++ p.2

theorem buildPacket_eq_ok {p : Packet} (h : Encodable p) :
    buildPacket p.1 p.2 = .ok (packetBytes p) := by
  rw [buildPacket, if_neg (not_le.mpr h.1), if_neg (not_le.mpr h.2), packetBytes]

@[simp] theorem length_headerBytes (payloadType length : ℕ) :
    (headerBytes payloadType length).length = doipHeaderSize := by
  simp [headerBytes, doipHeaderSize]

theorem unpackHeader_headerBytes {p : Packet} (h : Encodable p) (rest : Bytes) :
    unpackHeader (headerBytes p.1 p.2.length ++ rest) =
      (doipVersion, doipInverseVersion, p.1, p.2.length) := by
  have htype : slice (headerBytes p.1 p.2.length ++ rest) 2 4 = intToBytes 2 p.1 := by
    rw [headerBytes, List.append_assoc _ _ rest]
    exact slice_append_middle _ _ _ (by simp) (by simp)
  have hlength : slice (headerBytes p.1 p.2.length ++ rest) 4 8 = intToBytes 4 p.2.length := by
    rw [headerBytes]
    exact slice_append_middle _ _ _ (by simp) (by simp)
  rw [unpackHeader, htype, hlength, intFromBytes_intToBytes _ _ h.1, intFromBytes_intToBytes _ _ h.2]
  rfl

theorem extractPackets_packet {p : Packet} (h : Encodable p) (rest : Bytes) :
    extractPackets (packetBytes p ++ rest) =
      ((extractPackets rest).1.map (p :: ·), (extractPackets rest).2) := by
  have hlong : doipHeaderSize + p.2.length ≤ (packetBytes p ++ rest).length := by
    simp [packetBytes]
  have hheader : unpackHeader (packetBytes p ++ rest) =
      (doipVersion, doipInverseVersion, p.1, p.2.length) := by
    rw [packetBytes, List.append_assoc]
    exact unpackHeader_headerBytes h _
  have hpayload : slice (packetBytes p ++ rest) doipHeaderSize (doipHeaderSize + p.2.length) =
      p.2 := slice_append_middle _ _ _ (by simp) (by simp)
  have hrest : (packetBytes p ++ rest).drop (doipHeaderSize + p.2.length) = rest :=
    List.drop_left' (by simp [packetBytes])
  rw [extractPackets, if_neg (by omega), hheader]
  dsimp only
  rw [if_neg (by simp), if_neg (not_lt.mpr hlong), hpayload, hrest]

/-- A packet that is not there yet stays in the buffer. -/
theorem extractPackets_incomplete {p : Packet} (h : Encodable p) {buffer rest : Bytes}
    (happend : buffer ++ rest = packetBytes p) (hrest : rest ≠ []) :
    extractPackets buffer = (.ok [], buffer) := by
  rw [extractPackets]
  split
  · rfl
  · rename_i hlong
    have hshort : buffer.length < doipHeaderSize + p.2.length := by
      have hlength := congrArg List.length happend
      have hpos := List.length_pos_iff.mpr hrest
      simp only [packetBytes, List.length_append, length_headerBytes] at hlength
      omega
    -- the header is complete, so that the length of the payload is known
    have hprefix : headerBytes p.1 p.2.length <+: buffer := by
      have hheader : headerBytes p.1 p.2.length <+: packetBytes p := ⟨p.2, rfl⟩
      refine List.prefix_of_prefix_length_le hheader ⟨rest, happend⟩ ?_
      simpa using not_lt.mp hlong
    obtain ⟨more, rfl⟩ := hprefix
    rw [unpackHeader_headerBytes h]
    dsimp only
    rw [if_neg (by simp), if_pos hshort]

/-! ## The stream -/

def streamOf (packets : List Packet) : Bytes := packets.flatMap packetBytes

@[simp] theorem streamOf_append (packets more : List Packet) :
    streamOf (packets ++ more) = streamOf packets ++ streamOf more := List.flatMap_append

/-- Whole packets, and less than another header. -/
theorem extractPackets_streamOf {all : List Packet} (hall : ∀ p ∈ all, Encodable p) {rest : Bytes}
    (hrest : rest.length < doipHeaderSize) :
    extractPackets (streamOf all ++ rest) = (.ok all, rest) := by
  induction all with
  | nil => rw [streamOf, List.flatMap_nil, List.nil_append, extractPackets, if_pos hrest]
  | cons p all ih =>
      have hcons : streamOf (p :: all) ++ rest = packetBytes p ++ (streamOf all ++ rest) :=
        List.append_assoc (packetBytes p) (streamOf all) rest
      rw [hcons, extractPackets_packet (hall p List.mem_cons_self),
        ih fun q hq ↦ hall q (List.mem_cons_of_mem p hq)]
      rfl

/-- `packets` are the first packets of `all`, and `buffer` is too short for the next. -/
structure Cut (all packets : List Packet) (buffer : Bytes) : Prop where
  isPrefix : packets <+: all
  next : ∀ p more, all = packets ++ p :: more → buffer.length < (packetBytes p).length
  last : all = packets → buffer = []

theorem Cut.cons {all packets : List Packet} {buffer : Bytes} (h : Cut all packets buffer)
    (p : Packet) : Cut (p :: all) (p :: packets) buffer where
  isPrefix := List.cons_prefix_cons.mpr ⟨rfl, h.isPrefix⟩
  next q more heq := h.next q more (List.cons.inj heq).2
  last heq := h.last (List.cons.inj heq).2

theorem extractPackets_stream {all : List Packet} (hall : ∀ p ∈ all, Encodable p)
    {buffer rest : Bytes} (happend : buffer ++ rest = streamOf all) :
    ∃ packets left, extractPackets buffer = (.ok packets, left) ∧
      buffer = streamOf packets ++ left ∧ Cut all packets left := by
  induction all generalizing buffer with
  | nil =>
      obtain ⟨rfl, rfl⟩ := List.append_eq_nil_iff.mp happend
      refine ⟨[], [], ?_, rfl, ⟨List.prefix_refl _, by simp, fun _ ↦ rfl⟩⟩
      rw [extractPackets, if_pos (by decide)]
  | cons p all ih =>
      have hp := hall p List.mem_cons_self
      have hbuffer : buffer <+: streamOf (p :: all) := ⟨rest, happend⟩
      have hpacket : packetBytes p <+: streamOf (p :: all) := ⟨streamOf all, rfl⟩
      rcases Nat.lt_or_ge buffer.length (packetBytes p).length with hshort | hlong
      · obtain ⟨more, hmore⟩ := List.prefix_of_prefix_length_le hbuffer hpacket hshort.le
        have hne : more ≠ [] := by
          rintro rfl
          rw [← hmore, List.append_nil] at hshort
          exact lt_irrefl _ hshort
        refine ⟨[], buffer, extractPackets_incomplete hp hmore hne, rfl,
          ⟨List.nil_prefix, fun q more heq ↦ ?_, by simp⟩⟩
        rw [← (List.cons.inj heq).1]
        exact hshort
      · obtain ⟨left, rfl⟩ := List.prefix_of_prefix_length_le hpacket hbuffer hlong
        have hleft : left ++ rest = streamOf all := by
          rw [List.append_assoc] at happend
          exact List.append_cancel_left happend
        obtain ⟨packets, left', hextract, hsplit, hcut⟩ :=
          ih (fun q hq ↦ hall q (List.mem_cons_of_mem p hq)) hleft
        refine ⟨p :: packets, left', ?_, ?_, hcut.cons p⟩
        · rw [extractPackets_packet hp, hextract]
          rfl
        · rw [hsplit, ← List.append_assoc]
          rfl

/-- Whatever the chunks, after each of them the packets that are complete have been yielded, in
order, and the rest is in the buffer. -/
theorem run_receiveChunk {all : List Packet} (hall : ∀ p ∈ all, Encodable p) (chunks : List Bytes)
    {rest : Bytes} (happend : chunks.flatten ++ rest = streamOf all) :
    ∃ yields : List (List Packet), (run receiveChunk [] chunks).2 = yields.map .ok ∧
      chunks.flatten = streamOf yields.flatten ++ (run receiveChunk [] chunks).1 ∧
      Cut all yields.flatten (run receiveChunk [] chunks).1 := by
  induction chunks using List.reverseRecOn generalizing rest with
  | nil =>
      refine ⟨[], rfl, rfl, List.nil_prefix, ?_, fun _ ↦ rfl⟩
      intro p more _
      simp [packetBytes, doipHeaderSize]
  | append_singleton chunks chunk ih =>
      rw [List.flatten_concat, List.append_assoc] at happend
      obtain ⟨yields, houtputs, hsplit, hcut⟩ := ih happend
      rw [run_concat, houtputs]
      set buffer := (run receiveChunk [] chunks).1
      obtain ⟨later, rfl⟩ := hcut.isPrefix
      have hbuffer : (buffer ++ chunk) ++ rest = streamOf later := by
        rw [hsplit, streamOf_append, List.append_assoc] at happend
        rw [List.append_assoc]
        exact List.append_cancel_left happend
      obtain ⟨more, left, hextract, hmore, hcut'⟩ :=
        extractPackets_stream (fun p hp ↦ hall p (List.mem_append_right _ hp)) hbuffer
      have hstep : receiveChunk buffer chunk = (left, .ok more) := by
        rw [receiveChunk, hextract]
      rw [hstep]
      refine ⟨yields ++ [more], by simp, ?_, ?_⟩
      · rw [List.flatten_concat, List.flatten_concat, hsplit, streamOf_append, List.append_assoc,
          List.append_assoc, hmore]
      · rw [List.flatten_concat]
        refine ⟨(List.prefix_append_right_inj _).mpr hcut'.isPrefix, fun p after heq ↦ ?_,
          fun heq ↦ hcut'.last (List.append_cancel_left heq)⟩
        rw [List.append_assoc] at heq
        exact hcut'.next p after (List.append_cancel_left heq)

/-- The packets that lie in the part of the stream received so far. -/
theorem Cut.contained_iff {all packets : List Packet} {received left : Bytes}
    (h : Cut all packets left) (hreceived : received = streamOf packets ++ left) {front : List Packet}
    (hfront : front <+: all) :
    (streamOf front).length ≤ received.length ↔ front <+: packets := by
  constructor
  · intro hle
    rcases List.prefix_or_prefix_of_prefix hfront h.isPrefix with hp | ⟨more, rfl⟩
    · exact hp
    · cases more with
      | nil => rw [List.append_nil]
      | cons p more =>
          obtain ⟨later, hlater⟩ := hfront
          have hshort := h.next p (more ++ later) (by rw [← hlater]; simp)
          have hcons : streamOf (p :: more) = packetBytes p ++ streamOf more := rfl
          rw [hreceived, streamOf_append, hcons, List.length_append, List.length_append,
            List.length_append] at hle
          omega
  · rintro ⟨more, rfl⟩
    rw [hreceived, streamOf_append, List.append_assoc, List.length_append]
    exact Nat.le_add_right _ _

theorem mapM_buildPacket {all : List Packet} (hall : ∀ p ∈ all, Encodable p) :
    all.mapM (fun p ↦ buildPacket p.1 p.2) = .ok (all.map packetBytes) := by
  induction all with
  | nil => rfl
  | cons p all ih =>
      rw [List.mapM_cons, buildPacket_eq_ok (hall p List.mem_cons_self),
        ih fun q hq ↦ hall q (List.mem_cons_of_mem p hq)]
      rfl

/-- A stream of packets, cut into chunks anyhow.  After any of its prefixes the packets yielded
are those that lie in the prefix, in order, and the buffer is the rest of the prefix; at the end
all packets have been yielded and the buffer is empty. -/
theorem stream_framing (all : List Packet)
    (hall : ∀ p ∈ all, p.1 < 256 ^ 2 ∧ p.2.length < 256 ^ 4) :
    ∃ frames, all.mapM (fun p ↦ buildPacket p.1 p.2) = .ok frames ∧
      ∀ chunks rest, chunks.flatten ++ rest = frames.flatten →
        ∃ yields : List (List Packet), (run receiveChunk [] chunks).2 = yields.map .ok ∧
          yields.flatten <+: all ∧
          chunks.flatten = streamOf yields.flatten ++ (run receiveChunk [] chunks).1 ∧
          (∀ front, front <+: all →
            ((streamOf front).length ≤ chunks.flatten.length ↔ front <+: yields.flatten)) ∧
          (rest = [] → yields.flatten = all ∧ (run receiveChunk [] chunks).1 = []) := by
  refine ⟨_, mapM_buildPacket hall, fun chunks rest happend ↦ ?_⟩
  rw [← List.flatMap_def] at happend
  obtain ⟨yields, houtputs, hsplit, hcut⟩ := run_receiveChunk hall chunks happend
  refine ⟨yields, houtputs, hcut.isPrefix, hsplit, fun front ↦ hcut.contained_iff hsplit, ?_⟩
  rintro rfl
  rw [List.append_nil] at happend
  have hall' := (hcut.contained_iff hsplit (List.prefix_refl all)).mp
    (le_of_eq (congrArg List.length happend.symm))
  have heq := hall'.eq_of_length_le hcut.isPrefix.length_le
  exact ⟨heq.symm, hcut.last heq⟩

/-- Two packets, the second one empty, in chunks that cut both headers. -/
theorem stream_framing_two :
    ∃ yields : List (List Packet), (run receiveChunk []
        [[0x02, 0xFD], [], [0x80, 0x01, 0, 0, 0, 1, 7, 0x02, 0xFD, 0], [5, 0, 0, 0, 0]]).2 =
          yields.map .ok ∧ yields.flatten = [(0x8001, [7]), (5, [])] := by
  obtain ⟨frames, hframes, h⟩ := stream_framing [(0x8001, [7]), (5, [])] (by decide)
  have hbuilt : [(0x8001, [7]), (5, [])].mapM (fun p : Packet ↦ buildPacket p.1 p.2) =
      .ok [[0x02, 0xFD, 0x80, 0x01, 0, 0, 0, 1, 7], [0x02, 0xFD, 0, 5, 0, 0, 0, 0]] := by rfl
  obtain rfl := Except.ok.inj (hbuilt.symm.trans hframes)
  obtain ⟨yields, houtputs, -, -, -, hlast⟩ := h
    [[0x02, 0xFD], [], [0x80, 0x01, 0, 0, 0, 1, 7, 0x02, 0xFD, 0], [5, 0, 0, 0, 0]] [] rfl
  exact ⟨yields, houtputs, (hlast rfl).1⟩

end VehicleOta.Doip
