import VehicleOta.Can.IsoTp
import VehicleOta.Data.Blocks
import VehicleOta.Trace.Since

/-!
# Segmentation and reassembly

The frames of a long payload are a first frame and one consecutive frame for each block of the
rest.  The reassembler is described by the blocks it took over so far.
-/

namespace VehicleOta.Can

open BlockLogic TraceLogic IsoTpReassembler

/-! ## First bytes -/

theorem toNat_pciByte {type low : ℕ} (htype : type < 16) (hlow : low < 16) :
    (pciByte type low).toNat = type * 16 + low := by
  rw [pciByte, ← Nat.shiftLeft_add_eq_or_of_lt (i := 4) hlow, Nat.shiftLeft_eq, UInt8.toNat_ofNat']
  omega

theorem frameType_pciByte {type low : ℕ} (htype : type < 16) (hlow : low < 16) :
    frameType (pciByte type low) = type := by
  rw [frameType, toNat_pciByte htype hlow, Nat.shiftRight_eq_div_pow]
  omega

theorem and_0x0F (n : ℕ) : n &&& 0x0F = n % 16 := Nat.and_two_pow_sub_one_eq_mod n 4

theorem lowNibble_pciByte {type low : ℕ} (htype : type < 16) (hlow : low < 16) :
    lowNibble (pciByte type low) = low := by
  rw [lowNibble, toNat_pciByte htype hlow, and_0x0F]
  omega

/-! ## The frames of a payload -/

/-- What stands behind the first frame. -/
def tailOf (payload : Bytes) : Bytes := payload.drop ffMaxPayload

def tailBlock (payload : Bytes) (i : ℕ) : Bytes := block cfMaxPayload (tailOf payload) i

/-- The number of consecutive frames. -/
def tailCount (payload : Bytes) : ℕ := blockCount cfMaxPayload (tailOf payload)

def firstFrameOf (payload : Bytes) : Bytes :=
  pciByte 0x1 ((payload.length >>> 8) &&& 0x0F) :: UInt8.ofNat (payload.length &&& 0xFF) ::
    payload.take ffMaxPayload

/-- Consecutive frame number `i`, counted from zero. -/
def consecutiveFrameOf (payload : Bytes) (i : ℕ) : Bytes :=
  consecutiveFrame ((i + 1) % 16) (tailBlock payload i)

def framesOf (payload : Bytes) (count : ℕ) : List Bytes :=
  firstFrameOf payload :: (List.range count).map (consecutiveFrameOf payload)

theorem segmentLoop_eq (remaining : Bytes) (sequence : ℕ) (hsequence : sequence < 16) :
    segmentLoop remaining sequence =
      (List.range (blockCount cfMaxPayload remaining)).map fun i ↦
        consecutiveFrame ((sequence + i) % 16) (block cfMaxPayload remaining i) := by
  induction remaining, sequence using segmentLoop.induct with
  | case1 sequence =>
      rw [segmentLoop, if_pos rfl]
      rfl
  | case2 remaining sequence hne ih =>
      have hcount : 0 < blockCount cfMaxPayload remaining :=
        (lt_blockCount_iff (by decide)).mpr (by simpa using List.length_pos_iff.mpr hne)
      rw [segmentLoop, if_neg hne, ih (Nat.mod_lt _ (by decide)), blockCount_drop (by decide)]
      obtain ⟨count, hcount⟩ := Nat.exists_eq_succ_of_ne_zero hcount.ne'
      rw [hcount, List.range_succ_eq_map, List.map_cons, List.map_map, Nat.succ_sub_one]
      refine congrArg₂ List.cons (by simp [block, Nat.mod_eq_of_lt hsequence])
        (List.map_congr_left fun i _ ↦ ?_)
      rw [Function.comp_apply, block_drop, Nat.mod_add_mod, Nat.add_assoc, Nat.add_comm 1]

theorem segment_long {payload : Bytes} (hlong : sfMaxPayload < payload.length)
    (hlength : payload.length ≤ 0xFFF) :
    segment payload = { frames := framesOf payload (tailCount payload) } := by
  rw [segment, if_neg (not_le.mpr hlong), firstFrame, if_neg (not_lt.mpr hlength)]
  simp only [segmentLoop_eq _ 1 (by decide), Nat.add_comm 1]
  rfl

theorem length_tailOf (payload : Bytes) : (tailOf payload).length = payload.length - 62 := by
  rw [tailOf, List.length_drop, ffMaxPayload]

theorem tailCount_pos {payload : Bytes} (hlong : sfMaxPayload < payload.length) :
    0 < tailCount payload := by
  refine (lt_blockCount_iff (by decide)).mpr ?_
  rw [length_tailOf, Nat.zero_mul]
  exact Nat.sub_pos_of_lt hlong

theorem tailBlock_ne_nil {payload : Bytes} {i : ℕ} (hi : i < tailCount payload) :
    tailBlock payload i ≠ [] :=
  List.length_pos_iff.mp (length_block_pos (by decide) hi)

/-! ## Feeding frames -/

theorem feed_singleFrame {payload frame : Bytes} (h : singleFrame payload = .ok frame)
    (hpos : 0 < payload.length) (padding : Bytes) (r : IsoTpReassembler) :
    r.feed (frame ++ padding) = (r.reset, some payload) := by
  unfold singleFrame at h
  split at h
  · simp at h
  · rename_i hlength
    split at h
    · rename_i hshort
      obtain rfl : pciByte 0x0 payload.length :: payload = frame := by simpa using h
      have hlow : payload.length < 16 := by omega
      have hnibble : lowNibble (pciByte 0x0 payload.length) = payload.length :=
        lowNibble_pciByte (by decide) hlow
      rw [List.cons_append, feed, frameType_pciByte (by decide) hlow, if_pos rfl]
      unfold feedSingleFrame
      rw [hnibble, if_neg hpos.ne', if_neg (by simp), List.take_left]
    · obtain rfl : 0x00 :: UInt8.ofNat payload.length :: payload = frame := by simpa using h
      have hbyte : (UInt8.ofNat payload.length).toNat = payload.length := by
        rw [sfMaxPayload] at hlength
        rw [UInt8.toNat_ofNat']
        omega
      have hzero : feed (0x00 :: UInt8.ofNat payload.length :: payload ++ padding) r =
          r.feedSingleFrame 0x00 (UInt8.ofNat payload.length :: (payload ++ padding)) := rfl
      rw [hzero]
      unfold feedSingleFrame
      simp only [hbyte]
      rw [if_pos (by decide), if_neg (by simp), List.take_left]

theorem feed_firstFrameOf {payload : Bytes} (hlong : sfMaxPayload < payload.length)
    (hlength : payload.length ≤ 0xFFF) (r : IsoTpReassembler) :
    r.feed (firstFrameOf payload) = (r.begin payload.length (payload.take ffMaxPayload), none) := by
  have hnibble : (payload.length >>> 8) &&& 0x0F = payload.length / 256 := by
    rw [and_0x0F, Nat.shiftRight_eq_div_pow]
    omega
  have hlow : payload.length / 256 < 16 := by omega
  have hbyte : (UInt8.ofNat (payload.length &&& 0xFF)).toNat = payload.length % 256 := by
    have : payload.length &&& 0xFF = payload.length % 256 :=
      Nat.and_two_pow_sub_one_eq_mod payload.length 8
    rw [this, UInt8.toNat_ofNat']
    omega
  have htotal : (payload.length / 256) <<< 8 ||| payload.length % 256 = payload.length := by
    rw [← Nat.shiftLeft_add_eq_or_of_lt (i := 8) (Nat.mod_lt _ (by decide)), Nat.shiftLeft_eq]
    omega
  have hne : payload.length ≠ 0 := (Nat.zero_lt_of_lt hlong).ne'
  have hpci : lowNibble (pciByte 0x1 (payload.length / 256)) = payload.length / 256 :=
    lowNibble_pciByte (by decide) hlow
  rw [firstFrameOf, feed, hnibble, frameType_pciByte (by decide) hlow, if_neg (by decide),
    if_pos rfl, feedFirstFrame]
  simp only [hpci, hbyte, htotal]
  rw [if_neg hne, deliver, if_neg]
  simpa [begin, ffMaxPayload, sfMaxPayload] using hlong

section Consecutive

variable {r : IsoTpReassembler} {length sequence : ℕ} {data : Bytes}

theorem feed_consecutiveFrame_eq (hsequence : sequence < 16) :
    r.feed (consecutiveFrame sequence data) =
      r.feedConsecutiveFrame (pciByte 0x2 sequence) data := by
  rw [consecutiveFrame, and_0x0F, Nat.mod_eq_of_lt hsequence, feed,
    frameType_pciByte (by decide) hsequence, if_neg (by decide), if_neg (by decide), if_pos rfl]

theorem feed_consecutiveFrame_idle (hsequence : sequence < 16) (h : r.expectedLength = none) :
    r.feed (consecutiveFrame sequence data) = (r, none) := by
  rw [feed_consecutiveFrame_eq hsequence, feedConsecutiveFrame, h]

theorem lowNibble_consecutive (hsequence : sequence < 16) :
    lowNibble (pciByte 0x2 sequence) = sequence := lowNibble_pciByte (by decide) hsequence

theorem feed_consecutiveFrame_mismatch (hsequence : sequence < 16)
    (h : r.expectedLength = some length) (hne : sequence ≠ r.nextSequence) :
    r.feed (consecutiveFrame sequence data) = (r.reset, none) := by
  rw [feed_consecutiveFrame_eq hsequence, feedConsecutiveFrame, h]
  simp only [lowNibble_consecutive hsequence]
  rw [if_pos hne]

theorem feed_consecutiveFrame (hsequence : sequence < 16) (h : r.expectedLength = some length)
    (heq : sequence = r.nextSequence) (hdata : data ≠ []) :
    r.feed (consecutiveFrame sequence data) =
      if (r.extend data).buffer.length < length then ((r.extend data).requestBlock, none)
      else (r.extend data).deliver length := by
  rw [feed_consecutiveFrame_eq hsequence, feedConsecutiveFrame, h]
  simp only [lowNibble_consecutive hsequence]
  rw [if_neg (not_not.mpr heq), if_neg hdata]

end Consecutive

/-- The reassembler has taken over the first frame of the payload and the blocks `taken`; the
frame behind number `next - 1` is expected. -/
structure Receiving (payload : Bytes) (taken : List ℕ) (next : ℕ) (r : IsoTpReassembler) :
    Prop where
  expectedLength : r.expectedLength = some payload.length
  buffer : r.buffer = payload.take ffMaxPayload ++ taken.flatMap (tailBlock payload)
  nextSequence : r.nextSequence = (next + 1) % 16

section Receiving

variable {payload : Bytes} {taken : List ℕ} {next : ℕ} {r : IsoTpReassembler}

theorem receiving_begin (payload : Bytes) (r : IsoTpReassembler) :
    Receiving payload [] 0 (r.begin payload.length (payload.take ffMaxPayload)) where
  expectedLength := rfl
  buffer := by simp [begin]
  nextSequence := rfl

theorem expectedLength_requestBlock (r : IsoTpReassembler) :
    r.requestBlock.expectedLength = r.expectedLength := by
  unfold requestBlock
  split <;> rfl

theorem buffer_requestBlock (r : IsoTpReassembler) : r.requestBlock.buffer = r.buffer := by
  unfold requestBlock
  split <;> rfl

theorem nextSequence_requestBlock (r : IsoTpReassembler) :
    r.requestBlock.nextSequence = r.nextSequence := by
  unfold requestBlock
  split <;> rfl

theorem reset_requestBlock (r : IsoTpReassembler) : r.requestBlock.reset = r.reset := by
  unfold requestBlock
  split <;> rfl

theorem Receiving.extend (h : Receiving payload taken next r) {i : ℕ}
    (hi : i % 16 = next % 16) :
    Receiving payload (taken ++ [i]) (i + 1) (r.extend (tailBlock payload i)).requestBlock where
  expectedLength := (expectedLength_requestBlock _).trans h.expectedLength
  buffer := by
    rw [buffer_requestBlock, IsoTpReassembler.extend, h.buffer]
    simp
  nextSequence := by
    have hnext : (r.extend (tailBlock payload i)).nextSequence = (r.nextSequence + 1) % 16 :=
      and_0x0F _
    rw [nextSequence_requestBlock, hnext, h.nextSequence]
    omega

/-- The bytes of the payload that have not been lost. -/
def takenBytes (payload : Bytes) (taken : List ℕ) : Bytes :=
  payload.take ffMaxPayload ++ taken.flatMap (tailBlock payload)

theorem Receiving.buffer_extend (h : Receiving payload taken next r) (i : ℕ) (padding : Bytes) :
    (r.extend (tailBlock payload i ++ padding)).buffer =
      takenBytes payload (taken ++ [i]) ++ padding := by
  simp [IsoTpReassembler.extend, h.buffer, takenBytes]

theorem consecutiveFrameOf_append (payload : Bytes) (i : ℕ) (padding : Bytes) :
    consecutiveFrameOf payload i ++ padding =
      consecutiveFrame ((i + 1) % 16) (tailBlock payload i ++ padding) := rfl

/-- A frame with the wrong number in its nibble starts the reassembler afresh. -/
theorem Receiving.feed_mismatch (h : Receiving payload taken next r) {i : ℕ}
    (hi : i % 16 ≠ next % 16) : r.feed (consecutiveFrameOf payload i) = (r.reset, none) := by
  refine feed_consecutiveFrame_mismatch (Nat.mod_lt _ (by decide)) h.expectedLength ?_
  rw [h.nextSequence]
  omega

/-- The expected frame, while bytes are still missing behind it. -/
theorem Receiving.feed_more (h : Receiving payload taken next r) {i : ℕ}
    (hi : i % 16 = next % 16) (hcount : i < tailCount payload)
    (hmore : (takenBytes payload (taken ++ [i])).length < payload.length) :
    r.feed (consecutiveFrameOf payload i) =
      ((r.extend (tailBlock payload i)).requestBlock, none) := by
  have hbuffer := h.buffer_extend i []
  rw [List.append_nil, List.append_nil] at hbuffer
  rw [consecutiveFrameOf, feed_consecutiveFrame (Nat.mod_lt _ (by decide)) h.expectedLength
    (by rw [h.nextSequence]; omega) (tailBlock_ne_nil hcount), hbuffer, if_pos hmore]

/-- The expected frame, when it completes the payload. -/
theorem Receiving.feed_last (h : Receiving payload taken next r) {i : ℕ} (padding : Bytes)
    (hi : i % 16 = next % 16) (hcount : i < tailCount payload)
    (hlast : payload.length ≤ (takenBytes payload (taken ++ [i]) ++ padding).length) :
    r.feed (consecutiveFrameOf payload i ++ padding) =
      (r.reset, some ((takenBytes payload (taken ++ [i]) ++ padding).take payload.length)) := by
  have hne : tailBlock payload i ++ padding ≠ [] := fun hnil ↦
    tailBlock_ne_nil hcount (List.append_eq_nil_iff.mp hnil).1
  rw [consecutiveFrameOf_append, feed_consecutiveFrame (Nat.mod_lt _ (by decide)) h.expectedLength
    (by rw [h.nextSequence]; omega) hne, h.buffer_extend, if_neg (not_lt.mpr hlast), deliver,
    h.buffer_extend, if_pos hlast]
  rfl

theorem takenBytes_range (payload : Bytes) (k : ℕ) :
    takenBytes payload (List.range k) =
      payload.take ffMaxPayload ++ (tailOf payload).take (k * cfMaxPayload) := by
  rw [takenBytes]
  exact congrArg _ (flatMap_range_block _ _ _)

theorem takenBytes_all (payload : Bytes) :
    takenBytes payload (List.range (tailCount payload)) = payload := by
  rw [takenBytes]
  have : (List.range (tailCount payload)).flatMap (tailBlock payload) = tailOf payload :=
    flatMap_blocks (by decide)
  rw [this, tailOf, List.take_append_drop]

theorem length_takenBytes_range {k : ℕ} (hlong : sfMaxPayload < payload.length)
    (hk : k < tailCount payload) :
    (takenBytes payload (List.range k)).length < payload.length := by
  have hlt := (lt_blockCount_iff (by decide)).mp hk
  rw [takenBytes_range, List.length_append, List.length_take, List.length_take]
  rw [length_tailOf] at hlt ⊢
  rw [sfMaxPayload] at hlong
  rw [ffMaxPayload]
  omega

/-- The reassembler behind the first frame and `k` consecutive frames. -/
theorem run_framesOf (hlong : sfMaxPayload < payload.length) (hlength : payload.length ≤ 0xFFF)
    (r : IsoTpReassembler) {k : ℕ} (hk : k < tailCount payload) :
    Receiving payload (List.range k) k (run (fun r frame ↦ feed frame r) r (framesOf payload k)).1 ∧
      (run (fun r frame ↦ feed frame r) r (framesOf payload k)).1.reset = r.reset ∧
      (run (fun r frame ↦ feed frame r) r (framesOf payload k)).2 =
        (framesOf payload k).map fun _ ↦ none := by
  induction k with
  | zero =>
      have hfirst := run_concat (fun r frame ↦ feed frame r) r [] (firstFrameOf payload)
      rw [List.nil_append, run_nil, feed_firstFrameOf hlong hlength] at hfirst
      rw [framesOf, List.range_zero, List.map_nil, hfirst]
      exact ⟨receiving_begin payload r, rfl, rfl⟩
  | succ k ih =>
      obtain ⟨hreceiving, hreset, houtputs⟩ := ih (by omega)
      have hframes : framesOf payload (k + 1) =
          framesOf payload k ++ [consecutiveFrameOf payload k] := by
        simp [framesOf, List.range_succ]
      have hmore := hreceiving.feed_more rfl (by omega) (by
        rw [← List.range_succ]
        exact length_takenBytes_range hlong hk)
      rw [hframes, run_concat, hmore, houtputs]
      refine ⟨?_, (reset_requestBlock _).trans hreset, by simp⟩
      rw [List.range_succ]
      exact hreceiving.extend rfl

end Receiving

/-! ## The round trip -/

theorem length_firstFrameOf (payload : Bytes) : (firstFrameOf payload).length ≤ maxCanFdData := by
  rw [firstFrameOf, List.length_cons, List.length_cons, List.length_take]
  exact Nat.succ_le_succ (Nat.succ_le_succ (min_le_left _ _))

theorem length_consecutiveFrameOf (payload : Bytes) (i : ℕ) :
    (consecutiveFrameOf payload i).length ≤ maxCanFdData := by
  rw [consecutiveFrameOf, consecutiveFrame, List.length_cons, tailBlock, length_block]
  exact Nat.succ_le_succ (min_le_left _ _)

theorem length_framesOf (payload : Bytes) (count : ℕ) :
    ∀ frame ∈ framesOf payload count, frame.length ≤ maxCanFdData := by
  intro frame hframe
  rcases List.mem_cons.mp hframe with rfl | hframe
  · exact length_firstFrameOf payload
  · obtain ⟨i, -, rfl⟩ := List.mem_map.mp hframe
    exact length_consecutiveFrameOf payload i

theorem segment_short {payload : Bytes} (hshort : payload.length ≤ sfMaxPayload) :
    ∃ frame, singleFrame payload = .ok frame ∧ frame.length ≤ maxCanFdData ∧
      segment payload = { frames := [frame] } := by
  rw [sfMaxPayload] at hshort
  rw [segment, if_pos (by simpa [sfMaxPayload] using hshort), singleFrame,
    if_neg (by simpa [sfMaxPayload] using hshort)]
  split
  · exact ⟨_, rfl, by simp only [List.length_cons, maxCanFdData]; omega, rfl⟩
  · exact ⟨_, rfl, by simp only [List.length_cons, maxCanFdData]; omega, rfl⟩

/-- For a payload that `segment` accepts: the frames fit on the bus, and whatever state the
reassembler is in and whatever pads the last frame, only the last frame yields something, namely
the payload, and the reassembler ends as it was made. -/
theorem segment_accepted {payload : Bytes} (hpos : 0 < payload.length)
    (hlength : payload.length ≤ 0xFFF) (padding : Bytes) (r : IsoTpReassembler) :
    ∃ front last, segment payload = { frames := front ++ [last] } ∧
      (∀ frame ∈ front ++ [last], frame.length ≤ maxCanFdData) ∧
      run (fun r frame ↦ feed frame r) r (front ++ [last ++ padding]) =
        ({ blockSize := r.blockSize, stmin := r.stmin },
          (front.map fun _ ↦ none) ++ [some payload]) := by
  by_cases hlong : sfMaxPayload < payload.length
  · obtain ⟨k, hk⟩ : ∃ k, tailCount payload = k + 1 :=
      Nat.exists_eq_succ_of_ne_zero (tailCount_pos hlong).ne'
    have hframes : framesOf payload (tailCount payload) =
        framesOf payload k ++ [consecutiveFrameOf payload k] := by
      rw [hk]
      simp [framesOf, List.range_succ]
    obtain ⟨hreceiving, hreset, houtputs⟩ :=
      run_framesOf hlong hlength r (k := k) (by omega)
    have hall : takenBytes payload (List.range k ++ [k]) = payload := by
      have h := takenBytes_all payload
      rwa [hk, List.range_succ] at h
    have hlast := hreceiving.feed_last padding rfl (by omega) (by rw [hall]; simp)
    rw [hall, List.take_left, hreset] at hlast
    refine ⟨framesOf payload k, consecutiveFrameOf payload k, ?_, ?_, ?_⟩
    · rw [segment_long hlong hlength, hframes]
    · rw [← hframes]
      exact length_framesOf payload _
    · rw [run_concat, hlast, houtputs]
      rfl
  · obtain ⟨frame, hframe, hfits, hsegment⟩ := segment_short (not_lt.mp hlong)
    refine ⟨[], frame, hsegment, by simpa using hfits, ?_⟩
    have hrun := run_concat (fun r frame ↦ feed frame r) r [] (frame ++ padding)
    rw [run_nil, feed_singleFrame hframe hpos] at hrun
    exact hrun

/-- A payload that is too long is refused before anything is sent. -/
theorem segment_refused {payload : Bytes} (hlength : 0xFFF < payload.length) :
    segment payload = { error := some (.valueError "ISO-TP payload too large for simple adapter") } ∧
      startSend payload =
        (none, .raised (.valueError "ISO-TP payload too large for simple adapter")) := by
  have hlong : ¬ payload.length ≤ sfMaxPayload := by
    rw [sfMaxPayload]
    omega
  rw [segment, startSend, if_neg hlong, if_neg hlong, firstFrame, if_pos hlength]
  exact ⟨rfl, rfl⟩

/-- Segmentation and reassembly, for every payload length. -/
theorem segment_roundTrip (payload padding : Bytes) (r : IsoTpReassembler) :
    (0 < payload.length → payload.length ≤ 0xFFF →
      ∃ front last, segment payload = { frames := front ++ [last] } ∧
        (∀ frame ∈ front ++ [last], frame.length ≤ maxCanFdData) ∧
        run (fun r frame ↦ feed frame r) r (front ++ [last ++ padding]) =
          ({ blockSize := r.blockSize, stmin := r.stmin },
            (front.map fun _ ↦ none) ++ [some payload])) ∧
      (0xFFF < payload.length →
        segment payload =
            { error := some (.valueError "ISO-TP payload too large for simple adapter") } ∧
          startSend payload =
            (none, .raised (.valueError "ISO-TP payload too large for simple adapter"))) :=
  ⟨fun hpos hlength ↦ segment_accepted hpos hlength padding r, segment_refused⟩

/-- A payload of five frames and one too long, with a padded last frame. -/
theorem segment_roundTrip_delivered :
    (∃ front last, segment (List.replicate 300 7) = { frames := front ++ [last] } ∧
      (run (fun r frame ↦ feed frame r) { nextSequence := 9 } (front ++ [last ++ [0, 0]])).2 =
        (front.map fun _ ↦ none) ++ [some (List.replicate 300 7)]) ∧
      (segment (List.replicate 4096 7)).frames = [] := by
  have hdelivered := (segment_roundTrip (List.replicate 300 7) [0, 0] { nextSequence := 9 }).1
    (by rw [List.length_replicate]; decide) (by rw [List.length_replicate]; decide)
  have hrefused := (segment_roundTrip (List.replicate 4096 7) [] {}).2
    (by rw [List.length_replicate]; decide)
  obtain ⟨front, last, hsegment, -, hrun⟩ := hdelivered
  exact ⟨⟨front, last, hsegment, by rw [hrun]⟩, by rw [hrefused.1]⟩

end VehicleOta.Can
