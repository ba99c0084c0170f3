import VehicleOta.Can.RoundTrip

/-!
# The reassembler on any frames

`IsoTpReassembler` of `transport/can/isotp_adapter.py` once more, with every operation that can
raise, and what it returns for any sequence of frames at all.
-/

namespace VehicleOta.Can

open IsoTpReassembler

/-! ## The methods with their exceptions -/

namespace Checked

/-- `IsoTpAdapter.build_flow_control` -/
def buildFlowControl (flowStatus : ℕ) (blockSize stmin : ℤ) : Except PyError Bytes :=
  [(((0x3 <<< 4) ||| (flowStatus &&& 0x0F) : ℕ) : ℤ), blockSize % 256, stmin % 256].mapM byteOf

/-- `self.expected_length`, where it is compared with a length. -/
def requireLength : Option ℕ → Except PyError ℕ
  | some length => .ok length
  | none => .error (.typeError "'<' not supported between instances of 'int' and 'NoneType'")

/-- `_single_frame` -/
def singleFrame (frame : Bytes) (r : IsoTpReassembler) :
    Except PyError (IsoTpReassembler × Option Bytes) := do
  let low := lowNibble (← getByte frame 0)
  if low = 0 then
    if frame.length < 2 then return (r, none)
    let length := (← getByte frame 1).toNat
    if frame.length < 2 + length then return (r, none)
    return (r.reset, some (slice frame 2 (2 + length)))
  else
    if frame.length < 1 + low then return (r, none)
    return (r.reset, some (slice frame 1 (1 + low)))

/-- `_first_frame` -/
def firstFrame (frame : Bytes) (r : IsoTpReassembler) :
    Except PyError (IsoTpReassembler × Option Bytes) := do
  if frame.length < 2 then return (r, none)
  let length := (lowNibble (← getByte frame 0) <<< 8) ||| (← getByte frame 1).toNat
  if length = 0 then
    return (({ r with expectedLength := some length } : IsoTpReassembler).reset, none)
  let r := { r with
    expectedLength := some length
    buffer := frame.drop 2
    nextSequence := 1
    framesUntilNextFlowControl := r.blockSize
    pendingFlowControl := some (← buildFlowControl flowStatusContinue r.blockSize r.stmin) }
  let expected ← requireLength r.expectedLength
  if expected ≤ r.buffer.length then return (r.reset, some (r.buffer.take expected))
  return (r, none)

/-- `_consecutive_frame` -/
def consecutiveFrame (frame : Bytes) (r : IsoTpReassembler) :
    Except PyError (IsoTpReassembler × Option Bytes) := do
  if r.expectedLength = none then return (r, none)
  if lowNibble (← getByte frame 0) ≠ r.nextSequence then return (r.reset, none)
  if frame.length < 2 then return (r.reset, none)
  let r := r.extend (frame.drop 1)
  let expected ← requireLength r.expectedLength
  if r.buffer.length < expected then
    if r.blockSize ≠ 0 ∧ r.framesUntilNextFlowControl = 0 then
      return ({ r with
        pendingFlowControl := some (← buildFlowControl flowStatusContinue r.blockSize r.stmin)
        framesUntilNextFlowControl := r.blockSize }, none)
    return (r, none)
  return (r.reset, some (r.buffer.take expected))

def feed (frame : Bytes) (r : IsoTpReassembler) :
    Except PyError (IsoTpReassembler × Option Bytes) := do
  if frame = [] then return (r, none)
  let type := frameType (← getByte frame 0)
  if type = 0x0 then singleFrame frame r
  else if type = 0x1 then firstFrame frame r
  else if type = 0x2 then consecutiveFrame frame r
  else return (r, none)

/-- One call of `feed` after another. -/
def feedAll (r : IsoTpReassembler) : List Bytes →
    Except PyError (IsoTpReassembler × List (Option Bytes))
  | [] => .ok (r, [])
  | frame :: frames => do
      let fed ← feed frame r
      let rest ← feedAll fed.1 frames
      return (rest.1, fed.2 :: rest.2)

variable (pci : UInt8) (rest : Bytes) (r : IsoTpReassembler)

theorem getByte_zero : getByte (pci :: rest) 0 = pure pci := rfl

theorem getByte_one (b : UInt8) : getByte (pci :: b :: rest) 1 = pure b := rfl

theorem requireLength_some (length : ℕ) : requireLength (some length) = pure length := rfl

theorem slice_drop {α : Type} (front data : List α) (n : ℕ) :
    slice (front ++ data) front.length (front.length + n) = data.take n := by
  rw [slice, List.take_length_add_append, List.drop_left]

/-- The masks of `build_flow_control` keep every value in the range of a byte. -/
theorem buildFlowControl_eq (blockSize stmin : ℤ) :
    buildFlowControl flowStatusContinue blockSize stmin =
      pure (Can.buildFlowControl flowStatusContinue blockSize stmin) := by
  have hmasked : ∀ n : ℤ, byteOf (n % 256) = .ok (lowByte n) := by
    intro n
    rw [byteOf, if_pos ⟨Int.emod_nonneg n (by decide), Int.emod_lt_of_pos n (by decide)⟩, lowByte]
  have hstatus : byteOf (((0x3 <<< 4) ||| (flowStatusContinue &&& 0x0F) : ℕ) : ℤ) =
      .ok (pciByte 0x3 (flowStatusContinue &&& 0x0F)) := rfl
  simp only [buildFlowControl, List.mapM_cons, List.mapM_nil, hstatus, hmasked]
  rfl

theorem singleFrame_eq : singleFrame (pci :: rest) r = .ok (r.feedSingleFrame pci rest) := by
  unfold singleFrame feedSingleFrame
  rw [getByte_zero, pure_bind]
  by_cases hlow : lowNibble pci = 0
  · rw [if_pos hlow, if_pos hlow]
    cases rest with
    | nil => rfl
    | cons length data =>
        dsimp only
        rw [getByte_one, pure_bind, if_neg (by simp)]
        by_cases hdata : data.length < length.toNat
        · rw [if_pos (by simp only [List.length_cons]; omega), if_pos hdata]
          rfl
        · rw [if_neg (by simp only [List.length_cons]; omega), if_neg hdata]
          rw [← slice_drop [pci, length] data]
          rfl
  · rw [if_neg hlow, if_neg hlow]
    by_cases hrest : rest.length < lowNibble pci
    · rw [if_pos (by rw [List.length_cons]; omega), if_pos hrest]
      rfl
    · rw [if_neg (by rw [List.length_cons]; omega), if_neg hrest, ← slice_drop [pci] rest]
      rfl

theorem firstFrame_eq : firstFrame (pci :: rest) r = .ok (r.feedFirstFrame pci rest) := by
  unfold firstFrame feedFirstFrame
  cases rest with
  | nil => rfl
  | cons low data =>
      rw [if_neg (by simp), getByte_zero, pure_bind, getByte_one, pure_bind]
      dsimp only
      rw [buildFlowControl_eq, pure_bind]
      by_cases hzero : (lowNibble pci <<< 8) ||| low.toNat = 0
      · rw [if_pos hzero, if_pos hzero]
        rfl
      · rw [if_neg hzero, if_neg hzero, requireLength_some, pure_bind, deliver]
        split
        · rename_i hfull
          exact congrArg Except.ok (if_pos hfull).symm
        · rename_i hmore
          exact congrArg Except.ok (if_neg hmore).symm

theorem consecutiveFrame_eq :
    consecutiveFrame (pci :: rest) r = .ok (r.feedConsecutiveFrame pci rest) := by
  unfold consecutiveFrame feedConsecutiveFrame
  cases hexpected : r.expectedLength with
  | none => rfl
  | some length =>
      have hrequire : requireLength (r.extend rest).expectedLength = pure length := by
        rw [← requireLength_some, ← hexpected]
        rfl
      rw [if_neg (by simp), getByte_zero, pure_bind]
      dsimp only
      by_cases hnumber : lowNibble pci ≠ r.nextSequence
      · rw [if_pos hnumber, if_pos hnumber]
        rfl
      rw [if_neg hnumber, if_neg hnumber]
      by_cases hrest : rest = []
      · rw [if_pos (by rw [hrest, List.length_singleton]; decide), if_pos hrest]
        rfl
      have hlength := List.length_pos_iff.mpr hrest
      rw [if_neg (by rw [List.length_cons]; omega), if_neg hrest, List.drop_one, List.tail_cons,
        hrequire, pure_bind, buildFlowControl_eq, pure_bind]
      by_cases hmore : (r.extend rest).buffer.length < length
      · rw [if_pos hmore, if_pos hmore, requestBlock]
        split
        · rfl
        · rfl
      · rw [if_neg hmore, if_neg hmore, deliver, if_pos (not_lt.mp hmore)]
        rfl

/-- No frame raises, whatever state the reassembler is in. -/
theorem feed_eq (frame : Bytes) : feed frame r = .ok (r.feed frame) := by
  unfold feed IsoTpReassembler.feed
  cases frame with
  | nil => rfl
  | cons pci rest =>
      rw [if_neg (List.cons_ne_nil _ _), getByte_zero, pure_bind, singleFrame_eq, firstFrame_eq,
        consecutiveFrame_eq]
      dsimp only
      split
      · rfl
      · split
        · rfl
        · split
          · rfl
          · rfl

end Checked

/-! ## Frames in between -/

/-- A single frame with less data than it announces. -/
def isIncomplete (pci : UInt8) (rest : Bytes) : Bool :=
  if lowNibble pci = 0 then
    match rest with
    | [] => true
    | length :: data => data.length < length.toNat
  else rest.length < lowNibble pci

/-- `feed` returns before it processes the frame: it is empty, a single frame or a first frame cut
short, or of another type than these and the consecutive frames. -/
def isIgnored (frame : Bytes) : Bool :=
  match frame with
  | [] => true
  | pci :: rest =>
      if frameType pci = 0x0 then isIncomplete pci rest
      else if frameType pci = 0x1 then rest.isEmpty
      else frameType pci ≠ 0x2

def isSingleFrame (frame : Bytes) : Bool :=
  match frame with
  | [] => false
  | pci :: _ => frameType pci = 0x0

/-- The frames that `feed` processes. -/
def processed (frames : List Bytes) : List Bytes := frames.filter (!isIgnored ·)

/-- The length in a first frame. -/
def announcedLength (pci low : UInt8) : ℕ := (lowNibble pci <<< 8) ||| low.toNat

/-- A consecutive frame with this number and with data. -/
def IsConsecutive (number : ℕ) (frame : Bytes) : Prop :=
  ∃ pci data, frame = pci :: data ∧ frameType pci = 0x2 ∧ lowNibble pci = number ∧ data ≠ []

/-- Consecutive frames with the numbers 1, 2, ... modulo 16. -/
def Numbered (frames : List Bytes) : Prop :=
  ∀ i frame, frames[i]? = some frame → IsConsecutive ((i + 1) % 16) frame

/-- What stands behind the first bytes of the frames. -/
def dataOf (frames : List Bytes) : Bytes := frames.flatMap List.tail

/-- In `fed` there is a first frame with the length `length`; all that was processed behind it are
consecutive frames with the numbers 1, 2, ..., and `data` is the data of all of them. -/
def Gathered (fed : List Bytes) (length count : ℕ) (data : Bytes) : Prop :=
  ∃ before pci low front after, fed = before ++ (pci :: low :: front) :: after ∧
    frameType pci = 0x1 ∧ announcedLength pci low = length ∧
    Numbered (processed after) ∧ (processed after).length = count ∧
    data = front ++ dataOf (processed after)

/-- The payload is what the frames since a first frame carry, up to the length of that frame. -/
def Assembled (fed : List Bytes) (payload : Bytes) : Prop :=
  ∃ length count data, Gathered fed length count data ∧ length ≤ data.length ∧
    payload = data.take length

theorem numbered_nil : Numbered [] := by
  intro i frame h
  cases h

theorem Numbered.concat {frames : List Bytes} (h : Numbered frames) {frame : Bytes}
    (hframe : IsConsecutive ((frames.length + 1) % 16) frame) : Numbered (frames ++ [frame]) := by
  intro i f hf
  by_cases hi : i < frames.length
  · rw [List.getElem?_append_left hi] at hf
    exact h i f hf
  · rw [List.getElem?_append_right (not_lt.mp hi), List.getElem?_singleton] at hf
    split at hf
    · rename_i hzero
      obtain rfl : i = frames.length := by omega
      obtain rfl := Option.some.inj hf
      exact hframe
    · cases hf

section Gathered

variable {fed : List Bytes} {length count : ℕ} {data : Bytes} {frame : Bytes}

theorem Gathered.ignored (h : Gathered fed length count data) (hframe : isIgnored frame = true) :
    Gathered (fed ++ [frame]) length count data := by
  obtain ⟨before, pci, low, front, after, rfl, htype, hlength, hnumbered, hcount, hdata⟩ := h
  have hsame : processed (after ++ [frame]) = processed after := by
    simp [processed, hframe]
  refine ⟨before, pci, low, front, after ++ [frame], by simp, htype, hlength, ?_, ?_, ?_⟩
  · rwa [hsame]
  · rwa [hsame]
  · rwa [hsame]

theorem Gathered.consecutive (h : Gathered fed length count data) {pci : UInt8} {rest : Bytes}
    (htype : frameType pci = 0x2) (hnumber : lowNibble pci = (count + 1) % 16)
    (hrest : rest ≠ []) :
    Gathered (fed ++ [pci :: rest]) length (count + 1) (data ++ rest) := by
  obtain ⟨before, pci', low, front, after, rfl, htype', hlength, hnumbered, rfl, rfl⟩ := h
  have hmore : processed (after ++ [pci :: rest]) = processed after ++ [pci :: rest] := by
    simp [processed, isIgnored, htype]
  refine ⟨before, pci', low, front, after ++ [pci :: rest], by simp, htype', hlength, ?_, ?_, ?_⟩
  · rw [hmore]
    exact hnumbered.concat ⟨pci, rest, rfl, htype, hnumber, hrest⟩
  · rw [hmore, List.length_append, List.length_singleton]
  · rw [hmore, dataOf, dataOf, List.flatMap_append, List.flatMap_singleton, List.tail_cons,
      List.append_assoc]

theorem gathered_first {pci : UInt8} (htype : frameType pci = 0x1) (low : UInt8) (front : Bytes) :
    Gathered (fed ++ [pci :: low :: front]) (announcedLength pci low) 0 front :=
  ⟨fed, pci, low, front, [], rfl, htype, rfl, numbered_nil, rfl, (List.append_nil front).symm⟩

end Gathered

theorem announcedLength_le (pci low : UInt8) : announcedLength pci low ≤ 4095 := by
  have hhigh : lowNibble pci < 16 := by
    rw [lowNibble, and_0x0F]
    exact Nat.mod_lt _ (by decide)
  have hlow := low.toNat_lt
  rw [announcedLength, ← Nat.shiftLeft_add_eq_or_of_lt (i := 8) hlow, Nat.shiftLeft_eq]
  omega

/-! ## States -/

/-- Nothing is being received, or fewer bytes than announced are there. -/
def WithinLength (r : IsoTpReassembler) : Prop :=
  r.expectedLength = none ∧ r.buffer = [] ∨
    ∃ length, r.expectedLength = some length ∧ r.buffer.length < length ∧ length ≤ 4095

/-- The buffer of a reassembler that was fed these frames. -/
def Assembling (fed : List Bytes) (r : IsoTpReassembler) : Prop :=
  r.expectedLength = none ∧ r.buffer = [] ∨
    ∃ length count, Gathered fed length count r.buffer ∧ r.expectedLength = some length ∧
      r.nextSequence = (count + 1) % 16 ∧ r.buffer.length < length

theorem Gathered.length_le {fed : List Bytes} {length count : ℕ} {data : Bytes}
    (h : Gathered fed length count data) : length ≤ 4095 := by
  obtain ⟨before, pci, low, front, after, -, -, rfl, -⟩ := h
  exact announcedLength_le pci low

theorem Assembling.withinLength {fed : List Bytes} {r : IsoTpReassembler}
    (h : Assembling fed r) : WithinLength r := by
  rcases h with hidle | ⟨length, count, hgathered, hexpected, -, hless⟩
  · exact .inl hidle
  · exact .inr ⟨length, hexpected, hless, hgathered.length_le⟩

section Step

variable {fed : List Bytes} {r : IsoTpReassembler} {pci : UInt8} {rest : Bytes}

theorem assembling_reset (fed : List Bytes) (r : IsoTpReassembler) : Assembling fed r.reset :=
  .inl ⟨rfl, rfl⟩

theorem feedSingleFrame_of_incomplete (h : isIncomplete pci rest = true) :
    r.feedSingleFrame pci rest = (r, none) := by
  unfold isIncomplete at h
  unfold feedSingleFrame
  split at h
  · rename_i hlow
    rw [if_pos hlow]
    cases rest with
    | nil => rfl
    | cons length data => exact if_pos (of_decide_eq_true h)
  · rename_i hlow
    rw [if_neg hlow, if_pos (of_decide_eq_true h)]

theorem feedSingleFrame_of_complete (h : isIncomplete pci rest = false) :
    (r.feedSingleFrame pci rest).1 = r.reset := by
  unfold isIncomplete at h
  unfold feedSingleFrame
  split at h
  · rename_i hlow
    rw [if_pos hlow]
    cases rest with
    | nil => cases h
    | cons length data =>
        dsimp only
        rw [if_neg (of_decide_eq_false h)]
  · rename_i hlow
    rw [if_neg hlow, if_neg (of_decide_eq_false h)]

/-- Such a frame leaves the reassembler as it is, whatever its state. -/
theorem feed_of_ignored {frame : Bytes} (h : isIgnored frame = true) (r : IsoTpReassembler) :
    r.feed frame = (r, none) := by
  cases frame with
  | nil => rfl
  | cons pci rest =>
      unfold isIgnored at h
      unfold feed
      dsimp only at h ⊢
      by_cases hsingle : frameType pci = 0x0
      · rw [if_pos hsingle] at h ⊢
        exact feedSingleFrame_of_incomplete h
      rw [if_neg hsingle] at h ⊢
      by_cases hfirst : frameType pci = 0x1
      · rw [if_pos hfirst] at h ⊢
        obtain rfl := List.isEmpty_iff.mp h
        rfl
      rw [if_neg hfirst] at h ⊢
      rw [if_neg (of_decide_eq_true h)]

/-- What a frame leaves behind, and what it hands out. -/
structure Yields (fed : List Bytes) (result : IsoTpReassembler × Option Bytes) : Prop where
  state : Assembling fed result.1
  payload : ∀ payload, result.2 = some payload → Assembled fed payload

theorem Assembling.yields_none (h : Assembling fed r) : Yields fed (r, none) :=
  ⟨h, fun _ hpayload ↦ absurd hpayload (Option.some_ne_none _).symm⟩

theorem yields_deliver {length count : ℕ} (h : Gathered fed length count r.buffer)
    (hexpected : r.expectedLength = some length) (hnumber : r.nextSequence = (count + 1) % 16) :
    Yields fed (r.deliver length) := by
  unfold IsoTpReassembler.deliver
  split
  · rename_i hfull
    refine ⟨assembling_reset fed r, ?_⟩
    intro payload hpayload
    exact ⟨length, count, r.buffer, h, hfull, (Option.some.inj hpayload).symm⟩
  · rename_i hmore
    have hstate : Assembling fed r :=
      .inr ⟨length, count, h, hexpected, hnumber, not_le.mp hmore⟩
    exact hstate.yields_none

theorem Assembling.ignored (h : Assembling fed r) {frame : Bytes}
    (hframe : isIgnored frame = true) : Assembling (fed ++ [frame]) r := by
  rcases h with hidle | ⟨length, count, hgathered, hexpected, hnumber, hless⟩
  · exact .inl hidle
  · exact .inr ⟨length, count, hgathered.ignored hframe, hexpected, hnumber, hless⟩

theorem yields_firstFrame (fed : List Bytes) (r : IsoTpReassembler)
    (htype : frameType pci = 0x1) (low : UInt8) (data : Bytes) :
    Yields (fed ++ [pci :: low :: data]) (r.feedFirstFrame pci (low :: data)) := by
  rw [feedFirstFrame]
  split
  · exact (assembling_reset _ r).yields_none
  · exact yields_deliver (gathered_first htype low data) rfl rfl

theorem Assembling.yields_consecutiveFrame (h : Assembling fed r) (htype : frameType pci = 0x2)
    (rest : Bytes) : Yields (fed ++ [pci :: rest]) (r.feedConsecutiveFrame pci rest) := by
  unfold feedConsecutiveFrame
  rcases h with hidle | ⟨length, count, hgathered, hexpected, hsequence, -⟩
  · rw [hidle.1]
    have hstate : Assembling (fed ++ [pci :: rest]) r := .inl hidle
    exact hstate.yields_none
  rw [hexpected]
  dsimp only
  by_cases hnumber : lowNibble pci ≠ r.nextSequence
  · rw [if_pos hnumber]
    exact (assembling_reset _ r).yields_none
  rw [if_neg hnumber]
  by_cases hrest : rest = []
  · rw [if_pos hrest]
    exact (assembling_reset _ r).yields_none
  rw [if_neg hrest]
  have hmore : Gathered (fed ++ [pci :: rest]) length (count + 1) (r.extend rest).buffer :=
    hgathered.consecutive htype ((not_not.mp hnumber).trans hsequence) hrest
  have hnext : (r.extend rest).nextSequence = (count + 1 + 1) % 16 := by
    have hsucc : (r.extend rest).nextSequence = (r.nextSequence + 1) &&& 0x0F := rfl
    rw [hsucc, hsequence, and_0x0F]
    omega
  split
  · rename_i hless
    have hstate : Assembling (fed ++ [pci :: rest]) (r.extend rest).requestBlock := by
      refine .inr ⟨length, count + 1, ?_, ?_, ?_, ?_⟩
      · rwa [buffer_requestBlock]
      · rwa [expectedLength_requestBlock]
      · rwa [nextSequence_requestBlock]
      · rwa [buffer_requestBlock]
    exact hstate.yields_none
  · exact yields_deliver hmore hexpected hnext

/-- One frame: what a single frame hands out is no concern here. -/
theorem Assembling.feed (h : Assembling fed r) (frame : Bytes) :
    Assembling (fed ++ [frame]) (r.feed frame).1 ∧
      (isSingleFrame frame = false → Yields (fed ++ [frame]) (r.feed frame)) := by
  cases hignored : isIgnored frame with
  | true =>
      rw [feed_of_ignored hignored]
      have hstate := h.ignored hignored
      exact ⟨hstate, fun _ ↦ hstate.yields_none⟩
  | false =>
      cases frame with
      | nil => cases hignored
      | cons pci rest =>
          unfold isIgnored at hignored
          unfold IsoTpReassembler.feed
          dsimp only at hignored ⊢
          by_cases hsingle : frameType pci = 0x0
          · rw [if_pos hsingle] at hignored ⊢
            refine ⟨?_, fun hnot ↦ absurd hsingle (of_decide_eq_false hnot)⟩
            rw [feedSingleFrame_of_complete hignored]
            exact assembling_reset _ r
          rw [if_neg hsingle] at hignored ⊢
          by_cases hfirst : frameType pci = 0x1
          · rw [if_pos hfirst] at hignored ⊢
            cases rest with
            | nil => cases hignored
            | cons low data =>
                have hyields := yields_firstFrame fed r hfirst low data
                exact ⟨hyields.state, fun _ ↦ hyields⟩
          rw [if_neg hfirst] at hignored ⊢
          have hconsecutive : frameType pci = 0x2 := not_not.mp (of_decide_eq_false hignored)
          rw [if_pos hconsecutive]
          have hyields := h.yields_consecutiveFrame hconsecutive rest
          exact ⟨hyields.state, fun _ ↦ hyields⟩

end Step

/-! ## Runs -/

/-- Every payload that a frame other than a single frame completes is assembled from the frames up
to this one; `fed` came before the first of `frames`. -/
def Sound (fed frames : List Bytes) (outputs : List (Option Bytes)) : Prop :=
  ∀ i frame payload, frames[i]? = some frame → outputs[i]? = some (some payload) →
    isSingleFrame frame = false → Assembled (fed ++ frames.take (i + 1)) payload

theorem feedAll_of_assembling {fed : List Bytes} {r : IsoTpReassembler} (h : Assembling fed r)
    (frames : List Bytes) :
    ∃ last outputs, Checked.feedAll r frames = .ok (last, outputs) ∧
      outputs.length = frames.length ∧ Assembling (fed ++ frames) last ∧
      Sound fed frames outputs := by
  induction frames generalizing fed r with
  | nil =>
      refine ⟨r, [], rfl, rfl, by rwa [List.append_nil], ?_⟩
      intro i frame payload hframe
      cases hframe
  | cons frame frames ih =>
      obtain ⟨hstate, hyields⟩ := h.feed frame
      obtain ⟨last, outputs, hall, hlength, hlast, hsound⟩ := ih hstate
      refine ⟨last, (r.feed frame).2 :: outputs, ?_, ?_, ?_, ?_⟩
      · rw [Checked.feedAll, Checked.feed_eq]
        exact bind_eq_ok.mpr ⟨_, rfl, bind_eq_ok.mpr ⟨_, hall, rfl⟩⟩
      · rw [List.length_cons, List.length_cons, hlength]
      · rwa [List.append_assoc] at hlast
      · intro i f payload hf houtput hmulti
        cases i with
        | zero =>
            obtain rfl := Option.some.inj hf
            exact (hyields hmulti).payload payload (Option.some.inj houtput)
        | succ i =>
            rw [List.take_succ_cons]
            have hassembled := hsound i f payload hf houtput hmulti
            rwa [List.append_assoc] at hassembled

/-- The reassembler on any frames: nothing raises, the buffer stays shorter than the length it
waits for, which is at most 4095, and a payload of more than a single frame consists of the data
of one first frame and of the consecutive frames 1, 2, ... processed since then, with nothing else
processed in between. -/
theorem reassembler_sound (blockSize stmin : ℤ) (frames : List Bytes) :
    ∃ last outputs,
      Checked.feedAll { blockSize := blockSize, stmin := stmin } frames = .ok (last, outputs) ∧
        outputs.length = frames.length ∧ WithinLength last ∧ Sound [] frames outputs := by
  have hidle : Assembling [] { blockSize := blockSize, stmin := stmin } := .inl ⟨rfl, rfl⟩
  obtain ⟨last, outputs, hall, hlength, hlast, hsound⟩ := feedAll_of_assembling hidle frames
  exact ⟨last, outputs, hall, hlength, hlast.withinLength, hsound⟩

/-- A single frame cut short does not end a reception. -/
example : (Checked.feedAll {} [[0x10, 0x03, 1], [0x05, 9], [0x21, 2, 3]]).map Prod.snd =
    .ok [none, none, some [1, 2, 3]] := rfl

end VehicleOta.Can
