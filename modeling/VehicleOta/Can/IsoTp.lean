import VehicleOta.Python.Basics

/-!
# ISO-TP over CAN FD

`transport/can/isotp_adapter.py`, and the part of `UDSCanProgrammer.feed` in
`ecus/base/uds_can_programmer.py` that stands between the bus and the reassembler.
-/

namespace VehicleOta.Can

def maxCanFdData : ℕ := 64
def sfMaxPayload : ℕ := 62
def ffMaxPayload : ℕ := 62
def cfMaxPayload : ℕ := 63
def maxWaitFrames : ℕ := 8

def flowStatusContinue : ℕ := 0x0
def flowStatusWait : ℕ := 0x1
def flowStatusOverflow : ℕ := 0x2

/-! ## Frames -/

/-- The upper four bits of the first byte. -/
def frameType (pci : UInt8) : ℕ := pci.toNat >>> 4

def lowNibble (pci : UInt8) : ℕ := pci.toNat &&& 0x0F

/-- A first byte with these two nibbles. -/
def pciByte (type low : ℕ) : UInt8 := UInt8.ofNat ((type <<< 4) ||| low)

/-- `n & 0xFF` as a byte. -/
def lowByte (n : ℤ) : UInt8 := UInt8.ofNat (n % 256).toNat

def singleFrame (payload : Bytes) : Except PyError Bytes :=
  if sfMaxPayload < payload.length then .error (.valueError "Single frame payload too large")
  else if payload.length ≤ 0x0F then .ok (pciByte 0x0 payload.length :: payload)
  else .ok (0x00 :: UInt8.ofNat payload.length :: payload)

def firstFrame (totalLength : ℕ) (payload : Bytes) : Except PyError Bytes :=
  if 0xFFF < totalLength then .error (.valueError "ISO-TP payload too large for simple adapter")
  else .ok (pciByte 0x1 ((totalLength >>> 8) &&& 0x0F) :: UInt8.ofNat (totalLength &&& 0xFF) ::
    payload)

def consecutiveFrame (sequence : ℕ) (payload : Bytes) : Bytes :=
  pciByte 0x2 (sequence &&& 0x0F) :: payload

def buildFlowControl (flowStatus : ℕ) (blockSize stmin : ℤ) : Bytes :=
  [pciByte 0x3 (flowStatus &&& 0x0F), lowByte blockSize, lowByte stmin]

/-- Status, block size and the separation time in microseconds. -/
def parseFlowControl (frame : Bytes) : Option (ℕ × ℕ × ℕ) :=
  match frame with
  | pci :: blockSize :: stmin :: _ =>
      if frameType pci ≠ 0x3 then none
      else
        let micros :=
          if stmin.toNat ≤ 0x7F then 1000 * stmin.toNat
          else if 0xF1 ≤ stmin.toNat ∧ stmin.toNat ≤ 0xF9 then 100 * (stmin.toNat - 0xF0)
          else 0
        some (lowNibble pci, blockSize.toNat, micros)
  | _ => none

/-! ## Segmentation -/

/-- The frames a generator or a call of `send` gives away, and the exception that ends it. -/
structure Emitted where
  frames : List Bytes := []
  error : Option PyError := none

/-- The loop of `segment` over the remaining bytes. -/
def segmentLoop (remaining : Bytes) (sequence : ℕ) : List Bytes :=
  if remaining = [] then []
  else
    consecutiveFrame sequence (remaining.take cfMaxPayload) ::
      segmentLoop (remaining.drop cfMaxPayload) ((sequence + 1) % 16)
termination_by remaining.length
decreasing_by
  have := List.length_pos_iff.mpr ‹¬ remaining = []›
  rw [List.length_drop, cfMaxPayload]
  omega

/-- `IsoTpAdapter.segment` -/
def segment (payload : Bytes) : Emitted :=
  if payload.length ≤ sfMaxPayload then
    match singleFrame payload with
    | .error e => { error := some e }
    | .ok frame => { frames := [frame] }
  else
    match firstFrame payload.length (payload.take ffMaxPayload) with
    | .error e => { error := some e }
    | .ok first => { frames := first :: segmentLoop (payload.drop ffMaxPayload) 1 }

/-! ## The sender -/

/-- Where `send` stands: in `_wait_for_flow_control`, in front of the next consecutive frame,
or behind its end. -/
inductive Sender where
  | waiting (remaining : Bytes) (sequence waitCount : ℕ)
  | ready (remaining : Bytes) (sequence blockCounter blockSize : ℕ)
  | finished
  | raised (error : PyError)

/-- `_wrap_frame` in front of `bus.send`. -/
def wrapFrame (payload : Bytes) : Except PyError Bytes :=
  if maxCanFdData < payload.length then .error (.valueError "Frame exceeds CAN FD max length")
  else .ok payload

/-- The head of the loop of `send`. -/
def Sender.continueLoop (remaining : Bytes) (sequence blockCounter blockSize : ℕ) : Sender :=
  if remaining = [] then .finished
  else if blockSize ≠ 0 ∧ blockSize ≤ blockCounter then .waiting remaining sequence 0
  else .ready remaining sequence blockCounter blockSize

/-- A frame on its way to the bus, and where `send` stands behind it. -/
def transmit (frame : Except PyError Bytes) (next : Sender) : Option Bytes × Sender :=
  match frame.bind wrapFrame with
  | .error e => (none, .raised e)
  | .ok frame => (some frame, next)

/-- `IsoTpAdapter.send` up to its first wait. -/
def startSend (payload : Bytes) : Option Bytes × Sender :=
  if payload.length ≤ sfMaxPayload then transmit (singleFrame payload) .finished
  else
    transmit (firstFrame payload.length (payload.take ffMaxPayload))
      (.waiting (payload.drop ffMaxPayload) 1 0)

/-- The body of the loop of `send`. -/
def sendConsecutive (remaining : Bytes) (sequence blockCounter blockSize : ℕ) :
    Option Bytes × Sender :=
  transmit (.ok (consecutiveFrame sequence (remaining.take cfMaxPayload)))
    (.continueLoop (remaining.drop cfMaxPayload) ((sequence + 1) % 16) (blockCounter + 1) blockSize)

/-- A frame received in `_wait_for_flow_control`. -/
def receiveFlowControl (frame : Bytes) (remaining : Bytes) (sequence waitCount : ℕ) : Sender :=
  match parseFlowControl frame with
  | none => .waiting remaining sequence waitCount
  | some (flowStatus, blockSize, _) =>
      if flowStatus = flowStatusWait then
        if maxWaitFrames < waitCount + 1 then
          .raised (.timeoutError "ISO-TP receiver stayed in WAIT too long")
        else .waiting remaining sequence (waitCount + 1)
      else if flowStatus = flowStatusOverflow then
        .raised (.runtimeError "ISO-TP receiver reported overflow")
      else if flowStatus ≠ flowStatusContinue then
        .raised (.runtimeError
          s!"Unsupported ISO-TP flow status 0x{(String.ofList (Nat.toDigits 16 flowStatus)).toUpper}")
      else .continueLoop remaining sequence 0 blockSize

/-! ## The reassembler -/

structure IsoTpReassembler where
  expectedLength : Option ℕ := none
  buffer : Bytes := []
  nextSequence : ℕ := 1
  blockSize : ℤ := 0
  stmin : ℤ := 0
  framesUntilNextFlowControl : ℤ := 0
  pendingFlowControl : Option Bytes := none

namespace IsoTpReassembler

def reset (r : IsoTpReassembler) : IsoTpReassembler :=
  { blockSize := r.blockSize, stmin := r.stmin }

/-- The flow control frame the reassembler asks for the next block with. -/
def flowControl (r : IsoTpReassembler) : Bytes :=
  buildFlowControl flowStatusContinue r.blockSize r.stmin

/-- The end of a frame: the payload, if it is complete. -/
def deliver (length : ℕ) (r : IsoTpReassembler) : IsoTpReassembler × Option Bytes :=
  if length ≤ r.buffer.length then (r.reset, some (r.buffer.take length)) else (r, none)

def feedSingleFrame (pci : UInt8) (rest : Bytes) (r : IsoTpReassembler) :
    IsoTpReassembler × Option Bytes :=
  if lowNibble pci = 0 then
    match rest with
    | [] => (r, none)
    | length :: data =>
        if data.length < length.toNat then (r, none)
        else (r.reset, some (data.take length.toNat))
  else if rest.length < lowNibble pci then (r, none)
  else (r.reset, some (rest.take (lowNibble pci)))

/-- The assignments of a first frame. -/
def begin (length : ℕ) (data : Bytes) (r : IsoTpReassembler) : IsoTpReassembler :=
  { r with
    expectedLength := some length
    buffer := data
    nextSequence := 1
    framesUntilNextFlowControl := r.blockSize
    pendingFlowControl := some r.flowControl }

def feedFirstFrame (pci : UInt8) (rest : Bytes) (r : IsoTpReassembler) :
    IsoTpReassembler × Option Bytes :=
  match rest with
  | [] => (r, none)
  | low :: data =>
      let length := (lowNibble pci <<< 8) ||| low.toNat
      if length = 0 then (r.reset, none) else (r.begin length data).deliver length

/-- The buffer and the counters behind an accepted consecutive frame. -/
def extend (data : Bytes) (r : IsoTpReassembler) : IsoTpReassembler :=
  { r with
    buffer := r.buffer ++ data
    nextSequence := (r.nextSequence + 1) &&& 0x0F
    framesUntilNextFlowControl :=
      if r.blockSize ≠ 0 then r.framesUntilNextFlowControl - 1 else r.framesUntilNextFlowControl }

/-- More frames are needed; at the end of a block the next one is asked for. -/
def requestBlock (r : IsoTpReassembler) : IsoTpReassembler :=
  if r.blockSize ≠ 0 ∧ r.framesUntilNextFlowControl = 0 then
    { r with
      pendingFlowControl := some r.flowControl
      framesUntilNextFlowControl := r.blockSize }
  else r

def feedConsecutiveFrame (pci : UInt8) (rest : Bytes) (r : IsoTpReassembler) :
    IsoTpReassembler × Option Bytes :=
  match r.expectedLength with
  | none => (r, none)
  | some length =>
      if lowNibble pci ≠ r.nextSequence then (r.reset, none)
      else if rest = [] then (r.reset, none)
      else if (r.extend rest).buffer.length < length then ((r.extend rest).requestBlock, none)
      else (r.extend rest).deliver length

def feed (frame : Bytes) (r : IsoTpReassembler) : IsoTpReassembler × Option Bytes :=
  match frame with
  | [] => (r, none)
  | pci :: rest =>
      if frameType pci = 0x0 then r.feedSingleFrame pci rest
      else if frameType pci = 0x1 then r.feedFirstFrame pci rest
      else if frameType pci = 0x2 then r.feedConsecutiveFrame pci rest
      else (r, none)

def popFlowControlFrame (r : IsoTpReassembler) : IsoTpReassembler × Option Bytes :=
  ({ r with pendingFlowControl := none }, r.pendingFlowControl)

end IsoTpReassembler

/-! ## The receiver -/

/-- `_is_isotp_candidate` -/
def isIsotpCandidate (frame : Bytes) : Bool :=
  match frame with
  | [] => false
  | pci :: rest =>
      if frameType pci = 0x0 then
        if lowNibble pci = 0 then
          match rest with
          | [] => false
          | length :: data => length.toNat ≤ data.length
        else lowNibble pci ≤ rest.length
      else frameType pci = 0x1 ∨ frameType pci = 0x2

/-- What `UDSCanProgrammer.feed` does with a frame: the flow control it sends and the payload
it hands on. -/
structure Received where
  reassembler : IsoTpReassembler
  flowControl : Option Bytes := none
  payload : Option Bytes := none

def receiveFrame (frame : Bytes) (r : IsoTpReassembler) : Received :=
  if ¬ isIsotpCandidate frame then { reassembler := r }
  else
    let fed := r.feed frame
    let popped := fed.1.popFlowControlFrame
    { reassembler := popped.1, flowControl := popped.2, payload := fed.2 }

end VehicleOta.Can
