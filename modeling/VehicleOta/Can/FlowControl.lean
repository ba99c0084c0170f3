import VehicleOta.Can.RoundTrip

/-!
# Flow control in lock-step

`IsoTpAdapter.send` and the ECU's receiver on the two directions of a bus, with every
interleaving of their steps.  Both count blocks, the sender sent frames and remaining bytes, the
receiver accepted frames and buffered bytes.
-/

namespace VehicleOta.Can

open BlockLogic TraceLogic IsoTpReassembler

/-! ## The system -/

/-- The sender, the frames on their way in the two directions, and the receiver with the
payloads it handed on. -/
structure Link where
  sender : Sender
  forward : List Bytes
  backward : List Bytes
  reassembler : IsoTpReassembler
  delivered : List Bytes

inductive Move where
  | send
  | wait
  | receive

namespace Link

/-- `send` behind its first frame. -/
def start (payload : Bytes) (r : IsoTpReassembler) : Link where
  sender := (startSend payload).2
  forward := (startSend payload).1.toList
  backward := []
  reassembler := r
  delivered := []

/-- The sender sends the next consecutive frame. -/
def sendNext? (l : Link) : Option Link :=
  match l.sender with
  | .ready remaining sequence blockCounter blockSize =>
      let sent := sendConsecutive remaining sequence blockCounter blockSize
      some { l with sender := sent.2, forward := l.forward ++ sent.1.toList }
  | _ => none

/-- The waiting sender takes a frame. -/
def takeFlowControl? (l : Link) : Option Link :=
  match l.sender, l.backward with
  | .waiting remaining sequence waitCount, frame :: backward =>
      some { l with
        sender := receiveFlowControl frame remaining sequence waitCount
        backward }
  | _, _ => none

/-- The receiver takes a frame. -/
def takeFrame? (l : Link) : Option Link :=
  match l.forward with
  | frame :: forward =>
      let received := receiveFrame frame l.reassembler
      some { l with
        forward
        reassembler := received.reassembler
        backward := l.backward ++ received.flowControl.toList
        delivered := l.delivered ++ received.payload.toList }
  | [] => none

/-- `none` where there is nothing to send or to take. -/
def step? (l : Link) : Move → Option Link
  | .send => l.sendNext?
  | .wait => l.takeFlowControl?
  | .receive => l.takeFrame?

def Reachable (first l : Link) : Prop :=
  Relation.ReflTransGen (fun a b ↦ ∃ move, step? a move = some b) first l

end Link

/-- A frame taken by the receiver, as a step that yields the flow control and the payload. -/
def receiveStep (r : IsoTpReassembler) (frame : Bytes) :
    IsoTpReassembler × Option Bytes × Option Bytes :=
  let received := receiveFrame frame r
  (received.reassembler, received.flowControl, received.payload)

/-- The flow control frames that `frames` make the receiver send. -/
def flowControlsFor (r : IsoTpReassembler) (frames : List Bytes) : List Bytes :=
  (run receiveStep r frames).2.flatMap fun e ↦ e.1.toList

def payloadsFor (r : IsoTpReassembler) (frames : List Bytes) : List Bytes :=
  (run receiveStep r frames).2.flatMap fun e ↦ e.2.toList

theorem flowControlsFor_cons (r : IsoTpReassembler) (frame : Bytes) (frames : List Bytes) :
    flowControlsFor r (frame :: frames) =
      (receiveFrame frame r).flowControl.toList ++
        flowControlsFor (receiveFrame frame r).reassembler frames := by
  rw [flowControlsFor, run_cons]
  rfl

theorem flowControlsFor_concat (r : IsoTpReassembler) (frames : List Bytes) (frame : Bytes) :
    flowControlsFor r (frames ++ [frame]) =
      flowControlsFor r frames ++
        (receiveFrame frame (run receiveStep r frames).1).flowControl.toList := by
  rw [flowControlsFor, run_concat, List.flatMap_append, List.flatMap_singleton]
  rfl

theorem payloadsFor_concat (r : IsoTpReassembler) (frames : List Bytes) (frame : Bytes) :
    payloadsFor r (frames ++ [frame]) =
      payloadsFor r frames ++ (receiveFrame frame (run receiveStep r frames).1).payload.toList := by
  rw [payloadsFor, run_concat, List.flatMap_append, List.flatMap_singleton]
  rfl

/-! ## The receiver -/

theorem isIsotpCandidate_firstFrameOf (payload : Bytes) :
    isIsotpCandidate (firstFrameOf payload) := by
  have hlow : (payload.length >>> 8) &&& 0x0F < 16 := by
    rw [and_0x0F]
    exact Nat.mod_lt _ (by decide)
  rw [firstFrameOf, isIsotpCandidate, frameType_pciByte (by decide) hlow]
  rfl

theorem isIsotpCandidate_consecutiveFrameOf (payload : Bytes) (i : ℕ) :
    isIsotpCandidate (consecutiveFrameOf payload i) := by
  have hlow : (i + 1) % 16 &&& 0x0F < 16 := by
    rw [and_0x0F]
    exact Nat.mod_lt _ (by decide)
  rw [consecutiveFrameOf, consecutiveFrame]
  unfold isIsotpCandidate
  dsimp only
  rw [frameType_pciByte (by decide) hlow]
  rfl

theorem receiveFrame_of_candidate {frame : Bytes} (h : isIsotpCandidate frame)
    (r : IsoTpReassembler) :
    receiveFrame frame r =
      { reassembler := { (r.feed frame).1 with pendingFlowControl := none }
        flowControl := (r.feed frame).1.pendingFlowControl
        payload := (r.feed frame).2 } := by
  rw [receiveFrame, if_neg (not_not.mpr h)]
  rfl

/-- The receiver behind the first frame and `k` consecutive frames: the flow control is sent, and
the frames left until the next one complete `k` to a multiple of the block size. -/
structure Counting (payload : Bytes) (blockSize : ℕ) (k : ℕ) (r : IsoTpReassembler) : Prop where
  receiving : Receiving payload (List.range k) k r
  size : r.blockSize = blockSize
  left : blockSize ≠ 0 → r.framesUntilNextFlowControl = (blockSize - k % blockSize : ℕ)
  popped : r.pendingFlowControl = none

section Receiver

variable {payload : Bytes} {blockSize k : ℕ} {r : IsoTpReassembler}

theorem Counting.of_begin (hr : r.blockSize = blockSize) :
    Counting payload blockSize 0
      { r.begin payload.length (payload.take ffMaxPayload) with pendingFlowControl := none } where
  receiving := ⟨rfl, by simp [begin], rfl⟩
  size := hr
  left _ := by simpa [begin] using hr
  popped := rfl

theorem receiveFrame_first (hlong : sfMaxPayload < payload.length)
    (hlength : payload.length ≤ 0xFFF) (r : IsoTpReassembler) :
    receiveFrame (firstFrameOf payload) r =
      { reassembler := { r.begin payload.length (payload.take ffMaxPayload) with
          pendingFlowControl := none }
        flowControl := some r.flowControl } := by
  rw [receiveFrame_of_candidate (isIsotpCandidate_firstFrameOf payload),
    feed_firstFrameOf hlong hlength]
  rfl

/-- Either `k` ends a block and the next number starts one, or the remainder grows. -/
theorem succ_dvd_cases {n : ℕ} (hn : n ≠ 0) (k : ℕ) :
    n ∣ k + 1 ∧ k % n + 1 = n ∨ ¬ n ∣ k + 1 ∧ (k + 1) % n = k % n + 1 := by
  have hmod := Nat.mod_lt k (Nat.pos_of_ne_zero hn)
  by_cases hlast : k % n + 1 = n
  · refine Or.inl ⟨⟨k / n + 1, ?_⟩, hlast⟩
    have := Nat.div_add_mod k n
    rw [Nat.mul_add]
    omega
  · have hsucc : (k + 1) % n = k % n + 1 := by
      rw [← Nat.mod_add_mod, Nat.mod_eq_of_lt (by omega)]
    exact Or.inr ⟨fun hdvd ↦ absurd (Nat.mod_eq_zero_of_dvd hdvd) (by omega), hsucc⟩

/-- The flow control behind consecutive frame number `k`, counted from one. -/
def asksAt (blockSize count k : ℕ) : Prop := blockSize ≠ 0 ∧ blockSize ∣ k ∧ k < count

instance (blockSize count k : ℕ) : Decidable (asksAt blockSize count k) := by
  unfold asksAt
  infer_instance

theorem Counting.receive (h : Counting payload blockSize k r)
    (hlong : sfMaxPayload < payload.length) (hk : k + 1 < tailCount payload) :
    Counting payload blockSize (k + 1) (receiveFrame (consecutiveFrameOf payload k) r).reassembler ∧
      (receiveFrame (consecutiveFrameOf payload k) r).reassembler.flowControl = r.flowControl ∧
      (receiveFrame (consecutiveFrameOf payload k) r).flowControl =
        (if asksAt blockSize (tailCount payload) (k + 1) then some r.flowControl else none) ∧
      (receiveFrame (consecutiveFrameOf payload k) r).payload = none := by
  have hfeed := h.receiving.feed_more rfl (by omega) (by
    rw [← List.range_succ]
    exact length_takenBytes_range hlong hk)
  have hnext := h.receiving.extend (i := k) rfl
  rw [← List.range_succ] at hnext
  rw [receiveFrame_of_candidate (isIsotpCandidate_consecutiveFrameOf payload k), hfeed]
  have hextend : (r.extend (tailBlock payload k)).blockSize = blockSize := h.size
  have hflow : IsoTpReassembler.flowControl
      { (r.extend (tailBlock payload k)).requestBlock with pendingFlowControl := none } =
        r.flowControl := by
    unfold requestBlock
    split <;> rfl
  have hreceiving : Receiving payload (List.range (k + 1)) (k + 1)
      { (r.extend (tailBlock payload k)).requestBlock with pendingFlowControl := none } :=
    ⟨hnext.expectedLength, hnext.buffer, hnext.nextSequence⟩
  by_cases hzero : blockSize = 0
  · -- without blocks nothing is counted
    have hsame : (r.extend (tailBlock payload k)).requestBlock = r.extend (tailBlock payload k) := by
      rw [requestBlock, if_neg]
      simp [hextend, hzero]
    refine ⟨⟨hreceiving, ?_, fun hne ↦ absurd hzero hne, rfl⟩, hflow, ?_, rfl⟩
    · rw [hsame]
      exact hextend
    · rw [hsame, if_neg (fun hasks ↦ hasks.1 hzero)]
      exact h.popped
  have hcount : (r.extend (tailBlock payload k)).framesUntilNextFlowControl =
      (blockSize - k % blockSize : ℕ) - 1 := by
    have : (r.blockSize ≠ 0) := by simpa [h.size] using hzero
    rw [extend]
    dsimp only
    rw [if_pos this, h.left hzero]
  rcases succ_dvd_cases hzero k with ⟨hend, hlast⟩ | ⟨hend, hmod⟩
  · have hask : (r.extend (tailBlock payload k)).requestBlock =
        { r.extend (tailBlock payload k) with
          pendingFlowControl := some r.flowControl
          framesUntilNextFlowControl := r.blockSize } := by
      rw [requestBlock, if_pos ⟨by simpa [hextend] using hzero, by rw [hcount]; omega⟩]
      rfl
    refine ⟨⟨hreceiving, ?_, fun _ ↦ ?_, rfl⟩, hflow, ?_, rfl⟩
    · rw [hask]
      exact hextend
    · rw [hask]
      dsimp only
      rw [h.size, Nat.mod_eq_zero_of_dvd hend, Nat.sub_zero]
    · rw [hask, if_pos ⟨hzero, hend, hk⟩]
  · have hlt := Nat.mod_lt (k + 1) (Nat.pos_of_ne_zero hzero)
    have hnot : (r.extend (tailBlock payload k)).requestBlock = r.extend (tailBlock payload k) := by
      rw [requestBlock, if_neg]
      rintro ⟨-, hleft⟩
      rw [hcount] at hleft
      omega
    refine ⟨⟨hreceiving, ?_, fun _ ↦ ?_, rfl⟩, hflow, ?_, rfl⟩
    · rw [hnot]
      exact hextend
    · rw [hnot]
      dsimp only
      rw [hcount, hmod]
      omega
    · rw [hnot, if_neg (fun hasks ↦ hend hasks.2.1)]
      exact h.popped

theorem Counting.receive_last (h : Counting payload blockSize k r)
    (hk : k + 1 = tailCount payload) :
    (receiveFrame (consecutiveFrameOf payload k) r).flowControl = none ∧
      (receiveFrame (consecutiveFrameOf payload k) r).payload = some payload := by
  have hall : takenBytes payload (List.range k ++ [k]) = payload := by
    have := takenBytes_all payload
    rwa [← hk, List.range_succ] at this
  have hfeed := h.receiving.feed_last [] rfl (by omega) (by rw [hall]; simp)
  rw [List.append_nil, List.append_nil, hall, List.take_length] at hfeed
  rw [receiveFrame_of_candidate (isIsotpCandidate_consecutiveFrameOf payload k), hfeed]
  exact ⟨rfl, rfl⟩

/-- Everything the receiver does with the first frame and `k` consecutive frames. -/
theorem counting_run (hlong : sfMaxPayload < payload.length) (hlength : payload.length ≤ 0xFFF)
    (hr : r.blockSize = blockSize) (hk : k < tailCount payload) :
    Counting payload blockSize k (run receiveStep r (framesOf payload k)).1 ∧
      (run receiveStep r (framesOf payload k)).1.flowControl = r.flowControl ∧
      payloadsFor r (framesOf payload k) = [] := by
  induction k with
  | zero =>
      have hfirst : run receiveStep r (framesOf payload 0) =
          ({ r.begin payload.length (payload.take ffMaxPayload) with pendingFlowControl := none },
            [(some r.flowControl, none)]) := by
        rw [framesOf, List.range_zero, List.map_nil, run_cons, receiveStep,
          receiveFrame_first hlong hlength]
        rfl
      rw [payloadsFor, hfirst]
      exact ⟨.of_begin hr, rfl, rfl⟩
  | succ k ih =>
      obtain ⟨hcounting, hflow, hpayloads⟩ := ih (by omega)
      obtain ⟨hnext, hsame, -, hnone⟩ := hcounting.receive hlong hk
      have hframes : framesOf payload (k + 1) =
          framesOf payload k ++ [consecutiveFrameOf payload k] := by
        simp [framesOf, List.range_succ]
      rw [hframes, payloadsFor_concat, hpayloads, hnone, run_concat]
      exact ⟨hnext, hsame.trans hflow, rfl⟩

end Receiver

/-! ## The sender -/

/-- Where the sender stands when the first frame and `j` consecutive frames are sent. -/
def SenderAt (payload : Bytes) (blockSize j : ℕ) : Sender → Prop
  | .waiting remaining sequence _ =>
      j < tailCount payload ∧ blockSize ∣ j ∧
        remaining = (tailOf payload).drop (j * cfMaxPayload) ∧ sequence = (j + 1) % 16
  | .ready remaining sequence blockCounter size =>
      j < tailCount payload ∧ size = blockSize ∧ blockCounter = j % blockSize ∧
        remaining = (tailOf payload).drop (j * cfMaxPayload) ∧ sequence = (j + 1) % 16
  | .finished => j = tailCount payload
  | .raised _ => False

def Sender.isWaiting : Sender → Bool
  | .waiting _ _ _ => true
  | _ => false

section Sender

variable {payload : Bytes} {blockSize j : ℕ}

theorem drop_tailOf_eq_nil_iff (payload : Bytes) (j : ℕ) :
    (tailOf payload).drop (j * cfMaxPayload) = [] ↔ tailCount payload ≤ j := by
  rw [List.drop_eq_nil_iff, ← not_lt, ← not_lt]
  exact (lt_blockCount_iff (by decide)).not.symm

theorem transmit_of_fits {frame : Bytes} (h : frame.length ≤ maxCanFdData) (next : Sender) :
    transmit (.ok frame) next = (some frame, next) := by
  have hwrap : (Except.ok frame : Except PyError Bytes).bind wrapFrame = .ok frame := by
    rw [Except.bind, wrapFrame, if_neg (not_lt.mpr h)]
  rw [transmit, hwrap]

theorem sendConsecutive_eq (payload : Bytes) (j blockCounter size : ℕ) :
    sendConsecutive ((tailOf payload).drop (j * cfMaxPayload)) ((j + 1) % 16) blockCounter size =
      (some (consecutiveFrameOf payload j),
        .continueLoop ((tailOf payload).drop ((j + 1) * cfMaxPayload)) ((j + 1 + 1) % 16)
          (blockCounter + 1) size) := by
  rw [sendConsecutive, List.drop_drop, Nat.mod_add_mod, ← Nat.succ_mul]
  exact transmit_of_fits (length_consecutiveFrameOf payload j) _

theorem startSend_eq (hlong : sfMaxPayload < payload.length) (hlength : payload.length ≤ 0xFFF) :
    startSend payload = (some (firstFrameOf payload), .waiting (tailOf payload) 1 0) := by
  rw [startSend, if_neg (not_le.mpr hlong), firstFrame, if_neg (not_lt.mpr hlength)]
  exact transmit_of_fits (length_firstFrameOf payload) _

/-- Behind a sent frame the sender waits where the receiver asks. -/
theorem SenderAt.sent (hj : j < tailCount payload) :
    SenderAt payload blockSize (j + 1)
        (.continueLoop ((tailOf payload).drop ((j + 1) * cfMaxPayload)) ((j + 1 + 1) % 16)
          (j % blockSize + 1) blockSize) ∧
      ((Sender.continueLoop ((tailOf payload).drop ((j + 1) * cfMaxPayload)) ((j + 1 + 1) % 16)
        (j % blockSize + 1) blockSize).isWaiting ↔ asksAt blockSize (tailCount payload) (j + 1)) := by
  unfold Sender.continueLoop
  by_cases hlast : tailCount payload ≤ j + 1
  · rw [if_pos ((drop_tailOf_eq_nil_iff payload (j + 1)).mpr hlast)]
    refine ⟨le_antisymm hj hlast, iff_of_false (by simp [Sender.isWaiting]) ?_⟩
    exact fun hasks ↦ absurd hasks.2.2 (not_lt.mpr hlast)
  rw [if_neg (mt (drop_tailOf_eq_nil_iff payload (j + 1)).mp hlast)]
  have hmore := not_le.mp hlast
  by_cases hzero : blockSize = 0
  · rw [if_neg (fun h ↦ h.1 hzero)]
    refine ⟨⟨hmore, rfl, by simp [hzero], rfl, rfl⟩, iff_of_false (by simp [Sender.isWaiting]) ?_⟩
    exact fun hasks ↦ hasks.1 hzero
  rcases succ_dvd_cases hzero j with ⟨hend, hfull⟩ | ⟨hend, hmod⟩
  · rw [if_pos ⟨hzero, hfull.ge⟩]
    exact ⟨⟨hmore, hend, rfl, rfl⟩, iff_of_true rfl ⟨hzero, hend, hmore⟩⟩
  · have hlt := Nat.mod_lt (j + 1) (Nat.pos_of_ne_zero hzero)
    rw [if_neg (by omega)]
    exact ⟨⟨hmore, rfl, hmod.symm, rfl, rfl⟩,
      iff_of_false (by simp [Sender.isWaiting]) fun hasks ↦ hend hasks.2.1⟩

theorem parseFlowControl_flowControl {r : IsoTpReassembler} (hr : r.blockSize = blockSize)
    (hsize : blockSize ≤ 255) :
    ∃ micros, parseFlowControl r.flowControl = some (flowStatusContinue, blockSize, micros) := by
  have hbyte : (lowByte (blockSize : ℤ)).toNat = blockSize := by
    rw [lowByte, UInt8.toNat_ofNat']
    omega
  rw [flowControl, buildFlowControl, hr]
  unfold parseFlowControl
  dsimp only
  rw [if_neg (by decide), hbyte]
  exact ⟨_, rfl⟩

theorem receiveFlowControl_eq {r : IsoTpReassembler} (hr : r.blockSize = blockSize)
    (hsize : blockSize ≤ 255) (remaining : Bytes) (sequence waitCount : ℕ) :
    receiveFlowControl r.flowControl remaining sequence waitCount =
      .continueLoop remaining sequence 0 blockSize := by
  obtain ⟨micros, hparse⟩ := parseFlowControl_flowControl hr hsize
  rw [receiveFlowControl, hparse]
  rfl

/-- A flow control lets the sender go on with the next block. -/
theorem SenderAt.resumed (hj : j < tailCount payload) (hblock : blockSize ∣ j) :
    SenderAt payload blockSize j
        (.continueLoop ((tailOf payload).drop (j * cfMaxPayload)) ((j + 1) % 16) 0 blockSize) ∧
      ¬ (Sender.continueLoop ((tailOf payload).drop (j * cfMaxPayload)) ((j + 1) % 16) 0
        blockSize).isWaiting := by
  unfold Sender.continueLoop
  rw [if_neg (mt (drop_tailOf_eq_nil_iff payload j).mp (not_le.mpr hj)), if_neg (by omega)]
  exact ⟨⟨hj, rfl, (Nat.mod_eq_zero_of_dvd hblock).symm, rfl, rfl⟩, by simp [Sender.isWaiting]⟩

end Sender

/-! ## Lock-step -/

/-- The first frame and `j` consecutive frames are sent, the receiver took the frames `past`, and
a flow control is on its way or will be asked for exactly if the sender waits for it. -/
structure InStep (payload : Bytes) (blockSize : ℕ) (r : IsoTpReassembler) (j : ℕ)
    (past : List Bytes) (l : Link) : Prop where
  sender : SenderAt payload blockSize j l.sender
  sent : past ++ l.forward = framesOf payload j
  reassembler : l.reassembler = (run receiveStep r past).1
  delivered : l.delivered = payloadsFor r past
  flow : l.backward ++ flowControlsFor l.reassembler l.forward =
    if l.sender.isWaiting then [r.flowControl] else []

section InStep

variable {payload : Bytes} {blockSize j : ℕ} {past : List Bytes} {r : IsoTpReassembler} {l : Link}

theorem InStep.le (h : InStep payload blockSize r j past l) : j ≤ tailCount payload := by
  have hsender := h.sender
  cases hl : l.sender with
  | waiting remaining sequence waitCount => rw [hl] at hsender; exact hsender.1.le
  | ready remaining sequence blockCounter size => rw [hl] at hsender; exact hsender.1.le
  | finished => rw [hl] at hsender; exact le_of_eq hsender
  | raised e => rw [hl] at hsender; exact absurd hsender not_false

theorem InStep.of_start (hlong : sfMaxPayload < payload.length) (hlength : payload.length ≤ 0xFFF)
    (r : IsoTpReassembler) :
    InStep payload blockSize r 0 [] (Link.start payload r) := by
  rw [Link.start, startSend_eq hlong hlength]
  refine ⟨⟨tailCount_pos hlong, Nat.dvd_zero _, by simp, rfl⟩, ?_, rfl, rfl, ?_⟩
  · rfl
  · dsimp only [Option.toList]
    rw [flowControlsFor_cons, receiveFrame_first hlong hlength]
    rfl

theorem InStep.send (h : InStep payload blockSize r j past l) (hr : r.blockSize = blockSize)
    (hlong : sfMaxPayload < payload.length) (hlength : payload.length ≤ 0xFFF) {l' : Link}
    (hstep : l.sendNext? = some l') : InStep payload blockSize r (j + 1) past l' := by
  unfold Link.sendNext? at hstep
  split at hstep
  case h_2 => simp at hstep
  rename_i remaining sequence blockCounter size hl
  have hsender := h.sender
  rw [hl] at hsender
  obtain ⟨hj, rfl, rfl, rfl, rfl⟩ := hsender
  rw [sendConsecutive_eq] at hstep
  obtain rfl := Option.some.inj hstep
  obtain ⟨hat, hwaits⟩ := @SenderAt.sent payload size j hj
  have hstate : (run receiveStep l.reassembler l.forward).1 =
      (run receiveStep r (framesOf payload j)).1 := by
    rw [h.reassembler, ← h.sent, run_append]
  obtain ⟨hcounting, hsame, -⟩ := counting_run hlong hlength hr hj
  refine ⟨hat, ?_, h.reassembler, h.delivered, ?_⟩
  · rw [← List.append_assoc, h.sent]
    simp [framesOf, List.range_succ]
  · have hflow := h.flow
    rw [hl, if_neg (by simp [Sender.isWaiting])] at hflow
    dsimp only [Option.toList]
    rw [flowControlsFor_concat, ← List.append_assoc, hflow, hstate, List.nil_append]
    rcases Nat.lt_or_ge (j + 1) (tailCount payload) with hmore | hlast
    · obtain ⟨-, -, hasked, -⟩ := hcounting.receive hlong hmore
      rw [hasked, hsame]
      by_cases hasks : asksAt size (tailCount payload) (j + 1)
      · rw [if_pos hasks, if_pos (hwaits.mpr hasks)]
        rfl
      · rw [if_neg hasks, if_neg (mt hwaits.mp hasks)]
        rfl
    · obtain ⟨hnone, -⟩ := hcounting.receive_last (by omega)
      rw [hnone, if_neg (fun hw ↦ absurd (hwaits.mp hw).2.2 (not_lt.mpr hlast))]
      rfl

theorem InStep.wait (h : InStep payload blockSize r j past l) (hr : r.blockSize = blockSize)
    (hsize : blockSize ≤ 255) {l' : Link} (hstep : l.takeFlowControl? = some l') :
    InStep payload blockSize r j past l' := by
  unfold Link.takeFlowControl? at hstep
  split at hstep
  case h_2 => simp at hstep
  rename_i remaining sequence waitCount frame backward hl hbackward
  have hsender := h.sender
  rw [hl] at hsender
  obtain ⟨hj, hblock, rfl, rfl⟩ := hsender
  have hflow := h.flow
  have hwaits : l.sender.isWaiting := by rw [hl]; rfl
  rw [hbackward, if_pos hwaits, List.cons_append, List.cons.injEq] at hflow
  obtain ⟨rfl, hrest⟩ := hflow
  rw [receiveFlowControl_eq hr hsize] at hstep
  obtain rfl := Option.some.inj hstep
  obtain ⟨hat, hgoes⟩ := SenderAt.resumed hj hblock
  exact ⟨hat, h.sent, h.reassembler, h.delivered, by rw [if_neg hgoes]; exact hrest⟩

theorem InStep.receive (h : InStep payload blockSize r j past l) {l' : Link}
    (hstep : l.takeFrame? = some l') :
    ∃ past', InStep payload blockSize r j past' l' := by
  unfold Link.takeFrame? at hstep
  split at hstep
  case h_2 => simp at hstep
  rename_i frame forward hforward
  obtain rfl := Option.some.inj hstep
  have hflow := h.flow
  rw [hforward, flowControlsFor_cons, ← List.append_assoc] at hflow
  refine ⟨past ++ [frame], h.sender, ?_, ?_, ?_, hflow⟩
  · rw [List.append_assoc, List.singleton_append, ← hforward, h.sent]
  · rw [run_concat, ← h.reassembler]
    rfl
  · rw [payloadsFor_concat, ← h.reassembler, h.delivered]

theorem inStep_of_reachable (hlong : sfMaxPayload < payload.length)
    (hlength : payload.length ≤ 0xFFF) (hr : r.blockSize = blockSize) (hsize : blockSize ≤ 255)
    (h : Link.Reachable (Link.start payload r) l) :
    ∃ j past, InStep payload blockSize r j past l := by
  induction h with
  | refl => exact ⟨0, [], .of_start hlong hlength r⟩
  | tail _ hstep ih =>
      obtain ⟨j, past, hin⟩ := ih
      obtain ⟨move, hmove⟩ := hstep
      cases move with
      | send => exact ⟨j + 1, past, hin.send hr hlong hlength hmove⟩
      | wait => exact ⟨j, past, hin.wait hr hsize hmove⟩
      | receive => exact ⟨j, hin.receive hmove⟩

/-- Where nothing can be sent or taken any more, all frames and all flow control is consumed. -/
theorem InStep.ended (h : InStep payload blockSize r j past l) (hr : r.blockSize = blockSize)
    (hlong : sfMaxPayload < payload.length) (hlength : payload.length ≤ 0xFFF)
    (hstuck : ∀ move, l.step? move = none) :
    l.sender = .finished ∧ l.forward = [] ∧ l.backward = [] ∧ l.delivered = [payload] := by
  have hforward : l.forward = [] := by
    have hreceive := hstuck .receive
    cases hf : l.forward with
    | nil => rfl
    | cons frame forward => simp [Link.step?, Link.takeFrame?, hf] at hreceive
  have hflow := h.flow
  rw [hforward, flowControlsFor, run_nil, List.flatMap_nil, List.append_nil] at hflow
  have hsender := h.sender
  cases hl : l.sender with
  | waiting remaining sequence waitCount =>
      have hwait := hstuck .wait
      rw [hl] at hflow
      simp [Link.step?, Link.takeFlowControl?, hl, hflow, Sender.isWaiting] at hwait
  | ready remaining sequence blockCounter size =>
      have hsend := hstuck .send
      simp [Link.step?, Link.sendNext?, hl] at hsend
  | raised e => rw [hl] at hsender; exact absurd hsender not_false
  | finished =>
      rw [hl] at hsender hflow
      refine ⟨rfl, hforward, hflow, ?_⟩
      have hall := h.sent
      obtain ⟨k, hk⟩ : ∃ k, tailCount payload = k + 1 :=
        Nat.exists_eq_succ_of_ne_zero (tailCount_pos hlong).ne'
      obtain ⟨hcounting, -, hnone⟩ := counting_run hlong hlength hr (k := k) (by omega)
      obtain ⟨-, hlast⟩ := hcounting.receive_last hk.symm
      have hframes : framesOf payload (k + 1) =
          framesOf payload k ++ [consecutiveFrameOf payload k] := by
        simp [framesOf, List.range_succ]
      rw [hforward, List.append_nil, show j = k + 1 from hsender.trans hk, hframes] at hall
      rw [h.delivered, hall, payloadsFor_concat, hnone, hlast]
      rfl

end InStep

/-! ## Every run ends -/

/-- The bytes the sender still has to send. -/
def Sender.remainingBytes : Sender → ℕ
  | .waiting remaining _ _ => remaining.length
  | .ready remaining _ _ _ => remaining.length
  | .finished => 0
  | .raised _ => 0

def Link.work (l : Link) : ℕ :=
  3 * l.sender.remainingBytes + 2 * l.forward.length + l.backward.length

theorem remainingBytes_continueLoop (remaining : Bytes) (sequence blockCounter blockSize : ℕ) :
    (Sender.continueLoop remaining sequence blockCounter blockSize).remainingBytes =
      remaining.length := by
  unfold Sender.continueLoop
  split
  · rename_i h
    simp [h, Sender.remainingBytes]
  · split <;> rfl

theorem remainingBytes_receiveFlowControl (frame remaining : Bytes) (sequence waitCount : ℕ) :
    (receiveFlowControl frame remaining sequence waitCount).remainingBytes ≤ remaining.length := by
  unfold receiveFlowControl
  split
  · exact le_rfl
  · split_ifs
    · exact Nat.zero_le _
    · exact le_rfl
    · exact Nat.zero_le _
    · exact Nat.zero_le _
    · exact (remainingBytes_continueLoop ..).le

theorem remainingBytes_sendConsecutive (remaining : Bytes)
    (sequence blockCounter blockSize : ℕ) :
    (sendConsecutive remaining sequence blockCounter blockSize).2.remainingBytes ≤
      (remaining.drop cfMaxPayload).length := by
  unfold sendConsecutive transmit
  split
  · exact Nat.zero_le _
  · exact (remainingBytes_continueLoop ..).le

/-- Every step of a sender that still has something to send where it sends brings the transfer
closer to its end. -/
theorem work_lt {l l' : Link} {move : Move}
    (hready : ∀ remaining sequence blockCounter blockSize,
      l.sender = .ready remaining sequence blockCounter blockSize → remaining ≠ [])
    (hstep : l.step? move = some l') : l'.work < l.work := by
  cases move with
  | send =>
      change l.sendNext? = some l' at hstep
      unfold Link.sendNext? at hstep
      split at hstep
      case h_2 => simp at hstep
      rename_i remaining sequence blockCounter size hl
      obtain rfl := Option.some.inj hstep
      have hpos := List.length_pos_iff.mpr (hready _ _ _ _ hl)
      have hle := remainingBytes_sendConsecutive remaining sequence blockCounter size
      have hone := Option.length_toList_le
        (o := (sendConsecutive remaining sequence blockCounter size).1)
      rw [List.length_drop, cfMaxPayload] at hle
      have hbytes : l.sender.remainingBytes = remaining.length := by
        rw [hl]
        rfl
      simp only [Link.work, hbytes, List.length_append]
      omega
  | wait =>
      change l.takeFlowControl? = some l' at hstep
      unfold Link.takeFlowControl? at hstep
      split at hstep
      case h_2 => simp at hstep
      rename_i remaining sequence waitCount frame backward hl hbackward
      obtain rfl := Option.some.inj hstep
      have hle := remainingBytes_receiveFlowControl frame remaining sequence waitCount
      simp only [Link.work, hl, hbackward, List.length_cons, Sender.remainingBytes] at hle ⊢
      omega
  | receive =>
      change l.takeFrame? = some l' at hstep
      unfold Link.takeFrame? at hstep
      split at hstep
      case h_2 => simp at hstep
      rename_i frame forward hforward
      obtain rfl := Option.some.inj hstep
      have hle := Option.length_toList_le (o := (receiveFrame frame l.reassembler).flowControl)
      simp only [Link.work, hforward, List.length_cons, List.length_append]
      omega

/-- The transfer of a payload that needs flow control.  In every reachable state: a waiting
sender is owed exactly one flow control frame, which is on its way or will be the answer to the
frames on theirs, and which it understands as the permission to continue; where nothing is left
to do the sender has finished, no frame and no flow control is left over, and the receiver has
handed on the payload; and every step comes closer to such an end. -/
theorem flow_control_lockstep (payload : Bytes) (hlong : 63 ≤ payload.length)
    (hlength : payload.length ≤ 0xFFF) (r : IsoTpReassembler) (blockSize : ℕ)
    (hr : r.blockSize = blockSize) (hsize : blockSize ≤ 255) (l : Link)
    (h : Link.Reachable (Link.start payload r) l) :
    (∃ micros, parseFlowControl r.flowControl = some (flowStatusContinue, blockSize, micros)) ∧
      (l.sender.isWaiting → l.backward ++ flowControlsFor l.reassembler l.forward = [r.flowControl]) ∧
      ((∀ move, l.step? move = none) →
        l.sender = .finished ∧ l.forward = [] ∧ l.backward = [] ∧ l.delivered = [payload]) ∧
      ∀ move l', l.step? move = some l' → l'.work < l.work := by
  obtain ⟨j, past, hin⟩ := inStep_of_reachable hlong hlength hr hsize h
  refine ⟨parseFlowControl_flowControl hr hsize, fun hwaits ↦ ?_,
    hin.ended hr hlong hlength, fun move l' hstep ↦ work_lt ?_ hstep⟩
  · rw [hin.flow, if_pos hwaits]
  · intro remaining sequence blockCounter size hl
    have hsender := hin.sender
    rw [hl] at hsender
    obtain ⟨hj, -, -, rfl, -⟩ := hsender
    exact mt (drop_tailOf_eq_nil_iff payload j).mp (not_le.mpr hj)

/-- A payload of four frames, asked for one frame at a time. -/
theorem flow_control_lockstep_start :
    (Link.start (List.replicate 200 7) { blockSize := 1 }).backward ++
        flowControlsFor (Link.start (List.replicate 200 7) { blockSize := 1 }).reassembler
          (Link.start (List.replicate 200 7) { blockSize := 1 }).forward = [[0x30, 1, 0]] := by
  have hstart := @startSend_eq (List.replicate 200 7)
    (by rw [List.length_replicate]; decide) (by rw [List.length_replicate]; decide)
  exact (flow_control_lockstep (List.replicate 200 7) (by rw [List.length_replicate]; decide)
    (by rw [List.length_replicate]; decide) { blockSize := 1 } 1 rfl (by decide) _
    Relation.ReflTransGen.refl).2.1 (by rw [Link.start, hstart]; rfl)

/-! ## Payloads of any length -/

section AnyLength

variable {payload : Bytes} {l : Link} {r : IsoTpReassembler}

/-- `IsoTpAdapter.send` raises nothing, whatever block size the receiver on the bus asks with and
however the steps of the two interleave. -/
def SentWithoutError (payload : Bytes) : Prop :=
  ∀ (r : IsoTpReassembler) (blockSize : ℕ), r.blockSize = blockSize → blockSize ≤ 255 →
    ∀ l, Link.Reachable (Link.start payload r) l → ∀ e, l.sender ≠ .raised e

theorem startSend_of_short (hshort : payload.length ≤ sfMaxPayload) :
    ∃ frame, singleFrame payload = .ok frame ∧ startSend payload = (some frame, .finished) := by
  obtain ⟨frame, hframe, hlength, -⟩ := segment_short hshort
  refine ⟨frame, hframe, ?_⟩
  rw [startSend, if_pos hshort, hframe]
  exact transmit_of_fits hlength _

theorem startSend_of_large (hlarge : 0xFFF < payload.length) :
    startSend payload =
      (none, .raised (.valueError "ISO-TP payload too large for simple adapter")) := by
  have hlong : ¬ payload.length ≤ sfMaxPayload := by
    rw [sfMaxPayload]
    omega
  rw [startSend, if_neg hlong, firstFrame, if_pos hlarge]
  rfl

/-- A step of the link leaves a sender alone that has nothing more to send. -/
theorem Link.finished_step {l' : Link} {move : Move} (hstep : l.step? move = some l')
    (h : l.sender = .finished) : l'.sender = .finished := by
  cases move with
  | send =>
      rw [Link.step?, Link.sendNext?, h] at hstep
      cases hstep
  | wait =>
      rw [Link.step?, Link.takeFlowControl?, h] at hstep
      cases hstep
  | receive =>
      rw [Link.step?, Link.takeFrame?] at hstep
      split at hstep
      · obtain rfl := Option.some.inj hstep
        exact h
      · cases hstep

theorem finished_of_reachable (hshort : payload.length ≤ sfMaxPayload)
    (h : Link.Reachable (Link.start payload r) l) : l.sender = .finished := by
  induction h with
  | refl =>
      obtain ⟨frame, -, hstart⟩ := startSend_of_short hshort
      rw [Link.start, hstart]
  | tail _ hstep ih =>
      obtain ⟨move, hmove⟩ := hstep
      exact Link.finished_step hmove ih

/-- What fits the twelve bits of the first frame is sent. -/
theorem sentWithoutError_iff (payload : Bytes) :
    SentWithoutError payload ↔ payload.length ≤ 0xFFF := by
  constructor
  · intro hsent
    by_contra hlarge
    apply hsent {} 0 rfl (by decide) (Link.start payload {}) .refl
    rw [Link.start, startSend_of_large (not_le.mp hlarge)]
  · intro hlength r blockSize hr hsize l hreach e hraised
    rcases le_or_gt payload.length sfMaxPayload with hshort | hlong
    · rw [finished_of_reachable hshort hreach] at hraised
      cases hraised
    · obtain ⟨j, past, hin⟩ := inStep_of_reachable hlong hlength hr hsize hreach
      have hsender := hin.sender
      rw [hraised] at hsender
      exact hsender

end AnyLength

end VehicleOta.Can
