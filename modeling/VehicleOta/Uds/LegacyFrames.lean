import VehicleOta.Can.CanProtocol
import VehicleOta.Can.FlowControl
import VehicleOta.Uds.CanProgrammer

/-!
# Legacy messages beside ISO-TP

The messages of `CANSender.send_message` and `CANProtocol.create_message` have the CAN id of the
ECU, and so do the ISO-TP frames of a tester.  `UDSCanProgrammer.feed` looks at the first byte to
tell them apart, and the loop of `ecus/bcm/can_receiver.py` reads as a message what `feed` leaves.
-/

namespace VehicleOta.Uds

open Can

/-! ## The sender -/

namespace FrameBuilder

def build (arbitrationId : ℕ) (payload : Bytes) : Except PyError CanMessage :=
  if 64 < payload.length then .error (.valueError "CAN FD payload exceeds 64 bytes")
  else .ok ⟨arbitrationId, payload⟩

end FrameBuilder

/-- The dictionaries that `send_message` tells apart by their "type". -/
inductive OtaMessage where
  | firmwareStart (size : ℤ)
  | firmwareChunk (sequence : ℤ) (payload : String)
  | firmwareEnd
  | healthCheck
  | versionRequest
  | other (type : String)

/-- `size.to_bytes(4, "big")` -/
def sizeBytes : ℤ → Except PyError Bytes
  | .ofNat size => toBytes 4 size
  | .negSucc _ => .error (.overflowError "can't convert negative int to unsigned")

/-- The frame that `send_message` sends; a message it does not know is only printed. -/
def sendMessage (ecuId : ℕ) : OtaMessage → Except PyError (Option CanMessage)
  | .firmwareStart size => do
      let payload := [MessageType.firmwareStart.code, 0x00] ++ (← sizeBytes size)
      return some (← FrameBuilder.build ecuId payload)
  | .firmwareChunk sequence payload => do
      let data ← fromHex payload.toList
      let payload := [MessageType.firmwareData.code, ← byteOf sequence] ++ data
      return some (← FrameBuilder.build ecuId payload)
  | .firmwareEnd => do
      return some (← FrameBuilder.build ecuId [MessageType.firmwareEnd.code, 0x00])
  | .healthCheck => do return some (← CANProtocol.createMessage ecuId .healthRequest [])
  | .versionRequest => do return some (← CANProtocol.createMessage ecuId .versionRequest [])
  | .other _ => .ok none

/-! ## The receiver -/

/-- What `UDSCanProgrammer.feed` leaves behind; it returns `taken` unless `error` escapes. -/
structure Fed where
  taken : Bool
  programmer : UDSCanProgrammer
  reassembler : IsoTpReassembler
  flowControl : Option Bytes := none
  actions : List Action := []
  error : Option PyError := none

/-- `UDSCanProgrammer.feed`; `met` is what `_handle_uds` reads besides the payload. -/
def UDSCanProgrammer.feed (met : Request) (frame : Bytes) (p : UDSCanProgrammer)
    (r : IsoTpReassembler) : Fed :=
  if isIsotpCandidate frame then
    let received := receiveFrame frame r
    match received.payload with
    | none =>
        { taken := true
          programmer := p
          reassembler := received.reassembler
          flowControl := received.flowControl }
    | some payload =>
        let handled := p.handleUds { met with payload := payload }
        { taken := true
          programmer := handled.state
          reassembler := received.reassembler
          flowControl := received.flowControl
          actions := handled.actions
          error := handled.error }
  else { taken := false, programmer := p, reassembler := r }

def broadcastId : ℕ := 0x7FF

/-- The message types that have a branch in the receive loop of an ECU. -/
def hasBranch : MessageType → Bool
  | .discoveryRequest | .healthRequest | .versionRequest => true
  | .firmwareStart | .firmwareData | .firmwareEnd => true
  | _ => false

/-- Where one round of the receive loop takes a message. -/
inductive Route where
  | otherId
  | fed
  | ignored
  | branch (messageType : MessageType)
  | raised (error : PyError)
  deriving DecidableEq

/-- One round of the receive loop, up to the branch of the message type. -/
def route (ecuId : ℕ) (met : Request) (message : CanMessage) (p : UDSCanProgrammer)
    (r : IsoTpReassembler) : Route :=
  if ¬ (message.arbitrationId = ecuId ∨ message.arbitrationId = broadcastId) then .otherId
  else
    let fed := p.feed met message.data r
    match fed.error with
    | some e => .raised e
    | none =>
        if fed.taken then .fed
        else
          match message.data with
          | [] => .raised (.indexError "bytearray index out of range")
          | code :: _ =>
              match MessageType.ofCode code with
              | .error _ => .ignored
              | .ok messageType => if hasBranch messageType then .branch messageType else .ignored

/-! ## Frames of ISO-TP -/

theorem isIsotpCandidate_singleFrame {payload frame : Bytes}
    (h : singleFrame payload = .ok frame) (hpos : 0 < payload.length) :
    isIsotpCandidate frame := by
  unfold singleFrame at h
  split at h
  · cases h
  · rename_i hlength
    rw [sfMaxPayload, not_lt] at hlength
    split at h
    · rename_i hshort
      obtain rfl := Except.ok.inj h
      have htype : frameType (pciByte 0x0 payload.length) = 0x0 :=
        frameType_pciByte (by decide) (by omega)
      have hlow : lowNibble (pciByte 0x0 payload.length) = payload.length :=
        lowNibble_pciByte (by decide) (by omega)
      simp [isIsotpCandidate, htype, hlow, List.length_pos_iff.mp hpos]
    · obtain rfl := Except.ok.inj h
      have hbyte : (UInt8.ofNat payload.length).toNat = payload.length := by
        rw [UInt8.toNat_ofNat']
        omega
      have htype : frameType 0x00 = 0x0 := by decide
      have hlow : lowNibble 0x00 = 0x0 := by decide
      simp [isIsotpCandidate, htype, hlow, hbyte]

theorem isIsotpCandidate_segment {payload : Bytes} (hpos : 0 < payload.length)
    (hlength : payload.length ≤ 0xFFF) :
    ∀ frame ∈ (segment payload).frames, isIsotpCandidate frame := by
  intro frame hframe
  by_cases hlong : sfMaxPayload < payload.length
  · rw [segment_long hlong hlength, framesOf] at hframe
    rcases List.mem_cons.mp hframe with rfl | hframe
    · exact isIsotpCandidate_firstFrameOf payload
    · obtain ⟨i, -, rfl⟩ := List.mem_map.mp hframe
      exact isIsotpCandidate_consecutiveFrameOf payload i
  · obtain ⟨single, hsingle, -, hsegment⟩ := segment_short (not_lt.mp hlong)
    rw [hsegment] at hframe
    obtain rfl := List.mem_singleton.mp hframe
    exact isIsotpCandidate_singleFrame hsingle hpos

/-! ## What `feed` takes -/

section Feed

variable (met : Request) {frame : Bytes} (p : UDSCanProgrammer) (r : IsoTpReassembler)

theorem feed_of_candidate (h : isIsotpCandidate frame = true) :
    (p.feed met frame r).taken = true := by
  rw [UDSCanProgrammer.feed, if_pos h]
  dsimp only
  split
  · rfl
  · rfl

theorem feed_of_not_candidate (h : isIsotpCandidate frame = false) :
    p.feed met frame r = { taken := false, programmer := p, reassembler := r } := by
  rw [UDSCanProgrammer.feed, if_neg (by rw [h]; decide)]

theorem taken_feed : (p.feed met frame r).taken = isIsotpCandidate frame := by
  cases h : isIsotpCandidate frame with
  | true => exact feed_of_candidate met p r h
  | false => rw [feed_of_not_candidate met p r h]

end Feed

/-! ## Legacy messages -/

/-- The messages whose first byte does not read as the start of a single frame that is complete,
of a first frame or of a consecutive frame. -/
def PassesFeed (payload : Bytes) : MessageType → Prop
  | .discoveryRequest => payload.length < 1
  | .discoveryResponse => payload.length < 2
  | .firmwareStart | .firmwareData | .firmwareEnd | .ack => False
  | .installComplete | .healthRequest | .healthResponse => True
  | .versionRequest | .versionResponse | .heartbeat => True

theorem isIsotpCandidate_cons {pci : UInt8} (hpci : 0 < pci.toNat) (rest : Bytes) :
    isIsotpCandidate (pci :: rest) = true ↔
      pci.toNat < 16 ∧ pci.toNat ≤ rest.length ∨ 16 ≤ pci.toNat ∧ pci.toNat < 48 := by
  have htype : frameType pci = pci.toNat / 16 := Nat.shiftRight_eq_div_pow pci.toNat 4
  have hlow : lowNibble pci = pci.toNat % 16 := and_0x0F pci.toNat
  unfold isIsotpCandidate
  dsimp only
  rw [htype, hlow]
  split
  · rw [if_neg (by omega), decide_eq_true_iff]
    omega
  · rw [decide_eq_true_iff]
    omega

/-- No message type is zero, so the first byte decides together with the length. -/
theorem isIsotpCandidate_code (t : MessageType) (payload : Bytes) :
    isIsotpCandidate (t.code :: payload) = false ↔ PassesFeed payload t := by
  have hcode : 0 < t.code.toNat := by cases t <;> decide
  rw [← Bool.not_eq_true, isIsotpCandidate_cons hcode]
  cases t <;> simp [MessageType.code, PassesFeed]

theorem data_of_createMessage {arbitrationId : ℕ} {t : MessageType} {payload : Bytes}
    {message : CanMessage}
    (h : CANProtocol.createMessage arbitrationId t payload = .ok message) :
    message = ⟨arbitrationId, t.code :: payload⟩ := by
  unfold CANProtocol.createMessage at h
  split at h
  · cases h
  · exact (Except.ok.inj h).symm

/-- A legacy message is told apart: `feed` leaves it alone, and if its type has a branch in the
receive loop, the message gets there. -/
structure ToldApart (ecuId : ℕ) (met : Request) (p : UDSCanProgrammer) (r : IsoTpReassembler)
    (t : MessageType) (message : CanMessage) : Prop where
  left : (p.feed met message.data r).taken = false
  unaffected : (p.feed met message.data r).reassembler = r
  handled : hasBranch t = true → route ecuId met message p r = .branch t

section Told

variable {ecuId arbitrationId : ℕ} {met : Request} {p : UDSCanProgrammer} {r : IsoTpReassembler}
  {t : MessageType} {payload : Bytes} {message : CanMessage}

theorem route_of_passesFeed (haddress : arbitrationId = ecuId ∨ arbitrationId = broadcastId)
    (hpasses : PassesFeed payload t) (hbranch : hasBranch t = true) :
    route ecuId met ⟨arbitrationId, t.code :: payload⟩ p r = .branch t := by
  have hfeed := feed_of_not_candidate met p r ((isIsotpCandidate_code t payload).mpr hpasses)
  rw [route, if_neg (not_not.mpr haddress), hfeed]
  dsimp only
  rw [if_neg (by decide), MessageType.ofCode_code]
  dsimp only
  rw [if_pos hbranch]

theorem toldApart_iff (hmessage : CANProtocol.createMessage arbitrationId t payload = .ok message)
    (haddress : arbitrationId = ecuId ∨ arbitrationId = broadcastId) :
    ToldApart ecuId met p r t message ↔ PassesFeed payload t := by
  obtain rfl := data_of_createMessage hmessage
  constructor
  · intro h
    rw [← isIsotpCandidate_code, ← taken_feed met p r]
    exact h.left
  · intro hpasses
    have hfeed := feed_of_not_candidate met p r ((isIsotpCandidate_code t payload).mpr hpasses)
    exact ⟨by rw [hfeed], by rw [hfeed], route_of_passesFeed haddress hpasses⟩

end Told

/-! ## The messages of the sender -/

def OtaMessage.messageType : OtaMessage → Option MessageType
  | .firmwareStart _ => some .firmwareStart
  | .firmwareChunk _ _ => some .firmwareData
  | .firmwareEnd => some .firmwareEnd
  | .healthCheck => some .healthRequest
  | .versionRequest => some .versionRequest
  | .other _ => none

theorem createMessage_of_build {ecuId : ℕ} {t : MessageType} {payload : Bytes}
    {message : CanMessage} (h : FrameBuilder.build ecuId (t.code :: payload) = .ok message) :
    CANProtocol.createMessage ecuId t payload = .ok message := by
  unfold FrameBuilder.build at h
  split at h
  · cases h
  · rename_i hlength
    rw [List.length_cons] at hlength
    rw [CANProtocol.createMessage, if_neg (by omega)]
    exact h

/-- What `send_message` sends could have been made by `create_message`. -/
theorem createMessage_of_sendMessage {ecuId : ℕ} {sent : OtaMessage} {message : CanMessage}
    (h : sendMessage ecuId sent = .ok (some message)) :
    ∃ t payload, sent.messageType = some t ∧
      CANProtocol.createMessage ecuId t payload = .ok message := by
  cases sent with
  | firmwareStart size =>
      obtain ⟨data, -, h⟩ := bind_eq_ok.mp h
      obtain ⟨built, hbuilt, h⟩ := bind_eq_ok.mp h
      cases h
      exact ⟨_, _, rfl, createMessage_of_build hbuilt⟩
  | firmwareChunk sequence payload =>
      obtain ⟨data, -, h⟩ := bind_eq_ok.mp h
      obtain ⟨byte, -, h⟩ := bind_eq_ok.mp h
      obtain ⟨built, hbuilt, h⟩ := bind_eq_ok.mp h
      cases h
      exact ⟨_, _, rfl, createMessage_of_build hbuilt⟩
  | firmwareEnd =>
      obtain ⟨built, hbuilt, h⟩ := bind_eq_ok.mp h
      cases h
      exact ⟨_, _, rfl, createMessage_of_build hbuilt⟩
  | healthCheck =>
      obtain ⟨built, hbuilt, h⟩ := bind_eq_ok.mp h
      cases h
      exact ⟨_, _, rfl, hbuilt⟩
  | versionRequest =>
      obtain ⟨built, hbuilt, h⟩ := bind_eq_ok.mp h
      cases h
      exact ⟨_, _, rfl, hbuilt⟩
  | other type => cases h

def OtaMessage.isRequest : OtaMessage → Bool
  | .healthCheck | .versionRequest => true
  | _ => false

theorem passesFeed_iff_isRequest {sent : OtaMessage} {t : MessageType}
    (h : sent.messageType = some t) (payload : Bytes) :
    PassesFeed payload t ↔ sent.isRequest = true := by
  cases sent <;> cases h <;> simp [PassesFeed, OtaMessage.isRequest]

theorem toldApart_sendMessage_iff {ecuId : ℕ} {met : Request} {p : UDSCanProgrammer}
    {r : IsoTpReassembler} {sent : OtaMessage} {t : MessageType} {message : CanMessage}
    (htype : sent.messageType = some t)
    (h : sendMessage ecuId sent = .ok (some message)) :
    ToldApart ecuId met p r t message ↔ sent.isRequest = true := by
  obtain ⟨t', payload, htype', hmessage⟩ := createMessage_of_sendMessage h
  obtain rfl := Option.some.inj (htype'.symm.trans htype)
  rw [toldApart_iff hmessage (.inl rfl)]
  exact passesFeed_iff_isRequest htype payload

/-! ## Both protocols on one id -/

/-- Every ISO-TP frame is taken, in every state.  A legacy message is told apart just when its
first byte does not read as a frame of ISO-TP: never if it belongs to a firmware transfer. -/
theorem legacy_frames_told_apart_iff (ecuId : ℕ) (met : Request) (p : UDSCanProgrammer)
    (r : IsoTpReassembler) :
    (∀ payload : Bytes, 1 ≤ payload.length → payload.length ≤ 4095 →
      ∀ frame ∈ (segment payload).frames, (p.feed met frame r).taken = true) ∧
    (∀ arbitrationId t payload message,
      CANProtocol.createMessage arbitrationId t payload = .ok message →
      arbitrationId = ecuId ∨ arbitrationId = broadcastId →
        (ToldApart ecuId met p r t message ↔ PassesFeed payload t)) ∧
    ∀ sent t message, sent.messageType = some t →
      sendMessage ecuId sent = .ok (some message) →
        (ToldApart ecuId met p r t message ↔ sent.isRequest = true) := by
  refine ⟨?_, ?_, ?_⟩
  · intro payload hpos hlength frame hframe
    exact feed_of_candidate met p r (isIsotpCandidate_segment hpos hlength frame hframe)
  · intro arbitrationId t payload message hmessage haddress
    exact toldApart_iff hmessage haddress
  · intro sent t message htype hsent
    exact toldApart_sendMessage_iff htype hsent

/-- An ECU in the middle of a reception. -/
def receivingHundred : IsoTpReassembler :=
  { expectedLength := some 100, buffer := List.replicate 62 0x00 }

/-- FIRMWARE_START for 1024 bytes reads as a first frame of length zero: it is taken, its branch
is not reached, and the reception is lost. -/
theorem firmwareStart_taken_for_firstFrame :
    sendMessage 0x202 (.firmwareStart 1024) =
        .ok (some ⟨0x202, [0x10, 0x00, 0x00, 0x00, 0x04, 0x00]⟩) ∧
      (∀ p : UDSCanProgrammer,
        let fed := p.feed { payload := [] } [0x10, 0x00, 0x00, 0x00, 0x04, 0x00] receivingHundred
        fed.taken = true ∧ fed.reassembler.expectedLength = none) ∧
      ∀ p : UDSCanProgrammer, ¬ ToldApart 0x202 { payload := [] } p receivingHundred .firmwareStart
        ⟨0x202, [0x10, 0x00, 0x00, 0x00, 0x04, 0x00]⟩ := by
  have hsend : sendMessage 0x202 (.firmwareStart 1024) =
      .ok (some ⟨0x202, [0x10, 0x00, 0x00, 0x00, 0x04, 0x00]⟩) := rfl
  refine ⟨hsend, fun p ↦ ⟨rfl, rfl⟩, fun p ↦ ?_⟩
  rw [toldApart_sendMessage_iff rfl hsend]
  decide

end VehicleOta.Uds
