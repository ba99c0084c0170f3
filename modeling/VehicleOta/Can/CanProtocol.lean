import VehicleOta.Python.Basics

/-!
# OTA messages in one CAN frame

`common/message_types.py` and the two functions of `common/can_protocol.py` that build and
decode a message.
-/

namespace VehicleOta.Can

inductive MessageType where
  | discoveryRequest
  | discoveryResponse
  | firmwareStart
  | firmwareData
  | firmwareEnd
  | ack
  | installComplete
  | healthRequest
  | healthResponse
  | versionRequest
  | versionResponse
  | heartbeat
  deriving DecidableEq

namespace MessageType

def code : MessageType → UInt8
  | discoveryRequest => 0x01
  | discoveryResponse => 0x02
  | firmwareStart => 0x10
  | firmwareData => 0x11
  | firmwareEnd => 0x12
  | ack => 0x20
  | installComplete => 0x30
  | healthRequest => 0x31
  | healthResponse => 0x32
  | versionRequest => 0x33
  | versionResponse => 0x34
  | heartbeat => 0x40

def all : List MessageType :=
  [discoveryRequest, discoveryResponse, firmwareStart, firmwareData, firmwareEnd, ack,
    installComplete, healthRequest, healthResponse, versionRequest, versionResponse, heartbeat]

/-- `MessageType(value)` -/
def ofCode (value : UInt8) : Except PyError MessageType :=
  match all.find? fun t ↦ t.code = value with
  | some t => .ok t
  | none => .error (.valueError (toString value.toNat ++ " is not a valid MessageType"))

@[simp] theorem ofCode_code (t : MessageType) : ofCode t.code = .ok t := by
  cases t <;> rfl

end MessageType

structure CanMessage where
  arbitrationId : ℕ
  data : Bytes

/-- What `parse_message` returns. -/
structure Decoded where
  senderId : ℕ
  messageType : MessageType
  payload : Bytes
  versionMajor : ℕ
  versionMinor : ℕ

namespace CANProtocol

def createMessage (arbitrationId : ℕ) (messageType : MessageType) (payload : Bytes) :
    Except PyError CanMessage :=
  if 63 < payload.length then .error (.valueError "CAN FD payload exceeds 63 bytes")
  else .ok ⟨arbitrationId, messageType.code :: payload⟩

def parseMessage (message : CanMessage) : Except PyError Decoded :=
  match message.data with
  | [] => .error (.valueError "Invalid CAN Frame")
  | code :: payload => do
      return {
        senderId := message.arbitrationId
        messageType := ← MessageType.ofCode code
        payload := payload
        versionMajor := (payload.getD 0 0).toNat
        versionMinor := (payload.getD 1 0).toNat }

end CANProtocol

end VehicleOta.Can
