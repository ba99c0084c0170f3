import VehicleOta.Doip.Gateway
import VehicleOta.Zones.ZoneInventory
import VehicleOta.Zones.ZoneProtocol

/-!
# Zones behind a socket

`ZoneService` of `zones/base/zone_service.py` and `ZoneTransportClient` of
`zones/zone_transport_client.py`.  What reaches a reader is any cutting of what was written.
-/

namespace VehicleOta

open ZoneProtocol

/-- `str(e)`; the key of a `KeyError` stands between quotes. -/
def PyError.text : PyError → String
  | .keyError key => "'" ++ key ++ "'"
  | .valueError message | .runtimeError message | .fileNotFoundError message | .typeError message
  | .attributeError message | .structError message | .timeoutError message
  | .overflowError message | .indexError message => message

/-- `str(e)`, with the name of a decoding error for its text. -/
def ZoneError.text : ZoneError → String
  | .connectionError message => message
  | .decodeError => "JSONDecodeError"
  | .python e => e.text

/-- `f"{x}"` for a text, a constant or an integer. -/
def formatValue : Json → String
  | .str s => s
  | .null => "None"
  | .bool b => if b then "True" else "False"
  | x => String.ofList (x.dump {} 0)

/-! ## The service -/

/-- What a request meets at the service of a zone; `number` is the float of a number. -/
structure ZoneService where
  controller : ZoneController
  now : ℚ := 0
  deliver : VehicleTopology.EcuInfo → Bytes → Except PyError (List Bytes)
  number : ℚ → Json
  metrics : ZoneMetrics := {}

namespace ZoneService

variable (s : ZoneService)

/-- A response with this status. -/
def respond (status : String) (key : String) (value : Json) : Json :=
  .dict [("status", .str status), ("zone_id", .str s.controller.config.zoneId), (key, value)]

def responses (items : List Bytes) : Json :=
  s.respond "OK" "responses" (.list (items.map fun item ↦ .str (Hash.hexDigest item)))

def failure (error : String) : Json := s.respond "ERROR" "error" (.str error)

/-- `_dispatch` -/
def dispatch (request : Json) : Except PyError Json := do
  let requestType ← request.getD "type" .null
  if requestType.eq (.str "inventory") then
    return s.respond "OK" "inventory" (← s.controller.inventoryMessage s.number s.now s.metrics)
  else if requestType.eq (.str "health") then
    return s.respond "OK" "health" (s.controller.healthMessage s.number s.now)
  else if requestType.eq (.str "forward_uds") then do
    let logicalAddress ← (← request.getItem "target_logical_address").toInt
    let payload ← (← request.getItem "payload_hex").bytesFromHex
    return s.responses (← s.controller.forwardUds s.now s.deliver logicalAddress payload)
  else return s.failure ("unsupported request type " ++ formatValue requestType)

/-- The response of `_handle_client` to what it has read. -/
def reply : Except ZoneError Json → Json
  | .error e => s.failure e.text
  | .ok request =>
      match s.dispatch request with
      | .ok response => response
      | .error e => s.failure e.text

end ZoneService

/-! ## The client -/

namespace ZoneTransportClient

def request (zoneId : String) (logicalAddress : ℤ) (payload : Bytes) : Json :=
  .dict [("type", .str "forward_uds"), ("zone_id", .str zoneId),
    ("target_logical_address", .int logicalAddress), ("payload_hex", .str (Hash.hexDigest payload))]

def rejected (zoneId error : String) : ZoneError :=
  .python (.runtimeError ("Zone " ++ zoneId ++ " rejected request: " ++ error))

/-- An exception of the library behind a read. -/
def lift {α : Type} : Except PyError α → Except ZoneError α
  | .ok a => .ok a
  | .error e => .error (.python e)

/-- What `forward_uds` makes of a response. -/
def takeResponse (zoneId : String) (response : Json) : Except ZoneError (List Bytes) := do
  let status ← lift (response.getD "status" .null)
  if ¬ status.eq (.str "OK") then
    .error (rejected zoneId (formatValue (← lift (response.getD "error" (.str "UNKNOWN")))))
  else
    lift do (← (← response.getD "responses" (.list [])).iter).mapM Json.bytesFromHex

section Forward

-- `float(text)`, the attempt to connect, and what comes back on the socket for what was sent on it
variable (float : List Char → Json) (connection : Except PyError Unit)
  (exchange : Bytes → List (Except ZoneError Bytes))

/-- `forward_uds` -/
def forwardUds (router : ZoneRouter) (logicalAddress : ℤ) (payload : Bytes) :
    Except ZoneError (List Bytes) :=
  match router.zoneFor logicalAddress with
  | none =>
      .error (.python (.keyError ("No zone owns logical address " ++ hex logicalAddress)))
  | some zone => do
      lift connection
      let response ← readMessage float
        (exchange (encodeMessage (request zone.config.zoneId logicalAddress payload)))
      takeResponse zone.config.zoneId response

end Forward

section Status

-- `float(text)`, and for every zone the attempt to connect and what comes back on the socket
variable (float : List Char → Json) (connection : String → Except PyError Unit)
  (exchange : String → Bytes → List (Except ZoneError Bytes))

def statusRequest (type zoneId : String) : Json :=
  .dict [("type", .str type), ("zone_id", .str zoneId)]

/-- The loop body of `inventory` and of `health`. -/
def askStatus (type zoneId : String) : Except ZoneError Json := do
  lift (connection zoneId)
  let response ← readMessage float (exchange zoneId (encodeMessage (statusRequest type zoneId)))
  let status ← lift (response.getD "status" .null)
  if ¬ status.eq (.str "OK") then
    .error (.python (.runtimeError ("Zone " ++ zoneId ++ " " ++ type ++ " failed: " ++
      formatValue (← lift (response.getD "error" (.str "UNKNOWN"))))))
  else lift (response.getItem type)

/-- `inventory` -/
def inventory (zoneIds : List String) : Except ZoneError (List Json) :=
  zoneIds.mapM (askStatus float connection exchange "inventory")

/-- `health` -/
def health (zoneIds : List String) : Except ZoneError (List Json) :=
  zoneIds.mapM (askStatus float connection exchange "health")

end Status

end ZoneTransportClient

end VehicleOta
